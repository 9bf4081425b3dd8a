import Mathlib.Algebra.Order.BigOperators.Group.List
import LiTimeGateway.Storage.Acknowledge
/-!
# Theorems about acknowledging a batch

- `acknowledge_agrees_iff`: with every call succeeding, an acknowledgement of
  what the reader reported drops exactly those items just when no blank line
  stands among the lines it counts.
- `acknowledge_atomic_iff`: which call outcomes leave the queue with all its
  items or with all but the acknowledged ones.
-/

namespace LiTimeGateway

open Lib.Lines StorageManager

/-- A line that is not empty but trims to nothing. -/
def BlankLine (line : Bytes) : Prop := trim line = []

instance (line : Bytes) : Decidable (BlankLine line) := inferInstanceAs (Decidable (_ = _))

/-- The lines an acknowledgement counts carry an item each, or no later line does. -/
def CountsItems (content : Bytes) (itemCount : Nat) : Prop :=
  (∀ l ∈ (countedLines content).take itemCount, ¬ BlankLine l) ∨
    ∀ l ∈ keptLines content itemCount, BlankLine l

theorem countsItems_iff (content : Bytes) (itemCount : Nat) :
    itemsOf isspace (keptLines content itemCount) = (contentItems content).drop itemCount ↔
      CountsItems content itemCount := by
  rw [contentItems_eq]
  exact itemsOf_drop_iff isspace (countedLines content) itemCount

/-! ## The reader and the acknowledger -/

theorem contentItems_split (content : Bytes) (itemCount : Nat) : contentItems content =
    itemsOf isspace ((countedLines content).take itemCount) ++ itemsOf isspace (keptLines content itemCount) := by
  rw [contentItems_eq, keptLines, ← itemsOf_append, List.take_append_drop]

theorem acknowledge_ok {s : StorageManager} {itemCount : Nat} {content : Bytes} (hm : s.mounted = true)
    (hk : itemCount ≠ 0) (hf : s.files .remoteNdjson = some content) :
    (s.acknowledgeRemoteBatch itemCount .ok).1.files .remoteNdjson =
        some ((keptLines content itemCount).flatMap println) ∧
      (s.acknowledgeRemoteBatch itemCount .ok).2 = some true := by
  have hreach : ReachesReplace s.files itemCount .ok :=
    ⟨content, hf, rfl, rfl, by simp [AckIo.ok], by simp [AckIo.ok], by rintro ⟨j, -, h⟩; cases h⟩
  obtain ⟨h1, h2⟩ := acknowledgeFiles_reaches hf hreach
  have hcopy : copyText AckIo.ok.println 0 (keptLines content itemCount) =
      (keptLines content itemCount).flatMap println := copyText_complete _ 0 fun _ _ => rfl
  rw [hcopy] at h1
  simp only [acknowledgeRemoteBatch, hm, hk, Bool.not_true, decide_false, Bool.or_self,
    Bool.false_eq_true, if_false]
  exact ⟨h1, h2⟩

/-- However an acknowledgement ends whose copy is whole: the queue is what it was,
it is gone, or it holds the lines kept. -/
theorem acknowledge_whole (s : StorageManager) (itemCount : Nat) {io : AckIo} (h : io.println = fun _ => none) :
    let after := (s.acknowledgeRemoteBatch itemCount io).1.files .remoteNdjson
    after = s.files .remoteNdjson ∨ after = none ∨ ∃ content, s.files .remoteNdjson = some content ∧
      after = some ((keptLines content itemCount).flatMap println) := by
  dsimp only
  rw [acknowledgeRemoteBatch]
  split
  · exact .inl rfl
  · by_cases hreach : ReachesReplace s.files itemCount io
    · obtain ⟨content, hf, -⟩ := id hreach
      have hafter := (acknowledgeFiles_reaches hf hreach).1
      rw [h, copyText_complete _ 0 fun _ _ => rfl] at hafter
      cases hfate : replaceFate io with
      | untouched => exact .inl (by rw [hfate] at hafter; exact hafter.trans hf.symm)
      | gone => exact .inr (.inl (by rw [hfate] at hafter; exact hafter))
      | replaced => exact .inr (.inr ⟨content, hf, by rw [hfate] at hafter; exact hafter⟩)
    · exact .inl (acknowledgeFiles_stopped hreach).1

/-- The copy is gone with the rename. -/
theorem acknowledge_ok_tmp {files : Files} {itemCount : Nat} {content : Bytes} (hf : files .remoteNdjson = some content) :
    (acknowledgeFiles files itemCount .ok).1 .remoteTmp = none := by
  have hkept : (copyLoop .ok itemCount (readLines content) 0 0 []).2 = false := by
    rw [Bool.eq_false_iff]
    intro ht
    obtain ⟨j, -, h⟩ := (copyLoop_spec .ok itemCount (readLines content) 0 0 []).1.1 ht
    cases h
  have hack : acknowledgeFiles files itemCount .ok =
      replaceQueue ((files.write .remoteTmp []).write .remoteTmp
        (copyLoop .ok itemCount (readLines content) 0 0 []).1) .ok := by
    simp [acknowledgeFiles, AckIo.ok, hf] at hkept ⊢
    simp [hkept]
  have hreplace : ∀ f : Files, (replaceQueue f .ok).1 = (f.remove .remoteNdjson).rename .remoteTmp .remoteNdjson := by
    intro f
    simp [replaceQueue, AckIo.ok]
  have hne : Path.remoteTmp ≠ .remoteNdjson := by decide
  rw [hack, hreplace]
  exact Files.rename_source _ hne

theorem replaceQueue_other (files : Files) (io : AckIo) {path : Path} (h1 : path ≠ .remoteNdjson)
    (h2 : path ≠ .remoteTmp) : (replaceQueue files io).1 path = files path := by
  have hremove : (if io.remove then files.remove .remoteNdjson else files) path = files path := by
    split
    · exact Files.remove_other _ h1
    · rfl
  unfold replaceQueue
  dsimp only
  split
  · exact hremove
  · have hrename : (if io.rename then
        (if io.remove then files.remove .remoteNdjson else files).rename .remoteTmp .remoteNdjson
        else if io.remove then files.remove .remoteNdjson else files) path = files path := by
      split
      · rw [Files.rename_other _ h2 h1, hremove]
      · exact hremove
    split
    · exact hrename
    · exact hrename

/-- An acknowledgement, however it ends, leaves the other files alone. -/
theorem acknowledgeFiles_other (files : Files) (itemCount : Nat) (io : AckIo) {path : Path}
    (h1 : path ≠ .remoteNdjson) (h2 : path ≠ .remoteTmp) :
    (acknowledgeFiles files itemCount io).1 path = files path := by
  have hopened : (if io.openOutput then files.write .remoteTmp [] else files) path = files path := by
    split
    · exact Files.write_other _ _ h2
    · rfl
  have hwritten : ∀ output, ((files.write .remoteTmp []).write .remoteTmp output) path = files path := by
    intro output
    rw [Files.write_other _ _ h2, Files.write_other _ _ h2]
  unfold acknowledgeFiles
  dsimp only
  split
  · rfl
  · split
    · exact hopened
    · split
      · split
        · exact hwritten _
        · exact (replaceQueue_other _ _ h1 h2).trans (hwritten _)
      · exact hopened

theorem acknowledge_none (s : StorageManager) (io : AckIo) : s.acknowledgeRemoteBatch 0 io = (s, some true) := by
  simp [acknowledgeRemoteBatch]

theorem nextRemoteBatch_count_le (s : StorageManager) (maxItems : Nat) :
    (s.nextRemoteBatch maxItems).2 ≤ (queueItems s.files).length := by
  cases h : s.mounted with
  | false => rw [nextRemoteBatch_unmounted h]; exact Nat.zero_le _
  | true => rw [nextRemoteBatch_eq h]; exact Nat.min_le_right _ _

theorem mounted_of_count {s : StorageManager} {maxItems : Nat} (h : (s.nextRemoteBatch maxItems).2 ≠ 0) :
    s.mounted = true := by
  cases hm : s.mounted with
  | true => rfl
  | false => rw [nextRemoteBatch_unmounted hm] at h; exact absurd rfl h

/-- With every filesystem call succeeding, acknowledging the reported number of
items leaves exactly the other items, in order, if and only if none of the
counted lines it drops is blank. -/
theorem acknowledge_agrees_iff (s : StorageManager) (maxItems : Nat) :
    let itemCount := (s.nextRemoteBatch maxItems).2
    queueItems (s.acknowledgeRemoteBatch itemCount .ok).1.files = (queueItems s.files).drop itemCount ↔
      ∀ l ∈ (countedLines ((s.files .remoteNdjson).getD [])).take itemCount, ¬ BlankLine l := by
  intro itemCount
  have hle : itemCount ≤ (queueItems s.files).length := nextRemoteBatch_count_le s maxItems
  by_cases hk : itemCount = 0
  · rw [hk, acknowledge_none]
    simp
  have hm : s.mounted = true := mounted_of_count hk
  cases hf : s.files .remoteNdjson with
  | none =>
    have h0 : queueItems s.files = [] := by simp [queueItems, hf, contentItems, items]
    rw [h0] at hle
    exact absurd (Nat.le_zero.1 hle) hk
  | some content =>
    have hq : queueItems s.files = contentItems content := by simp [queueItems, hf]
    have hafter : queueItems (s.acknowledgeRemoteBatch itemCount .ok).1.files =
        itemsOf isspace (keptLines content itemCount) := by
      rw [queueItems, (acknowledge_ok hm hk hf).1, Option.getD_some,
        contentItems_flatMap_println fun l hl => newline_not_mem_keptLines hl]
    rw [hafter, hq, countsItems_iff, Option.getD_some]
    refine ⟨?_, .inl⟩
    rintro (h | h)
    · exact h
    · -- Nothing is kept, and the file has at least `itemCount` items: each dropped line is one.
      have hnil : itemsOf isspace (keptLines content itemCount) = [] := (itemsOf_eq_nil_iff _ _).2 h
      have hsplit := contentItems_split content itemCount
      rw [hnil, List.append_nil] at hsplit
      rw [hq, hsplit] at hle
      have h1 := itemsOf_length_le isspace ((countedLines content).take itemCount)
      have h2 := List.length_take_le itemCount (countedLines content)
      exact (itemsOf_length_eq_iff isspace _).1 (by omega)

/-- A mounted filesystem that holds only this remote queue. -/
def queueOf (content : Bytes) : StorageManager where
  mounted := true
  files := fun path => if path = .remoteNdjson then some content else none

/-- A blank line written with `println`, then one item: the reader reports the
item, the acknowledgement drops the blank line, and the item stays queued. -/
theorem acknowledge_keeps_sent_item :
    let s := queueOf (ascii "\r\nA\r\n")
    let itemCount := (s.nextRemoteBatch 8).2
    itemCount = 1 ∧ queueItems (s.acknowledgeRemoteBatch itemCount .ok).1.files = [ascii "A"] ∧
      queueItems (s.acknowledgeRemoteBatch itemCount .ok).1.files ≠ (queueItems s.files).drop itemCount := by
  decide

/-! ## Failing calls and lost power -/

/-- An acknowledgement, and the reboot with `begin` that follows a power loss. -/
def acknowledgeAndRecover (s : StorageManager) (itemCount : Nat) (io : AckIo) : StorageManager × Option Bool :=
  match s.acknowledgeRemoteBatch itemCount io with
  | (after, none) => ((StorageManager.begin { files := after.files } true).1, none)
  | result => result

/-- The queue afterwards holds all the old items or all but the first
`itemCount`: the latter if the call returned true, the former if it returned false. -/
def Atomic (old : List Bytes) (itemCount : Nat) (result : StorageManager × Option Bool) : Prop :=
  let after := queueItems result.1.files
  (after = old ∨ after = old.drop itemCount) ∧ (result.2 = some true → after = old.drop itemCount) ∧
    (result.2 = some false → after = old)

instance (old : List Bytes) (itemCount : Nat) (result : StorageManager × Option Bool) :
    Decidable (Atomic old itemCount result) := inferInstanceAs (Decidable (_ ∧ _))

/-- The power stays on through the remove and the rename. -/
def Returns (io : AckIo) : Prop := io.powerLost ≠ some .remove ∧ io.powerLost ≠ some .rename

/-- The outcomes an acknowledgement is safe under: if it gets as far as the
remove and the rename, then either they leave the queue alone, or the queue is
gone but had nothing to lose, or a faithful copy takes its place. Unmounted, it
reports success and does nothing, which is right for an empty queue. -/
def AckSafe (s : StorageManager) (itemCount : Nat) (io : AckIo) : Prop :=
  (s.mounted = false → queueItems s.files = []) ∧
    ∀ content, s.mounted = true → s.files .remoteNdjson = some content → ReachesReplace s.files itemCount io →
      match replaceFate io with
      | .untouched => True
      | .gone => (contentItems content).length ≤ itemCount ∧ (Returns io → contentItems content = [])
      | .replaced =>
        SafeCopy io.println (keptLines content itemCount) ∧
          (CountsItems content itemCount ∨ ¬ Returns io ∧ ∀ l ∈ (countedLines content).take itemCount, BlankLine l)

/-- Not both defects at once: a blank line counted as an item, and a copy that
loses bytes. Where both strike, what is written may spell the right items by chance. -/
def OneDefect (files : Files) (itemCount : Nat) (io : AckIo) : Prop :=
  ∀ content, files .remoteNdjson = some content →
    CountsItems content itemCount ∨ SafeCopy io.println (keptLines content itemCount)

theorem copyItems_iff (content : Bytes) (itemCount : Nat) (io : AckIo) :
    contentItems (copyText io.println 0 (keptLines content itemCount)) =
      itemsOf isspace (keptLines content itemCount) ↔ SafeCopy io.println (keptLines content itemCount) :=
  contentItems_copyText_iff fun _ hl => newline_not_mem_keptLines hl

/-- The copy reads as the items after the first `itemCount`. -/
theorem copyIsRest {content : Bytes} {itemCount : Nat} {io : AckIo}
    (hs : SafeCopy io.println (keptLines content itemCount)) (hc : CountsItems content itemCount) :
    contentItems (copyText io.println 0 (keptLines content itemCount)) = (contentItems content).drop itemCount :=
  ((copyItems_iff content itemCount io).2 hs).trans ((countsItems_iff content itemCount).2 hc)

theorem safe_of_copyIsRest {content : Bytes} {itemCount : Nat} {io : AckIo}
    (hone : CountsItems content itemCount ∨ SafeCopy io.println (keptLines content itemCount))
    (h : contentItems (copyText io.println 0 (keptLines content itemCount)) = (contentItems content).drop itemCount) :
    SafeCopy io.println (keptLines content itemCount) ∧ CountsItems content itemCount := by
  rcases hone with hc | hs
  · exact ⟨(copyItems_iff content itemCount io).1 (h.trans ((countsItems_iff content itemCount).2 hc).symm), hc⟩
  · exact ⟨hs, (countsItems_iff content itemCount).1 (((copyItems_iff content itemCount io).2 hs).symm.trans h)⟩

/-- The copy reads as all the items: the acknowledged lines carried none. -/
theorem copyIsAll_iff (content : Bytes) (itemCount : Nat) (io : AckIo) :
    contentItems (copyText io.println 0 (keptLines content itemCount)) = contentItems content ↔
      SafeCopy io.println (keptLines content itemCount) ∧
        ∀ l ∈ (countedLines content).take itemCount, BlankLine l := by
  have hblank := itemsOf_eq_nil_iff isspace ((countedLines content).take itemCount)
  constructor
  · -- The copy has at most the solid bytes of the kept lines, so the dropped ones had none.
    intro h
    have hsolid := congrArg (fun is => (is.map (solid isspace)).sum) h
    simp only [contentItems_split content itemCount, List.map_append, List.sum_append, solid_itemsOf] at hsolid
    rw [contentItems, solid_items isspace (show isspace (ch '\n') = true from rfl)] at hsolid
    have hle := (solid_copyText io.println 0 (keptLines content itemCount)).1
    have hzero : (((countedLines content).take itemCount).map (solid isspace)).sum = 0 := by omega
    have hnone : ∀ l ∈ (countedLines content).take itemCount, BlankLine l := fun l hl =>
      (strip_eq_nil_iff isspace).2 ((solid_eq_zero_iff isspace).1
        (List.sum_eq_zero_iff.1 hzero _ (List.mem_map_of_mem hl)))
    refine ⟨(copyItems_iff content itemCount io).1 ?_, hnone⟩
    rw [h, contentItems_split content itemCount, hblank.2 hnone, List.nil_append]
  · rintro ⟨hs, hnone⟩
    rw [(copyItems_iff content itemCount io).2 hs, contentItems_split content itemCount, hblank.2 hnone,
      List.nil_append]

theorem recover_queue (s : StorageManager) (itemCount : Nat) (io : AckIo) :
    queueItems (acknowledgeAndRecover s itemCount io).1.files =
        queueItems (s.acknowledgeRemoteBatch itemCount io).1.files ∧
      (acknowledgeAndRecover s itemCount io).2 = (s.acknowledgeRemoteBatch itemCount io).2 := by
  unfold acknowledgeAndRecover
  split
  · next after h =>
    rw [h]
    refine ⟨?_, rfl⟩
    cases ht : (after.files .telemetryCsv) <;> simp [StorageManager.begin, ht, queueItems, Files.write]
  · exact ⟨rfl, rfl⟩

theorem queueItems_of {files : Files} {content : Option Bytes} (h : files .remoteNdjson = content) :
    queueItems files = contentItems (content.getD []) := by rw [queueItems, h]

theorem recover_ack {s : StorageManager} {itemCount : Nat} (io : AckIo) (hm : s.mounted = true)
    (hk : 1 ≤ itemCount) :
    queueItems (acknowledgeAndRecover s itemCount io).1.files =
        queueItems (acknowledgeFiles s.files itemCount io).1 ∧
      (acknowledgeAndRecover s itemCount io).2 = (acknowledgeFiles s.files itemCount io).2 := by
  have hack : (s.acknowledgeRemoteBatch itemCount io).1.files = (acknowledgeFiles s.files itemCount io).1 ∧
      (s.acknowledgeRemoteBatch itemCount io).2 = (acknowledgeFiles s.files itemCount io).2 := by
    simp [acknowledgeRemoteBatch, hm, Nat.one_le_iff_ne_zero.1 hk]
  obtain ⟨hq, hret⟩ := recover_queue s itemCount io
  exact ⟨by rw [hq, hack.1], hret.trans hack.2⟩

/-- What an acknowledgement that reaches the remove and the rename returns. -/
theorem result_of_reaches {files : Files} {itemCount : Nat} {io : AckIo} {content : Bytes}
    (hf : files .remoteNdjson = some content) (h : ReachesReplace files itemCount io) :
    (Returns io → (acknowledgeFiles files itemCount io).2 = some io.rename) ∧
      (¬ Returns io → (acknowledgeFiles files itemCount io).2 = none) := by
  rw [(acknowledgeFiles_reaches hf h).2, Returns, ← not_or, not_not]
  exact ⟨fun hn => if_neg hn, fun hy => if_pos hy⟩

theorem rename_of_fate {io : AckIo} (hr : Returns io) :
    replaceFate io = .replaced ↔ io.rename = true := by
  cases hn : io.rename <;> cases hm : io.remove <;> simp [replaceFate, hr.1, hn, hm]

/-! Of what is left, and of what is returned unless the power is lost before that. -/

theorem atomic_untouched {old : List Bytes} {itemCount : Nat} {result : StorageManager × Option Bool}
    (hafter : queueItems result.1.files = old) (hresult : result.2 ≠ some true) : Atomic old itemCount result :=
  ⟨.inl hafter, fun htrue => absurd htrue hresult, fun _ => hafter⟩

theorem atomic_gone {old : List Bytes} {itemCount : Nat} {result : StorageManager × Option Bool} {returns : Prop}
    (hafter : queueItems result.1.files = []) (hyes : returns → result.2 = some false) (hno : ¬ returns → result.2 = none) :
    Atomic old itemCount result ↔ old.length ≤ itemCount ∧ (returns → old = []) := by
  rw [Atomic, hafter]
  by_cases hr : returns
  · rw [hyes hr]
    constructor
    · rintro ⟨-, -, hfalse⟩
      have hempty : [] = old := hfalse rfl
      rw [← hempty]
      exact ⟨Nat.zero_le _, fun _ => rfl⟩
    · rintro ⟨-, hempty⟩
      rw [hempty hr]
      exact ⟨.inl rfl, nofun, fun _ => rfl⟩
  · rw [hno hr]
    constructor
    · rintro ⟨hempty | hrest, -⟩
      · rw [← hempty]
        exact ⟨Nat.zero_le _, fun _ => rfl⟩
      · exact ⟨List.drop_eq_nil_iff.1 hrest.symm, fun h => absurd h hr⟩
    · rintro ⟨hle, -⟩
      exact ⟨.inr (List.drop_eq_nil_iff.2 hle).symm, nofun, nofun⟩

theorem atomic_replaced {old copied : List Bytes} {itemCount : Nat} {result : StorageManager × Option Bool}
    {returns : Prop} (hafter : queueItems result.1.files = copied) (hyes : returns → result.2 = some true)
    (hno : ¬ returns → result.2 = none) :
    Atomic old itemCount result ↔ copied = old.drop itemCount ∨ ¬ returns ∧ copied = old := by
  rw [Atomic, hafter]
  by_cases hr : returns
  · rw [hyes hr]
    constructor
    · rintro ⟨-, htrue, -⟩
      exact .inl (htrue rfl)
    · rintro (hrest | ⟨hlost, -⟩)
      · exact ⟨.inr hrest, fun _ => hrest, nofun⟩
      · exact absurd hr hlost
  · rw [hno hr]
    constructor
    · rintro ⟨hall | hrest, -⟩
      · exact .inr ⟨hr, hall⟩
      · exact .inl hrest
    · rintro (hrest | ⟨-, hall⟩)
      · exact ⟨.inr hrest, nofun, nofun⟩
      · exact ⟨.inl hall, nofun, nofun⟩

/-- What an acknowledgement that reaches the remove and the rename leaves. -/
theorem atomic_of_reaches {s : StorageManager} {itemCount : Nat} {io : AckIo} {content : Bytes}
    (hm : s.mounted = true) (hk : 1 ≤ itemCount) (hf : s.files .remoteNdjson = some content)
    (hreach : ReachesReplace s.files itemCount io) :
    Atomic (queueItems s.files) itemCount (acknowledgeAndRecover s itemCount io) ↔
      match replaceFate io with
      | .untouched => True
      | .gone => (contentItems content).length ≤ itemCount ∧ (Returns io → contentItems content = [])
      | .replaced =>
        contentItems (copyText io.println 0 (keptLines content itemCount)) = (contentItems content).drop itemCount ∨
          ¬ Returns io ∧
            contentItems (copyText io.println 0 (keptLines content itemCount)) = contentItems content := by
  obtain ⟨hq, hret⟩ := recover_ack io hm hk
  obtain ⟨h1, -⟩ := acknowledgeFiles_reaches hf hreach
  obtain ⟨hyes, hno⟩ := result_of_reaches hf hreach
  rw [← hret] at hyes hno
  rw [queueItems_of hf, Option.getD_some]
  -- Where the call returns, it returns what the rename did.
  have hrename : ∀ {renamed : Bool}, (replaceFate io = .replaced ↔ renamed = true) → Returns io →
      (acknowledgeAndRecover s itemCount io).2 = some renamed := fun h hr => by
    rw [hyes hr, Bool.eq_iff_iff.2 ((rename_of_fate hr).symm.trans h)]
  cases hfate : replaceFate io with
  | untouched =>
    rw [hfate] at h1 hrename
    refine iff_of_true (atomic_untouched (hq.trans (queueItems_of h1)) ?_) trivial
    by_cases hr : Returns io
    · simp [@hrename false (by simp) hr]
    · simp [hno hr]
  | gone =>
    rw [hfate] at h1 hrename
    exact atomic_gone (hq.trans (queueItems_of h1)) (hrename (by simp)) hno
  | replaced =>
    rw [hfate] at h1 hrename
    exact atomic_replaced (hq.trans (queueItems_of h1)) (hrename (by simp)) hno

/-- Before the remove the queue has not been touched, and nothing reports success. -/
theorem atomic_of_stopped {s : StorageManager} {itemCount : Nat} {io : AckIo} (hm : s.mounted = true)
    (hk : 1 ≤ itemCount) (h : ¬ ReachesReplace s.files itemCount io) :
    Atomic (queueItems s.files) itemCount (acknowledgeAndRecover s itemCount io) := by
  obtain ⟨hq, hret⟩ := recover_ack io hm hk
  obtain ⟨h1, h2⟩ := acknowledgeFiles_stopped h
  have hsame : queueItems (acknowledgeFiles s.files itemCount io).1 = queueItems s.files := by
    rw [queueItems, h1, queueItems]
  exact atomic_untouched (hq.trans hsame) (hret ▸ h2)

/-- Unmounted the call returns true and leaves the queue alone. -/
theorem atomic_of_unmounted {s : StorageManager} {itemCount : Nat} (io : AckIo) (hm : s.mounted = false)
    (hk : 1 ≤ itemCount) :
    Atomic (queueItems s.files) itemCount (acknowledgeAndRecover s itemCount io) ↔ queueItems s.files = [] := by
  have hack : acknowledgeAndRecover s itemCount io = (s, some true) := by
    simp [acknowledgeAndRecover, acknowledgeRemoteBatch, hm]
  rw [hack]
  constructor
  · rintro ⟨-, htrue, -⟩
    have hdrop : queueItems s.files = (queueItems s.files).drop itemCount := htrue rfl
    have hlen := congrArg List.length hdrop
    rw [List.length_drop] at hlen
    apply List.eq_nil_of_length_eq_zero
    omega
  · intro h
    simp [Atomic, h]

theorem AckSafe.atomic {s : StorageManager} {itemCount : Nat} {io : AckIo} (h : AckSafe s itemCount io)
    (hm : s.mounted = true) (hk : 1 ≤ itemCount) :
    Atomic (queueItems s.files) itemCount (acknowledgeAndRecover s itemCount io) := by
  by_cases hreach : ReachesReplace s.files itemCount io
  · obtain ⟨content, hf, -⟩ := id hreach
    have h := h.2 content hm hf hreach
    apply (atomic_of_reaches hm hk hf hreach).2
    cases hfate : replaceFate io with
    | untouched => trivial
    | gone => rwa [hfate] at h
    | replaced =>
      rw [hfate] at h
      rcases h with ⟨hcopy, hcounts | ⟨hlost, hnone⟩⟩
      · exact .inl (copyIsRest hcopy hcounts)
      · exact .inr ⟨hlost, (copyIsAll_iff content itemCount io).2 ⟨hcopy, hnone⟩⟩
  · exact atomic_of_stopped hm hk hreach

theorem safe_of_atomic {s : StorageManager} {itemCount : Nat} {io : AckIo} (hm : s.mounted = true)
    (hk : 1 ≤ itemCount) (hone : OneDefect s.files itemCount io)
    (hatomic : Atomic (queueItems s.files) itemCount (acknowledgeAndRecover s itemCount io)) :
    AckSafe s itemCount io := by
  refine ⟨by simp [hm], ?_⟩
  intro content _ hf hreach
  have h := (atomic_of_reaches hm hk hf hreach).1 hatomic
  cases hfate : replaceFate io with
  | untouched => trivial
  | gone => rwa [hfate] at h
  | replaced =>
    rw [hfate] at h
    rcases h with hrest | ⟨hlost, hall⟩
    · obtain ⟨hcopy, hcounts⟩ := safe_of_copyIsRest (hone content hf) hrest
      exact ⟨hcopy, .inl hcounts⟩
    · obtain ⟨hcopy, hnone⟩ := (copyIsAll_iff content itemCount io).1 hall
      exact ⟨hcopy, .inr ⟨hlost, hnone⟩⟩

/-- For every queue, every count and every outcome of the calls and of the
power, `AckSafe` keeps the contract; and unless both defects strike at once,
nothing else does. -/
theorem acknowledge_atomic_iff (s : StorageManager) (itemCount : Nat) (io : AckIo) (hk : 1 ≤ itemCount) :
    (AckSafe s itemCount io →
        Atomic (queueItems s.files) itemCount (acknowledgeAndRecover s itemCount io)) ∧
      (OneDefect s.files itemCount io →
        Atomic (queueItems s.files) itemCount (acknowledgeAndRecover s itemCount io) →
          AckSafe s itemCount io) := by
  cases hm : s.mounted with
  | true => exact ⟨fun hsafe => hsafe.atomic hm hk, fun hone hatomic => safe_of_atomic hm hk hone hatomic⟩
  | false =>
    rw [atomic_of_unmounted io hm hk]
    constructor
    · rintro ⟨hempty, -⟩
      exact hempty hm
    · intro _ hempty
      refine ⟨fun _ => hempty, ?_⟩
      intro content hmounted
      rw [hm] at hmounted
      cases hmounted

/-- Power lost while the second item is copied: nothing is lost. -/
theorem acknowledge_atomic_lost_in_copy :
    Atomic [ascii "A", ascii "B"] 1
      (acknowledgeAndRecover (queueOf (ascii "A\r\nB\r\n")) 1 { powerLost := some (.println 0) }) := by
  refine (acknowledge_atomic_iff (queueOf (ascii "A\r\nB\r\n")) 1 { powerLost := some (.println 0) }
    (Nat.le_refl 1)).1 ⟨nofun, ?_⟩
  rintro content - hf ⟨_, hf', -, -, -, -, hlost⟩
  cases hf
  cases hf'
  exact absurd ⟨0, by decide, rfl⟩ hlost

/-- Power lost between the remove and the rename takes the whole queue; a full
flash takes the items behind the acknowledged one while the call returns true. -/
theorem acknowledge_loses_items :
    ¬ Atomic [ascii "A", ascii "B"] 1
        (acknowledgeAndRecover (queueOf (ascii "A\r\nB\r\n")) 1 { powerLost := some .remove }) ∧
      ¬ Atomic [ascii "A", ascii "B"] 1
        (acknowledgeAndRecover (queueOf (ascii "A\r\nB\r\n")) 1 { println := fun _ => some 0 }) := by
  decide

end LiTimeGateway
