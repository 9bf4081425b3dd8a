import LiTimeGateway.Lib.Chunks
import LiTimeGateway.Lib.Join
import LiTimeGateway.Storage.StorageManager
/-!
# Reading and acknowledging the remote queue

`nextRemoteBatch` sees the *items* of `/remote.ndjson`: its trimmed lines that
are not blank. `acknowledgeRemoteBatch` counts lines that are not empty before
trimming, so the two agree only while no blank line stands among the lines
acknowledged, and it replaces the queue by a remove and a rename, so the queue
is safe only while nothing stops it between the two.
-/

namespace LiTimeGateway

open Lib.Lines Lib.Join

/-- The items of a queue file's content. -/
def contentItems (content : Bytes) : List Bytes := items isspace (ch '\n') content

/-- The items `nextRemoteBatch` finds, without its limit. -/
def queueItems (files : Files) : List Bytes := contentItems ((files .remoteNdjson).getD [])

/-- The lines `acknowledgeRemoteBatch` counts: those that are not empty. -/
def countedLines (content : Bytes) : List Bytes := (readLines content).filter (!·.isEmpty)

/-- The lines it keeps. -/
def keptLines (content : Bytes) (itemCount : Nat) : List Bytes := (countedLines content).drop itemCount

/-- Lines that are not empty, each with its newline, are counted as they are. -/
theorem countedLines_terminated {ls : List Bytes} (h : ∀ l ∈ ls, l ≠ [] ∧ ch '\n' ∉ l) :
    countedLines (ls.flatMap (· ++ [ch '\n'])) = ls := by
  have hread := lines_flatMap_terminated (ch '\n') (fun l hl => (h l hl).2) []
  rw [List.append_nil, lines_nil, List.append_nil] at hread
  rw [countedLines, readLines, hread, List.filter_eq_self]
  intro l hl
  simp [(h l hl).1]

namespace StorageManager

/-! ## The batch -/

/-- The loop behind the items in `written`. -/
theorem batchLoop_eq (maxItems : Nat) (ls written : List Bytes) (start : Bytes) :
    batchLoop maxItems ls written.length (start ++ (ascii ",").intercalate written) =
      (start ++ (ascii ",").intercalate (written ++ (itemsOf isspace ls).take (maxItems - written.length)),
        written.length + ((itemsOf isspace ls).take (maxItems - written.length)).length) := by
  induction ls generalizing written with
  | nil => simp [batchLoop]
  | cons l ls ih =>
    rw [batchLoop]
    split
    · next hlt =>
      by_cases hl : trim l = []
      · simp only [hl, List.isEmpty_nil, if_true]
        rw [ih, itemsOf_cons_blank isspace hl]
      · simp only [List.isEmpty_iff, hl, if_false]
        have hnext := ih (written ++ [trim l])
        rw [List.length_append, List.length_singleton] at hnext
        rw [append_separated (ascii ",") start List.length_pos_iff, hnext, itemsOf_cons_item isspace hl,
          show maxItems - written.length = maxItems - (written.length + 1) + 1 by omega, List.take_succ_cons,
          List.append_assoc, List.length_cons, Nat.add_assoc, Nat.add_comm 1]
        rfl
    · next hge => simp [show maxItems - written.length = 0 by omega]

theorem batchLoop_start (maxItems : Nat) (ls : List Bytes) (json : Bytes) :
    batchLoop maxItems ls 0 json =
      (json ++ (ascii ",").intercalate ((itemsOf isspace ls).take maxItems),
        ((itemsOf isspace ls).take maxItems).length) := by
  simpa using batchLoop_eq maxItems ls [] json

/-- `nextRemoteBatch` returns the JSON array of the first items, and their number. -/
theorem nextRemoteBatch_eq {s : StorageManager} (h : s.mounted = true) (maxItems : Nat) :
    s.nextRemoteBatch maxItems =
      (jsonArray ((queueItems s.files).take maxItems), min maxItems (queueItems s.files).length) := by
  unfold nextRemoteBatch queueItems contentItems items
  rw [h]
  cases hf : s.files .remoteNdjson with
  | none => simp [jsonArray, List.intercalate, ascii]
  | some content =>
    simp only [batchLoop_start, readLines, Option.getD_some, List.length_take]
    rfl

theorem nextRemoteBatch_unmounted {s : StorageManager} (h : s.mounted = false) (maxItems : Nat) :
    s.nextRemoteBatch maxItems = (ascii "[]", 0) := by
  simp [nextRemoteBatch, h]

/-! ## The copy -/

/-- The kept lines as the `println` calls from the `index`-th on write them. -/
def copyText (cut : Nat → Option Nat) : (index : Nat) → List Bytes → Bytes
  | _, [] => []
  | index, line :: rest => printed (cut index) line ++ copyText cut (index + 1) rest

/-- The power is lost after one of the `n` `println` calls from the `index`-th on. -/
def LostInCopy (io : AckIo) (index n : Nat) : Prop :=
  ∃ j < n, io.powerLost = some (.println (index + j))

theorem lostInCopy_zero (io : AckIo) (index : Nat) : ¬ LostInCopy io index 0 := by
  rintro ⟨j, hj, -⟩
  exact Nat.not_lt_zero j hj

theorem lostInCopy_succ (io : AckIo) (index n : Nat) :
    LostInCopy io index (n + 1) ↔ io.powerLost = some (.println index) ∨ LostInCopy io (index + 1) n := by
  constructor
  · rintro ⟨j, hj, h⟩
    cases j with
    | zero => exact .inl h
    | succ j => exact .inr ⟨j, by omega, by rw [h, Nat.add_right_comm, Nat.add_assoc]⟩
  · rintro (h | ⟨j, hj, h⟩)
    · exact ⟨0, by omega, h⟩
    · exact ⟨j + 1, by omega, by rw [h, Nat.add_right_comm, Nat.add_assoc]⟩

/-- The copy loop skips `itemCount - consumed` counted lines and prints the rest. -/
theorem copyLoop_spec (io : AckIo) (itemCount : Nat) (ls : List Bytes) (consumed index : Nat) (output : Bytes) :
    let kept := (ls.filter (!·.isEmpty)).drop (itemCount - consumed)
    ((copyLoop io itemCount ls consumed index output).2 = true ↔ LostInCopy io index kept.length) ∧
      (¬ LostInCopy io index kept.length →
        (copyLoop io itemCount ls consumed index output).1 = output ++ copyText io.println index kept) := by
  induction ls generalizing consumed index output with
  | nil => simp [copyLoop, copyText, lostInCopy_zero]
  | cons l ls ih =>
    intro kept
    cases l with
    | nil =>
      -- An empty line is neither counted nor printed.
      simpa [copyLoop, kept] using ih consumed index output
    | cons b bs =>
      by_cases hc : consumed < itemCount
      · have hk : itemCount - consumed = itemCount - (consumed + 1) + 1 := by omega
        have hkept : kept = (ls.filter (!·.isEmpty)).drop (itemCount - (consumed + 1)) := by
          simp [kept, hk]
        rw [hkept]
        simpa [copyLoop, hc] using ih (consumed + 1) index output
      · -- The line is printed, and then the rest of the loop runs unless the power is lost.
        have hkept : kept = (b :: bs) :: (ls.filter (!·.isEmpty)).drop (itemCount - consumed) := by
          simp [kept, show itemCount - consumed = 0 by omega]
        have hih := ih consumed (index + 1) (output ++ printed (io.println index) (b :: bs))
        rw [hkept, List.length_cons, lostInCopy_succ]
        by_cases hp : io.powerLost = some (.println index)
        · simp [copyLoop, hc, hp]
        · simp only [copyLoop, hc, hp, List.isEmpty_cons, Bool.not_false, decide_false, Bool.and_false,
            Bool.false_eq_true, if_false, if_true, false_or, copyText]
          refine ⟨hih.1, fun hl => ?_⟩
          rw [hih.2 hl, List.append_assoc]

/-! ## What is left in the queue's place -/

/-- What stands at `/remote.ndjson` after an acknowledgement: the old file,
nothing, or the copy. -/
inductive QueueFate where
  | untouched
  | gone
  | replaced
  deriving DecidableEq, Repr

/-- Every call up to the last `println` is made and the power stays on. -/
def ReachesReplace (files : Files) (itemCount : Nat) (io : AckIo) : Prop :=
  ∃ content, files .remoteNdjson = some content ∧ io.openInput = true ∧ io.openOutput = true ∧
    io.powerLost ≠ some .openInput ∧ io.powerLost ≠ some .openOutput ∧
    ¬ LostInCopy io 0 (keptLines content itemCount).length

/-- What the remove and the rename do to the queue. -/
def replaceFate (io : AckIo) : QueueFate :=
  if io.powerLost ≠ some .remove ∧ io.rename = true then .replaced
  else if io.remove = true then .gone else .untouched

theorem replaceQueue_spec (files : Files) (io : AckIo) (copy : Bytes) (hcopy : files .remoteTmp = some copy) :
    (replaceQueue files io).1 .remoteNdjson =
      (match replaceFate io with
        | .untouched => files .remoteNdjson
        | .gone => none
        | .replaced => some copy) ∧
    (replaceQueue files io).2 =
      if io.powerLost = some .remove ∨ io.powerLost = some .rename then none else some io.rename := by
  by_cases h1 : io.powerLost = some .remove
  · cases hr : io.remove <;> simp [replaceQueue, replaceFate, h1, hr, Files.remove]
  · by_cases h2 : io.powerLost = some .rename
    all_goals
      cases hr : io.remove <;> cases hn : io.rename <;>
        simp [replaceQueue, replaceFate, h1, h2, hr, hn, Files.remove, Files.rename, Files.write, hcopy]

theorem acknowledgeFiles_stopped {files : Files} {itemCount : Nat} {io : AckIo}
    (h : ¬ ReachesReplace files itemCount io) :
    (acknowledgeFiles files itemCount io).1 .remoteNdjson = files .remoteNdjson ∧
      (acknowledgeFiles files itemCount io).2 ≠ some true := by
  unfold acknowledgeFiles
  by_cases h1 : io.powerLost = some .openInput
  · simp [h1]
  by_cases h2 : io.powerLost = some .openOutput
  · cases io.openOutput <;> simp [h2, Files.write]
  cases h3 : io.openInput with
  | false => cases io.openOutput <;> simp [h1, h2, Files.write]
  | true =>
    cases h4 : io.openOutput with
    | false => simp [h1, h2]
    | true =>
      cases hf : files .remoteNdjson with
      | none => simp [h1, h2, Files.write, hf]
      | some content =>
        -- Both files are open, so only a power loss in the copy can have stopped it.
        have hlost : LostInCopy io 0 (keptLines content itemCount).length := by
          by_contra hn
          exact h ⟨content, hf, h3, h4, h1, h2, hn⟩
        have hl := (copyLoop_spec io itemCount (readLines content) 0 0 []).1.2 hlost
        simp [h1, h2, hl, Files.write, hf]

theorem acknowledgeFiles_reaches {files : Files} {itemCount : Nat} {io : AckIo} {content : Bytes}
    (hf : files .remoteNdjson = some content) (h : ReachesReplace files itemCount io) :
    (acknowledgeFiles files itemCount io).1 .remoteNdjson =
      (match replaceFate io with
        | .untouched => some content
        | .gone => none
        | .replaced => some (copyText io.println 0 (keptLines content itemCount))) ∧
    (acknowledgeFiles files itemCount io).2 =
      if io.powerLost = some .remove ∨ io.powerLost = some .rename then none else some io.rename := by
  obtain ⟨content', hf', h3, h4, h1, h2, hlost⟩ := h
  obtain rfl : content' = content := Option.some.inj (hf'.symm.trans hf)
  have hspec := copyLoop_spec io itemCount (readLines content') 0 0 []
  have hfst := hspec.2 hlost
  have hsnd : (copyLoop io itemCount (readLines content') 0 0 []).2 = false :=
    Bool.eq_false_iff.2 fun ht => hlost (hspec.1.1 ht)
  rw [List.nil_append] at hfst
  have hack : acknowledgeFiles files itemCount io =
      replaceQueue ((files.write .remoteTmp []).write .remoteTmp
        (copyText io.println 0 (keptLines content' itemCount))) io := by
    unfold acknowledgeFiles
    simp only [h1, h2, h3, h4, hf, if_false, if_true, hsnd, hfst]
    rfl
  rw [hack]
  have hr := replaceQueue_spec ((files.write .remoteTmp []).write .remoteTmp
    (copyText io.println 0 (keptLines content' itemCount))) io _ (Function.update_self ..)
  refine ⟨hr.1.trans ?_, hr.2⟩
  cases replaceFate io <;> simp [Files.write, hf]

/-! ## Items of the copy -/

theorem copyText_complete {cut : Nat → Option Nat} (ls : List Bytes) (index : Nat)
    (h : ∀ j < ls.length, cut (index + j) = none) : copyText cut index ls = ls.flatMap println := by
  induction ls generalizing index with
  | nil => rfl
  | cons l ls ih =>
    have h0 : cut index = none := h 0 (Nat.succ_pos _)
    have hrest : ∀ j < ls.length, cut (index + 1 + j) = none := by
      intro j hj
      rw [Nat.add_right_comm, Nat.add_assoc]
      exact h (j + 1) (Nat.succ_lt_succ hj)
    rw [copyText, h0, List.flatMap_cons, ih (index + 1) hrest]
    rfl

/-- Written back with `println`, lines carry the items they carried. -/
theorem contentItems_flatMap_println {ls : List Bytes} (h : ∀ l ∈ ls, ch '\n' ∉ l) :
    contentItems (ls.flatMap println) = itemsOf isspace ls := by
  unfold contentItems items
  rw [← readLines, readLines_flatMap_println h]
  exact itemsOf_map_congr isspace fun l _ => strip_concat isspace (by decide)

theorem newline_not_mem_keptLines {content l : Bytes} {itemCount : Nat} (h : l ∈ keptLines content itemCount) :
    ch '\n' ∉ l :=
  sep_not_mem_of_mem_lines (ch '\n') (List.mem_filter.1 (List.mem_of_mem_drop h)).1

theorem contentItems_eq (content : Bytes) : contentItems content = itemsOf isspace (countedLines content) :=
  (itemsOf_filter_nonempty isspace _).symm

/-! ## Copies cut short -/

/-- What a `println` of `line` does not get out. -/
def unwritten (cut : Option Nat) (line : Bytes) : Bytes :=
  match cut with
  | none => []
  | some n => (println line).drop n

/-- What it does get out, apart from the newline. -/
def chunk (cut : Option Nat) (line : Bytes) : Chunk UInt8 :=
  match cut with
  | none => ⟨line ++ [ch '\r'], true⟩
  | some n => ⟨(line ++ [ch '\r']).take n, line.length + 2 ≤ n⟩

def chunks (cut : Nat → Option Nat) : (index : Nat) → List Bytes → List (Chunk UInt8)
  | _, [] => []
  | index, line :: rest => chunk (cut index) line :: chunks cut (index + 1) rest

/-- Only white space is left unwritten. -/
def WritesSolids (cut : Nat → Option Nat) : (index : Nat) → List Bytes → Prop
  | _, [] => True
  | index, line :: rest => (∀ b ∈ unwritten (cut index) line, isspace b = true) ∧ WritesSolids cut (index + 1) rest

/-- Whatever the `println` calls cut off these lines, it costs no item: it is
white space, and where a newline is missing no two items run together. -/
def SafeCopy (cut : Nat → Option Nat) (ls : List Bytes) : Prop :=
  WritesSolids cut 0 ls ∧ Separated isspace false (chunks cut 0 ls)

theorem chunk_text (cut : Option Nat) (line : Bytes) : (chunk cut line).text (ch '\n') = printed cut line := by
  cases cut with
  | none => simp [chunk, Chunk.text, printed, println_eq]
  | some n =>
    rw [printed, println_eq, List.take_append, List.length_append, List.length_singleton]
    by_cases h : line.length + 2 ≤ n
    · simp [chunk, Chunk.text, h, List.take_of_length_le (show [ch '\n'].length ≤ n - (line.length + 1) by
        rw [List.length_singleton]; omega)]
    · simp [chunk, Chunk.text, h, show n - (line.length + 1) = 0 by omega]

theorem printed_append_unwritten (cut : Option Nat) (line : Bytes) :
    printed cut line ++ unwritten cut line = println line := by
  cases cut with
  | none => exact List.append_nil _
  | some n => exact List.take_append_drop n _

theorem text_chunks (cut : Nat → Option Nat) (index : Nat) (ls : List Bytes) :
    text (ch '\n') (chunks cut index ls) = copyText cut index ls := by
  induction ls generalizing index with
  | nil => rfl
  | cons line ls ih =>
    have := ih (index + 1)
    rw [text] at this
    rw [text, chunks, List.flatMap_cons, this, chunk_text, copyText]

theorem newline_not_mem_chunk {line : Bytes} (h : ch '\n' ∉ line) (cut : Option Nat) :
    ch '\n' ∉ (chunk cut line).written := by
  have hcr : ch '\n' ∉ line ++ [ch '\r'] := by
    rw [List.mem_append, not_or]
    exact ⟨h, by decide⟩
  cases cut with
  | none => exact hcr
  | some n => exact fun hm => hcr (List.mem_of_mem_take hm)

theorem newline_not_mem_chunks {cut : Nat → Option Nat} {index : Nat} {ls : List Bytes}
    (h : ∀ l ∈ ls, ch '\n' ∉ l) : ∀ c ∈ chunks cut index ls, ch '\n' ∉ c.written := by
  induction ls generalizing index with
  | nil => nofun
  | cons line ls ih =>
    obtain ⟨hl, hls⟩ := List.forall_mem_cons.1 h
    exact List.forall_mem_cons.2 ⟨newline_not_mem_chunk hl _, ih hls⟩

theorem trim_chunk {cut : Option Nat} {line : Bytes} (h : ∀ b ∈ unwritten cut line, isspace b = true) :
    trim (chunk cut line).written = trim line := by
  have hend : ∀ b ∈ (if (chunk cut line).terminated then [ch '\n'] else []), isspace b = true := by
    split
    · decide
    · nofun
  calc trim (chunk cut line).written
      = trim ((chunk cut line).text (ch '\n')) := (strip_append_blanks isspace hend).symm
    _ = trim (printed cut line) := by rw [chunk_text]
    _ = trim (println line) := by rw [← printed_append_unwritten cut line]; exact (strip_append_blanks isspace h).symm
    _ = trim line := strip_append_blanks isspace (by decide)

theorem itemsOf_chunks {cut : Nat → Option Nat} {index : Nat} {ls : List Bytes} (h : WritesSolids cut index ls) :
    itemsOf isspace ((chunks cut index ls).map Chunk.written) = itemsOf isspace ls := by
  induction ls generalizing index with
  | nil => rfl
  | cons line ls ih =>
    have htrim := trim_chunk h.1
    unfold trim at htrim
    have hrest := ih h.2
    rw [itemsOf, itemsOf] at hrest
    rw [chunks, itemsOf, itemsOf, List.map_cons, List.map_cons, List.map_cons, htrim, List.filter_cons,
      List.filter_cons, hrest]

/-- No solid byte appears from nowhere; all of them are there when none is cut off. -/
theorem solid_copyText (cut : Nat → Option Nat) (index : Nat) (ls : List Bytes) :
    solid isspace (copyText cut index ls) ≤ (ls.map (solid isspace)).sum ∧
      (solid isspace (copyText cut index ls) = (ls.map (solid isspace)).sum → WritesSolids cut index ls) := by
  induction ls generalizing index with
  | nil => exact ⟨Nat.le_refl _, fun _ => trivial⟩
  | cons line ls ih =>
    obtain ⟨hle, hall⟩ := ih (index + 1)
    have hline : solid isspace (printed (cut index) line) + solid isspace (unwritten (cut index) line) =
        solid isspace line := by
      rw [← solid_append, printed_append_unwritten, println, solid_append]
      exact Nat.add_zero _
    rw [copyText, solid_append, List.map_cons, List.sum_cons]
    constructor
    · omega
    · intro h
      have hzero : solid isspace (unwritten (cut index) line) = 0 := by omega
      exact ⟨(solid_eq_zero_iff isspace).1 hzero, hall (by omega)⟩

/-- A copy carries the items of its lines exactly when its cuts are safe. -/
theorem contentItems_copyText_iff {cut : Nat → Option Nat} {ls : List Bytes} (h : ∀ l ∈ ls, ch '\n' ∉ l) :
    contentItems (copyText cut 0 ls) = itemsOf isspace ls ↔ SafeCopy cut ls := by
  have hnil : isSolid isspace ([] : Bytes) = false := rfl
  have hchunks : ∀ c ∈ chunks cut 0 ls, ch '\n' ∉ c.written := newline_not_mem_chunks h
  rw [contentItems, ← text_chunks]
  constructor
  · -- Items that are all there hold all the solid bytes, so no cut took one; and
    -- then their number says that no two of them have run together.
    intro heq
    have hsolid := congrArg (fun is => (is.map (solid isspace)).sum) heq
    simp only [solid_items isspace (show isspace (ch '\n') = true from rfl), solid_itemsOf, text_chunks] at hsolid
    have hall := (solid_copyText cut 0 ls).2 hsolid
    refine ⟨hall, hnil ▸ (separated_of_length isspace (l := []) (by simp) hchunks).2 ?_⟩
    rw [List.nil_append, itemsOf_cons_blank isspace (strip_nil _), itemsOf_chunks hall, heq]
  · rintro ⟨hall, hsep⟩
    have := items_text isspace (l := []) (by simp) hchunks (hnil.symm ▸ hsep)
    rwa [List.nil_append, itemsOf_cons_blank isspace (strip_nil _), itemsOf_chunks hall] at this

end StorageManager

end LiTimeGateway
