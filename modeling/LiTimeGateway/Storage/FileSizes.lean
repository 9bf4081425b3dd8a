import LiTimeGateway.Storage.FlashSpace
import LiTimeGateway.Storage.RemoteQueue
/-!
# The sizes of the files

A file is compared with its cap before a line is appended to it, so it can end
up past the cap by one line. An acknowledgement writes every line it keeps one
byte longer, and stays within the same bound: the first line it drops is longer
than the number of lines it can keep.
-/

namespace LiTimeGateway.FileSizes

open Lib.Runs StorageManager RemoteQueue FlashSpace

/-- The longest line, with its `\r\n`. -/
def longestPrinted : Nat := 402

/-- A file and the generation before it. -/
def Below (files : Files) (path : Path) (maximumBytes : Nat) : Prop :=
  files.size path < maximumBytes + longestPrinted ∧ files.size (.previous path) < maximumBytes + longestPrinted

structure Bounded (files : Files) : Prop where
  telemetry : Below files .telemetryCsv kTelemetryMaximumBytes
  events : Below files .eventsNdjson kEventsMaximumBytes
  remote : Below files .remoteNdjson kRemoteQueueMaximumBytes
  tmp : files.size .remoteTmp < kRemoteQueueMaximumBytes + longestPrinted

/-! ## Operations -/

inductive Op where
  | begin (mount : Bool)
  | recordTelemetry (data : BatteryData) (clock : SampleClock)
  | recordEvent (event : Bytes) (data : Option BatteryData) (uptime : UInt32)
  | nextRemoteBatch (maxItems : Nat)
  | acknowledgeRemoteBatch

/-- What is assumed of the lines an operation appends. -/
def Sized : Op → Prop
  | .recordTelemetry data clock =>
    (telemetryCsv data clock.csv).length ≤ 400 ∧
      100 ≤ (telemetryJson data clock.json clock.now).length ∧ (telemetryJson data clock.json clock.now).length ≤ 400
  | .recordEvent event data uptime => (eventLine event data uptime).length ≤ 400
  | .begin _ | .nextRemoteBatch _ | .acknowledgeRemoteBatch => True

/-- The storage, the `itemCount` of the last batch, and the files as the last
operation had them before it returned. -/
structure World where
  storage : StorageManager
  itemCount : Nat := 0
  passed : List Files := []

def World.step (w : World) : Op → World
  | .begin mount => { w with storage := (begin w.storage mount).1, passed := [] }
  | .recordTelemetry data clock =>
    { w with
      storage := w.storage.recordTelemetry data clock
      passed :=
        if w.storage.takesSample data clock then
          [appendLine w.storage.files .telemetryCsv (telemetryCsv data clock.csv) kTelemetryMaximumBytes]
        else [] }
  | .recordEvent event data uptime => { w with storage := w.storage.recordEvent event data uptime, passed := [] }
  | .nextRemoteBatch maxItems => { w with itemCount := (w.storage.nextRemoteBatch maxItems).2, passed := [] }
  | .acknowledgeRemoteBatch =>
    { w with
      storage := (w.storage.acknowledgeRemoteBatch w.itemCount .ok).1
      -- The copy is complete beside the queue; until then it is a part of this.
      passed :=
        if w.storage.mounted && w.itemCount ≠ 0 then
          [w.storage.files.write .remoteTmp (copyOf w.storage.files w.itemCount)]
        else [] }

def World.Bounded (w : World) : Prop :=
  FileSizes.Bounded w.storage.files ∧ ∀ files ∈ w.passed, FileSizes.Bounded files

/-- An acknowledgement writes the lines it keeps one byte longer than they were. -/
def World.Grows (w : World) : Prop :=
  w.storage.mounted = true → w.itemCount ≠ 0 → ∀ content, w.storage.files .remoteNdjson = some content →
    ∃ ls, QueueFile content ls ∧
      QueueFile (((w.step .acknowledgeRemoteBatch).storage.files .remoteNdjson).getD [])
        ((ls.drop w.itemCount).map (· ++ [ch '\r']))

/-! ## Lines -/

/-- A queue file of lines that were at least a hundred bytes before their carriage return. -/
def LongLines (content : Bytes) : Prop := ∃ ls, QueueFile content ls ∧ ∀ l ∈ ls, 101 ≤ l.length

theorem longLines_nil : LongLines [] := ⟨[], queueFile_nil, by simp⟩

theorem LongLines.append {content line : Bytes} (h : LongLines content) (hitem : ItemLine line)
    (hline : 100 ≤ line.length) : LongLines (content ++ println line) := by
  obtain ⟨ls, hls, hlong⟩ := h
  refine ⟨_, hls.append hitem, ?_⟩
  intro l hl
  rcases List.mem_append.1 hl with hl | hl
  · exact hlong l hl
  · rw [List.mem_singleton] at hl
    rw [hl, List.length_append, List.length_singleton]
    omega

theorem LongLines.acknowledge {content : Bytes} (h : LongLines content) (itemCount : Nat) :
    LongLines ((keptLines content itemCount).flatMap println) := by
  obtain ⟨ls, hls, hlong⟩ := h
  refine ⟨_, hls.acknowledge itemCount, ?_⟩
  intro l hl
  obtain ⟨m, hm, rfl⟩ := List.mem_map.1 hl
  have := hlong m (List.mem_of_mem_drop hm)
  rw [List.length_append]
  omega

/-- The bytes of the lines, with their newlines. -/
def bytesOf (ls : List Bytes) : Nat := (ls.map (·.length + 1)).sum

theorem bytesOf_drop_le (ls : List Bytes) (k : Nat) : bytesOf (ls.drop k) ≤ bytesOf ls := by
  have h : bytesOf (ls.take k) + bytesOf (ls.drop k) = bytesOf ls := by
    rw [bytesOf, bytesOf, ← List.sum_append, ← List.map_append, List.take_append_drop, bytesOf]
  omega

theorem length_le_bytesOf {ls : List Bytes} (h : ∀ l ∈ ls, 101 ≤ l.length) : 102 * ls.length ≤ bytesOf ls := by
  induction ls with
  | nil => exact Nat.le_refl _
  | cons l ls ih =>
    obtain ⟨hl, hls⟩ := List.forall_mem_cons.1 h
    have hrest := ih hls
    rw [bytesOf] at hrest ⊢
    rw [List.map_cons, List.sum_cons, List.length_cons]
    omega

theorem length_copy (ls : List Bytes) : (ls.flatMap println).length = bytesOf ls + ls.length := by
  induction ls with
  | nil => rfl
  | cons l ls ih =>
    rw [bytesOf] at ih ⊢
    rw [List.flatMap_cons, List.length_append, ih, println, List.length_append, List.map_cons, List.sum_cons,
      List.length_cons]
    have : (ascii "\r\n").length = 2 := rfl
    omega

theorem QueueFile.length_eq {content : Bytes} {ls : List Bytes} (h : QueueFile content ls) :
    content.length = bytesOf ls := by
  rw [h.content_eq, List.length_flatMap, bytesOf]
  simp

/-- What an acknowledgement drops outweighs what it adds to the lines it keeps:
there are fewer of those than the first dropped line has bytes. -/
theorem copy_le {content : Bytes} (h : LongLines content) {itemCount : Nat} (hk : itemCount ≠ 0)
    (hsize : content.length < kRemoteQueueMaximumBytes + longestPrinted) :
    ((keptLines content itemCount).flatMap println).length ≤ content.length := by
  obtain ⟨ls, hls, hlong⟩ := h
  obtain ⟨k, rfl⟩ := Nat.exists_eq_succ_of_ne_zero hk
  rw [length_copy, keptLines, hls.countedLines_eq, QueueFile.length_eq hls]
  rw [QueueFile.length_eq hls] at hsize
  cases ls with
  | nil => exact Nat.le_refl _
  | cons l rest =>
    have hfirst : bytesOf (l :: rest) = l.length + 1 + bytesOf rest := rfl
    obtain ⟨hl, hrest⟩ := List.forall_mem_cons.1 hlong
    have hcount := length_le_bytesOf hrest
    have hkept := bytesOf_drop_le rest k
    have hdrop : (rest.drop k).length ≤ rest.length := by
      rw [List.length_drop]
      omega
    rw [List.drop_succ_cons]
    unfold kRemoteQueueMaximumBytes longestPrinted at hsize
    omega

/-! ## What is kept -/

structure Kept (files : Files) : Prop where
  bounded : Bounded files
  queue : LongLines ((files .remoteNdjson).getD [])

theorem size_congr {files files' : Files} {path : Path} (h : files' path = files path) :
    files'.size path = files.size path := by
  rw [Files.size, Files.size, h]

theorem size_write (files : Files) (path : Path) (content : Bytes) :
    (files.write path content).size path = content.length := by
  rw [Files.size, Files.write_self, Option.getD_some]

theorem below_congr {files files' : Files} {path : Path} {maximumBytes : Nat} (h : Below files path maximumBytes)
    (hself : files' path = files path) (hprevious : files' (.previous path) = files (.previous path)) :
    Below files' path maximumBytes := by
  rw [Below, size_congr hself, size_congr hprevious]
  exact h

theorem below_write {files : Files} {path other : Path} {content : Bytes} {cap : Nat} (h : Below files other cap)
    (hother : other ≠ path) (hprevious : .previous other ≠ path) : Below (files.write path content) other cap :=
  below_congr h (Files.write_other _ _ hother) (Files.write_other _ _ hprevious)

/-- One line more than a file below its cap, or that line alone. -/
theorem below_append {files : Files} {path : Path} {line : Bytes} {maximumBytes : Nat}
    (h : Below files path maximumBytes) (hcap : 0 < maximumBytes) (hline : line.length ≤ 400) :
    Below (appendLine files path line maximumBytes) path maximumBytes := by
  have hprinted : (println line).length ≤ longestPrinted := by
    rw [length_println]
    exact Nat.add_le_add_right hline 2
  obtain ⟨hself, hprevious⟩ := h
  rw [Below, Files.size, Files.size, appendLine_self, appendLine_previous, Option.getD_some, List.length_append]
  by_cases hbelow : files.size path < maximumBytes
  · have hopen : atCap files path maximumBytes = false := by simp [atCap, hbelow]
    rw [hopen, if_neg Bool.false_ne_true, if_neg Bool.false_ne_true]
    rw [Files.size] at hbelow
    exact ⟨by omega, hprevious⟩
  · have hcapped : atCap files path maximumBytes = true := by simp [atCap, hbelow]
    rw [hcapped, if_pos rfl, if_pos rfl]
    exact ⟨by rw [List.length_nil]; omega, hself⟩

/-- The other files of an append. -/
theorem below_append_other {files : Files} {path other : Path} {line : Bytes} {maximumBytes cap : Nat}
    (h : Below files other cap) (h1 : other ≠ path) (h2 : other ≠ .previous path) (h3 : path ≠ .previous other) :
    Below (appendLine files path line maximumBytes) other cap := by
  have h4 : Path.previous other ≠ .previous path := fun he => h1 (Path.previous.inj he)
  exact below_congr h (appendLine_other h1 h2) (appendLine_other h3.symm h4)

/-- The files that lines are appended to, with their caps. -/
def cappedPaths : List (Path × Nat) :=
  [(.telemetryCsv, kTelemetryMaximumBytes), (.eventsNdjson, kEventsMaximumBytes),
    (.remoteNdjson, kRemoteQueueMaximumBytes)]

theorem telemetry_capped : (.telemetryCsv, kTelemetryMaximumBytes) ∈ cappedPaths := by simp [cappedPaths]

theorem events_capped : (.eventsNdjson, kEventsMaximumBytes) ∈ cappedPaths := by simp [cappedPaths]

theorem remote_capped : (.remoteNdjson, kRemoteQueueMaximumBytes) ∈ cappedPaths := by simp [cappedPaths]

/-- An append to one of them leaves the others and the copy. -/
theorem cappedPaths_apart : ∀ p ∈ cappedPaths, ∀ q ∈ cappedPaths,
    (p.1 = q.1 → p.2 = q.2) ∧ 0 < p.2 ∧ p.1 ≠ .previous q.1 ∧ .remoteTmp ≠ p.1 ∧ Path.remoteTmp ≠ .previous p.1 := by
  decide

theorem bounded_append {files : Files} (h : Bounded files) {path : Path} {maximumBytes : Nat}
    (hpath : (path, maximumBytes) ∈ cappedPaths) {line : Bytes} (hline : line.length ≤ 400) :
    Bounded (appendLine files path line maximumBytes) := by
  have hbelow : ∀ other cap, (other, cap) ∈ cappedPaths → Below files other cap →
      Below (appendLine files path line maximumBytes) other cap := by
    intro other cap hother hb
    obtain ⟨hsame, hcap, hprevious, -⟩ := cappedPaths_apart _ hother _ hpath
    by_cases heq : other = path
    · obtain rfl : cap = maximumBytes := hsame heq
      rw [heq] at hb ⊢
      exact below_append hb hcap hline
    · exact below_append_other hb heq hprevious (cappedPaths_apart _ hpath _ hother).2.2.1
  obtain ⟨-, -, -, htmp, htmp'⟩ := cappedPaths_apart _ hpath _ hpath
  refine ⟨hbelow _ _ telemetry_capped h.telemetry, hbelow _ _ events_capped h.events,
    hbelow _ _ remote_capped h.remote, ?_⟩
  rw [size_congr (appendLine_other htmp htmp')]
  exact h.tmp

/-! ## One operation -/

theorem kept_header {files : Files} (h : Kept files) : Kept (files.write .telemetryCsv (println telemetryHeader)) where
  bounded :=
    { telemetry := by
        refine ⟨?_, ?_⟩
        · rw [size_write]
          decide
        · rw [size_congr (Files.write_other _ _ (by decide))]
          exact h.bounded.telemetry.2
      events := below_write h.bounded.events (by decide) (by decide)
      remote := below_write h.bounded.remote (by decide) (by decide)
      tmp := by
        rw [size_congr (Files.write_other _ _ (by decide))]
        exact h.bounded.tmp }
  queue := by
    rw [Files.write_other _ _ (by decide)]
    exact h.queue

theorem kept_begin {s : StorageManager} (h : Kept s.files) (mount : Bool) : Kept (begin s mount).1.files := by
  unfold begin
  split
  · exact h
  · split
    · exact h
    · exact kept_header h

theorem kept_recordEvent {s : StorageManager} (h : Kept s.files) {event : Bytes} {data : Option BatteryData}
    {uptime : UInt32} (hsized : Sized (.recordEvent event data uptime)) :
    Kept (s.recordEvent event data uptime).files := by
  unfold recordEvent
  split
  · exact h
  · refine ⟨bounded_append h.bounded events_capped hsized, ?_⟩
    dsimp only
    rw [appendLine_other (by decide) (by decide)]
    exact h.queue

theorem kept_recordTelemetry {s : StorageManager} (h : Kept s.files) {data : BatteryData} {clock : SampleClock}
    (hsized : Sized (.recordTelemetry data clock)) : Kept (s.recordTelemetry data clock).files := by
  obtain ⟨hcsv, hlong, hjson⟩ := hsized
  cases htakes : s.takesSample data clock with
  | false =>
    rw [recordTelemetry_throttled htakes]
    exact h
  | true =>
    have hqueue := recordTelemetry_queue htakes
    refine ⟨?_, ?_⟩
    · simp only [recordTelemetry, htakes, Bool.not_true, Bool.false_eq_true, if_false]
      have hsampled := bounded_append h.bounded telemetry_capped hcsv
      exact bounded_append hsampled remote_capped hjson
    · -- At its cap the queue starts again with this line alone.
      rw [hqueue, Option.getD_some]
      split
      · exact longLines_nil.append (itemLine_telemetryJson _ _ _) hlong
      · exact h.queue.append (itemLine_telemetryJson _ _ _) hlong

/-- The copy beside the queue is no longer than the queue. -/
theorem copyOf_le {files : Files} (h : Kept files) {itemCount : Nat} (hk : itemCount ≠ 0) :
    (copyOf files itemCount).length ≤ files.size .remoteNdjson := by
  have hqueue := h.queue
  have hsize := h.bounded.remote.1
  unfold copyOf Files.size at *
  cases hf : files .remoteNdjson with
  | none => exact Nat.zero_le _
  | some content =>
    rw [hf, Option.getD_some] at hqueue hsize
    exact copy_le hqueue hk hsize

theorem bounded_copied {files : Files} (h : Kept files) {itemCount : Nat} (hk : itemCount ≠ 0) :
    Bounded (files.write .remoteTmp (copyOf files itemCount)) where
  telemetry := below_write h.bounded.telemetry (by decide) (by decide)
  events := below_write h.bounded.events (by decide) (by decide)
  remote := below_write h.bounded.remote (by decide) (by decide)
  tmp := by
    rw [size_write]
    exact Nat.lt_of_le_of_lt (copyOf_le h hk) h.bounded.remote.1

theorem kept_acknowledge {s : StorageManager} (h : Kept s.files) (itemCount : Nat) :
    Kept (s.acknowledgeRemoteBatch itemCount .ok).1.files := by
  by_cases hidle : s.mounted = false ∨ itemCount = 0
  · have hsame : s.acknowledgeRemoteBatch itemCount .ok = (s, some true) := by
      rcases hidle with hm | hk
      · simp [acknowledgeRemoteBatch, hm]
      · rw [hk, acknowledge_none]
    rw [hsame]
    exact h
  · rw [not_or, Bool.not_eq_false] at hidle
    obtain ⟨hm, hk⟩ := hidle
    have hfiles : (s.acknowledgeRemoteBatch itemCount .ok).1.files = (acknowledgeFiles s.files itemCount .ok).1 := by
      simp [acknowledgeRemoteBatch, hm, hk]
    have hother : ∀ path, path ≠ .remoteNdjson → path ≠ .remoteTmp →
        (s.acknowledgeRemoteBatch itemCount .ok).1.files path = s.files path := by
      intro path h1 h2
      rw [hfiles]
      exact acknowledgeFiles_other s.files itemCount .ok h1 h2
    have htelemetry := below_congr h.bounded.telemetry (hother _ (by decide) (by decide)) (hother _ (by decide) (by decide))
    have hevents := below_congr h.bounded.events (hother _ (by decide) (by decide)) (hother _ (by decide) (by decide))
    have hprevious := size_congr (hother (.previous .remoteNdjson) (by decide) (by decide))
    cases hf : s.files .remoteNdjson with
    | none =>
      -- Nothing to read: `/remote.tmp` is left empty.
      have hopened : (acknowledgeFiles s.files itemCount .ok).1 = s.files.write .remoteTmp [] := by
        simp [acknowledgeFiles, AckIo.ok, hf]
      have hqueue : (s.acknowledgeRemoteBatch itemCount .ok).1.files .remoteNdjson = s.files .remoteNdjson := by
        rw [hfiles, hopened]
        exact Files.write_other _ _ (by decide)
      refine ⟨⟨htelemetry, hevents, ⟨?_, ?_⟩, ?_⟩, ?_⟩
      · rw [size_congr hqueue]
        exact h.bounded.remote.1
      · rw [hprevious]
        exact h.bounded.remote.2
      · rw [hfiles, hopened, size_write]
        decide
      · rw [hqueue]
        exact h.queue
    | some content =>
      have hqueue := (acknowledge_ok hm hk hf).1
      have hcopy := copyOf_le h hk
      rw [copyOf, hf] at hcopy
      dsimp only at hcopy
      refine ⟨⟨htelemetry, hevents, ⟨?_, ?_⟩, ?_⟩, ?_⟩
      · rw [Files.size, hqueue, Option.getD_some]
        exact Nat.lt_of_le_of_lt hcopy h.bounded.remote.1
      · rw [hprevious]
        exact h.bounded.remote.2
      · rw [hfiles, Files.size, acknowledge_ok_tmp hf]
        decide
      · have hlines := h.queue
        rw [hf, Option.getD_some] at hlines
        rw [hqueue, Option.getD_some]
        exact hlines.acknowledge itemCount

/-! ## Runs -/

structure World.Kept (w : World) : Prop where
  files : FileSizes.Kept w.storage.files
  passed : ∀ files ∈ w.passed, FileSizes.Bounded files

theorem kept_step {w : World} (h : w.Kept) {op : Op} (hop : Sized op) : (w.step op).Kept := by
  cases op with
  | begin mount => exact ⟨kept_begin h.files mount, List.forall_mem_nil _⟩
  | recordTelemetry data clock =>
    refine ⟨kept_recordTelemetry h.files hop, ?_⟩
    intro files hfiles
    simp only [World.step] at hfiles
    split at hfiles
    · rw [List.mem_singleton] at hfiles
      rw [hfiles]
      exact bounded_append h.files.bounded telemetry_capped hop.1
    · cases hfiles
  | recordEvent event data uptime => exact ⟨kept_recordEvent h.files hop, List.forall_mem_nil _⟩
  | nextRemoteBatch maxItems => exact ⟨h.files, List.forall_mem_nil _⟩
  | acknowledgeRemoteBatch =>
    refine ⟨kept_acknowledge h.files w.itemCount, ?_⟩
    intro files hfiles
    simp only [World.step] at hfiles
    split at hfiles
    · next hcopied =>
      rw [Bool.and_eq_true, decide_eq_true_iff] at hcopied
      rw [List.mem_singleton] at hfiles
      rw [hfiles]
      exact bounded_copied h.files hcopied.2
    · cases hfiles

theorem grows_of_kept {w : World} (h : w.Kept) : w.Grows := by
  intro hm hk content hf
  obtain ⟨ls, hls, -⟩ := h.files.queue
  rw [hf, Option.getD_some] at hls
  have hqueue : (w.step .acknowledgeRemoteBatch).storage.files .remoteNdjson = _ := (acknowledge_ok hm hk hf).1
  refine ⟨ls, hls, ?_⟩
  rw [hqueue, Option.getD_some]
  exact hls.acknowledge w.itemCount

theorem kept_absent {files : Files} (h : ∀ path, files path = none) : Kept files := by
  have hsize : ∀ path, files.size path = 0 := by
    intro path
    rw [Files.size, h]
    rfl
  refine ⟨⟨⟨?_, ?_⟩, ⟨?_, ?_⟩, ⟨?_, ?_⟩, ?_⟩, ?_⟩
  all_goals first
    | rw [hsize]; decide
    | rw [h]; exact longLines_nil

/-- From a storage without files, whatever is recorded and acknowledged and in
whatever order, every file stays within a line of its cap in every state, though
an acknowledgement lengthens every line it keeps. -/
theorem sizes_bounded (s : StorageManager) (habsent : ∀ path, s.files path = none) (ops : List Op)
    (hsized : ∀ op ∈ ops, Sized op) :
    Throughout World.step (fun w => w.Bounded ∧ w.Grows) { storage := s } ops := by
  have hstart : World.Kept { storage := s } := ⟨kept_absent habsent, List.forall_mem_nil _⟩
  have hstep : ∀ w op, World.Kept w → Sized op → World.Kept (w.step op) := fun _ _ hw hop => kept_step hw hop
  have hholds : ∀ w, World.Kept w → w.Bounded ∧ w.Grows :=
    fun _ hw => ⟨⟨hw.files.bounded, hw.passed⟩, grows_of_kept hw⟩
  exact throughout_of_along hstep hholds hstart ((along_iff_forall _ ops).2 hsized)

/-- A sample is queued and acknowledged. -/
theorem sizes_bounded_sample :
    Throughout World.step (fun w => w.Bounded ∧ w.Grows) { storage := {} }
      [.begin true, .recordTelemetry { valid := true } ⟨60000, 60000, 60000, 60000, 0⟩, .recordEvent (ascii "boot") none 7,
        .nextRemoteBatch 8, .acknowledgeRemoteBatch] := by
  refine sizes_bounded {} (fun _ => rfl) _ ?_
  simp only [List.forall_mem_cons, List.not_mem_nil, Sized, false_implies, implies_true, and_true, true_and]
  decide +kernel

end LiTimeGateway.FileSizes
