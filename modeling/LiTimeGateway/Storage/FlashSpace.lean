import LiTimeGateway.Lib.Runs
import LiTimeGateway.Storage.AckTheorems
import Mathlib.Logic.Function.Iterate
/-!
# Space on the flash partition

The partition has sixteen blocks. `LittleFS` says what is assumed of the file
system: how many blocks its metadata takes, and how many a file of a given size.
Every file is checked against its cap before a line is appended, lives on in a
second generation, and the queue is copied beside itself while it is
acknowledged; the caps say nothing about the sum. The `Ledger` knows how long
each record is and nothing else, and tells of every run whether it fits.
-/

namespace LiTimeGateway.FlashSpace

open Lib.Runs Lib.Lines StorageManager

structure LittleFS where
  metadata : Nat
  metadata_ge : 2 ≤ metadata
  /-- The blocks a file of this size takes for itself. -/
  blocks : Nat → Nat
  blocks_ge : ∀ size, 512 < size → (size + 4095) / 4096 ≤ blocks size

/-- 0x10000 bytes in blocks of 4096. -/
def partitionBlocks : Nat := 16

/-- `index.html`, `style.css` and `app.js`. -/
def uiBlocks : Nat := 4

/-- A line of any length up to 400 bytes. -/
abbrev Line : Type := { line : Bytes // line.length ≤ 400 }

/-- One that is read back as one. -/
abbrev QueueLine : Type := { line : Bytes // line.length ≤ 400 ∧ ch '\n' ∉ line }

/-! ## Operations -/

/-- What a `recordTelemetry` that takes its sample writes, whatever its serializers return. -/
def recordLines (files : Files) (csv json : Bytes) : Files :=
  appendLine (appendLine files .telemetryCsv csv kTelemetryMaximumBytes) .remoteNdjson json kRemoteQueueMaximumBytes

inductive Op where
  | begin (mount : Bool)
  | recordTelemetry (csv : Line) (json : QueueLine)
  | recordEvent (line : Line)
  | acknowledge (itemCount : Nat)

/-- The copy an acknowledgement writes to `/remote.tmp`; without a queue it is empty. -/
def copyOf (files : Files) (itemCount : Nat) : Bytes :=
  match files .remoteNdjson with
  | none => []
  | some content => (keptLines content itemCount).flatMap println

/-- What the files are after each append, and after the copy and the replacement
of an acknowledgement. -/
def stages (s : StorageManager) : Op → List Files
  | .begin mount => [(begin s mount).1.files]
  | .recordTelemetry csv json =>
    if s.mounted then
      [appendLine s.files .telemetryCsv csv kTelemetryMaximumBytes, recordLines s.files csv json]
    else []
  | .recordEvent line =>
    if s.mounted then [appendLine s.files .eventsNdjson line kEventsMaximumBytes] else []
  | .acknowledge itemCount =>
    if s.mounted && itemCount ≠ 0 then
      [s.files.write .remoteTmp (copyOf s.files itemCount), (acknowledgeFiles s.files itemCount .ok).1]
    else []

def next (s : StorageManager) : Op → StorageManager
  | .begin mount => (begin s mount).1
  | .recordTelemetry csv json => if s.mounted then { s with files := recordLines s.files csv json } else s
  | .recordEvent line =>
    if s.mounted then { s with files := appendLine s.files .eventsNdjson line kEventsMaximumBytes } else s
  | .acknowledge itemCount => (s.acknowledgeRemoteBatch itemCount .ok).1

/-- A sample that is taken, with the lines its serializers return. -/
theorem next_recordTelemetry {s : StorageManager} {data : BatteryData} {clock : SampleClock}
    (h : s.takesSample data clock = true) (hcsv : (telemetryCsv data clock.csv).length ≤ 400)
    (hjson : (telemetryJson data clock.json clock.now).length ≤ 400) :
    (s.recordTelemetry data clock).files =
      (next s (.recordTelemetry ⟨_, hcsv⟩ ⟨_, hjson, (plain_telemetryJson _ _ _).newline_not_mem⟩)).files := by
  have hm : s.mounted = true := by
    rw [takesSample, Bool.and_eq_true, Bool.and_eq_true] at h
    exact h.1.1
  simp only [recordTelemetry, h, Bool.not_true, Bool.false_eq_true, if_false, next, hm, if_true, recordLines]

theorem next_recordEvent (s : StorageManager) {event : Bytes} {data : Option BatteryData} {uptime : UInt32}
    (h : (eventLine event data uptime).length ≤ 400) :
    s.recordEvent event data uptime = next s (.recordEvent ⟨_, h⟩) := by
  unfold recordEvent next
  cases s.mounted <;> rfl

/-- The storage, with the stages the last operation went through. -/
structure World where
  storage : StorageManager
  passed : List Files := []

def World.step (w : World) (op : Op) : World := { storage := next w.storage op, passed := stages w.storage op }

/-! ## Blocks -/

variable (fs : LittleFS)

def fileBlocks (files : Files) (path : Path) : Nat :=
  match files path with
  | none => 0
  | some content => fs.blocks content.length

def used (files : Files) : Nat :=
  fs.metadata + uiBlocks +
    fileBlocks fs files .telemetryCsv + fileBlocks fs files (.previous .telemetryCsv) +
    fileBlocks fs files .eventsNdjson + fileBlocks fs files (.previous .eventsNdjson) +
    fileBlocks fs files .remoteNdjson + fileBlocks fs files (.previous .remoteNdjson) +
    fileBlocks fs files .remoteTmp

def Fits (files : Files) : Prop := used fs files ≤ partitionBlocks

/-- Nothing the operation passes through, nor what it leaves, takes more than the partition has. -/
def World.Fits (w : World) : Prop := FlashSpace.Fits fs w.storage.files ∧ ∀ files ∈ w.passed, FlashSpace.Fits fs files

/-! ## The ledger -/

/-- The records of a file and of the generation before it, each by its bytes with the `\r\n`. -/
structure Generations where
  now : Option (List Nat) := none
  before : Option (List Nat) := none

/-- A record of `n` bytes more; a file that has `maximumBytes` by then makes way for a new one. -/
def Generations.append (g : Generations) (maximumBytes n : Nat) : Generations :=
  if (g.now.getD []).sum < maximumBytes then { g with now := some (g.now.getD [] ++ [n]) }
  else { now := some [n], before := g.now }

structure Ledger where
  mounted : Bool := false
  rows : Generations := {}
  events : Generations := {}
  queue : Generations := {}
  copy : Option (List Nat) := none

namespace Ledger

/-- A row of `csv` bytes and a queued sample of `json`. -/
def sample (l : Ledger) (csv json : Nat) : List Ledger :=
  let rows := l.rows.append kTelemetryMaximumBytes csv
  [{ l with rows }, { l with rows, queue := l.queue.append kRemoteQueueMaximumBytes json }]

/-- The samples behind the first `itemCount`, each a byte longer. -/
def kept (l : Ledger) (itemCount : Nat) : List Nat := ((l.queue.now.getD []).drop itemCount).map (· + 1)

/-- The ledger after each write of an operation. -/
def moments (l : Ledger) : Op → List Ledger
  | .begin mount =>
    if mount && l.rows.now.isNone then
      [{ l with mounted := true, rows := { l.rows with now := some [(println telemetryHeader).length] } }]
    else [{ l with mounted := mount }]
  | .recordTelemetry csv json => if l.mounted then l.sample (csv.1.length + 2) (json.1.length + 2) else []
  | .recordEvent line =>
    if l.mounted then [{ l with events := l.events.append kEventsMaximumBytes (line.1.length + 2) }] else []
  | .acknowledge itemCount =>
    if l.mounted && itemCount ≠ 0 then
      [{ l with copy := some (l.kept itemCount) },
        if l.queue.now.isSome then { l with queue := { l.queue with now := some (l.kept itemCount) }, copy := none }
        else { l with copy := some [] }]
    else []

def step (l : Ledger) (op : Op) : Ledger := (l.moments op).getLastD l

def recordBlocks (records : Option (List Nat)) : Nat := records.elim 0 fun lengths => fs.blocks lengths.sum

def blocks (l : Ledger) : Nat :=
  fs.metadata + uiBlocks +
    recordBlocks fs l.rows.now + recordBlocks fs l.rows.before +
    recordBlocks fs l.events.now + recordBlocks fs l.events.before +
    recordBlocks fs l.queue.now + recordBlocks fs l.queue.before +
    recordBlocks fs l.copy

/-- At no moment of the operation do the records take more than the partition has. -/
def Fitting (l : Ledger) (op : Op) : Prop := ∀ m ∈ l.moments op, m.blocks fs ≤ partitionBlocks

end Ledger

/-! ## Files and their records -/

/-- The file has the bytes of these records. -/
def HasBytes (content : Option Bytes) (records : Option (List Nat)) : Prop :=
  content.map List.length = records.map List.sum

/-- The file has a line for each of these records, which counts as one. -/
def HasLines (content : Option Bytes) (records : Option (List Nat)) : Prop :=
  content = none ∧ records = none ∨
    ∃ ls : List Bytes, (∀ l ∈ ls, l ≠ [] ∧ ch '\n' ∉ l) ∧ content = some (ls.flatMap (· ++ [ch '\n'])) ∧
      records = some (ls.map (·.length + 1))

def InFiles (files : Files) (path : Path) (g : Generations) : Prop :=
  HasBytes (files path) g.now ∧ HasBytes (files (.previous path)) g.before

structure Tallies (files : Files) (l : Ledger) : Prop where
  rows : InFiles files .telemetryCsv l.rows
  events : InFiles files .eventsNdjson l.events
  queue : HasLines (files .remoteNdjson) l.queue.now
  queueBefore : HasBytes (files (.previous .remoteNdjson)) l.queue.before
  copy : HasBytes (files .remoteTmp) l.copy

theorem hasBytes_none : HasBytes none none := rfl

theorem hasBytes_some {content : Bytes} {records : List Nat} (h : content.length = records.sum) :
    HasBytes (some content) (some records) := congrArg some h

theorem length_terminated (ls : List Bytes) :
    (ls.flatMap (· ++ [ch '\n'])).length = (ls.map (·.length + 1)).sum := by
  rw [List.length_flatMap]
  simp

theorem HasLines.hasBytes {content : Option Bytes} {records : Option (List Nat)} (h : HasLines content records) :
    HasBytes content records := by
  rcases h with ⟨rfl, rfl⟩ | ⟨ls, -, rfl, rfl⟩
  · exact hasBytes_none
  · exact hasBytes_some (length_terminated ls)

theorem HasBytes.size {files : Files} {path : Path} {records : Option (List Nat)} (h : HasBytes (files path) records) :
    files.size path = (records.getD []).sum := by
  rw [Files.size]
  unfold HasBytes at h
  cases hf : files path with
  | none =>
    rw [hf, Option.map_none, eq_comm, Option.map_eq_none_iff] at h
    rw [h]
    rfl
  | some content =>
    rw [hf, Option.map_some, eq_comm, Option.map_eq_some_iff] at h
    obtain ⟨lengths, rfl, hsum⟩ := h
    exact hsum.symm

theorem HasBytes.blocks {files : Files} {path : Path} {records : Option (List Nat)} (h : HasBytes (files path) records) :
    fileBlocks fs files path = Ledger.recordBlocks fs records := by
  rw [fileBlocks, Ledger.recordBlocks]
  unfold HasBytes at h
  cases hf : files path with
  | none =>
    rw [hf, Option.map_none, eq_comm, Option.map_eq_none_iff] at h
    rw [h]
    rfl
  | some content =>
    rw [hf, Option.map_some, eq_comm, Option.map_eq_some_iff] at h
    obtain ⟨lengths, rfl, hsum⟩ := h
    exact congrArg fs.blocks hsum.symm

theorem Tallies.used {files : Files} {l : Ledger} (h : Tallies files l) : used fs files = l.blocks fs := by
  rw [FlashSpace.used, Ledger.blocks, h.rows.1.blocks, h.rows.2.blocks, h.events.1.blocks, h.events.2.blocks,
    h.queue.hasBytes.blocks, h.queueBefore.blocks, h.copy.blocks]

theorem Tallies.fits_iff {files : Files} {l : Ledger} (h : Tallies files l) :
    Fits fs files ↔ l.blocks fs ≤ partitionBlocks := by
  rw [Fits, h.used]

theorem InFiles.congr {files files' : Files} {path : Path} {g : Generations} (h : InFiles files path g)
    (hself : files' path = files path) (hprevious : files' (.previous path) = files (.previous path)) :
    InFiles files' path g := by
  rw [InFiles, hself, hprevious]
  exact h

/-! ## One write -/

theorem length_println (line : Bytes) : (println line).length = line.length + 2 := by
  rw [println, List.length_append]
  rfl

/-- A file at its cap becomes the generation before. -/
theorem appendLine_previous (files : Files) (path : Path) (line : Bytes) (maximumBytes : Nat) :
    appendLine files path line maximumBytes (.previous path) =
      if atCap files path maximumBytes then files path else files (.previous path) := by
  rw [appendLine, Files.write_other _ _ path.ne_previous.symm, rotate]
  split
  · rw [Files.rename, Files.remove_other _ path.ne_previous]
    cases h : files path with
    | none => exact Function.update_self ..
    | some content => exact Files.write_self _ _ _
  · rfl

/-- The file is at its cap exactly when its records are. -/
theorem HasBytes.atCap_iff {files : Files} {path : Path} {records : Option (List Nat)}
    (h : HasBytes (files path) records) (maximumBytes : Nat) :
    atCap files path maximumBytes = false ↔ (records.getD []).sum < maximumBytes := by
  rw [atCap, h.size]
  simp

theorem inFiles_append {files : Files} {path : Path} {g : Generations} (h : InFiles files path g) (line : Bytes)
    (maximumBytes : Nat) :
    InFiles (appendLine files path line maximumBytes) path (g.append maximumBytes (line.length + 2)) := by
  rw [InFiles, appendLine_self, appendLine_previous, Generations.append]
  by_cases hbelow : (g.now.getD []).sum < maximumBytes
  · have hsize := h.1.size
    rw [Files.size] at hsize
    rw [(h.1.atCap_iff maximumBytes).2 hbelow, if_pos hbelow]
    refine ⟨hasBytes_some ?_, h.2⟩
    rw [if_neg Bool.false_ne_true, List.length_append, hsize, length_println, List.sum_append, List.sum_singleton]
  · have hcap : atCap files path maximumBytes = true := by
      rw [← Bool.not_eq_false, h.1.atCap_iff maximumBytes]
      exact hbelow
    rw [hcap, if_neg hbelow]
    refine ⟨hasBytes_some ?_, h.1⟩
    rw [if_pos rfl, List.nil_append, length_println, List.sum_singleton]

theorem hasLines_append {files : Files} {path : Path} {g : Generations} (h : HasLines (files path) g.now) {line : Bytes}
    (hline : ch '\n' ∉ line) (maximumBytes : Nat) :
    HasLines (appendLine files path line maximumBytes path) (g.append maximumBytes (line.length + 2)).now := by
  have hnew : line ++ [ch '\r'] ≠ [] ∧ ch '\n' ∉ line ++ [ch '\r'] := by
    refine ⟨List.append_ne_nil_of_right_ne_nil _ (List.cons_ne_nil _ _), ?_⟩
    rw [List.mem_append, not_or]
    exact ⟨hline, by decide⟩
  rw [appendLine_self, Generations.append]
  by_cases hbelow : (g.now.getD []).sum < maximumBytes
  · rw [(h.hasBytes.atCap_iff maximumBytes).2 hbelow, if_neg Bool.false_ne_true, if_pos hbelow]
    rcases h with ⟨hf, hnow⟩ | ⟨ls, hls, hf, hnow⟩
    · refine .inr ⟨[line ++ [ch '\r']], List.forall_mem_singleton.2 hnew, ?_, ?_⟩
      · rw [hf, println_eq]
        simp
      · rw [hnow]
        simp
    · refine .inr ⟨ls ++ [line ++ [ch '\r']], ?_, ?_, ?_⟩
      · exact List.forall_mem_append.2 ⟨hls, List.forall_mem_singleton.2 hnew⟩
      · rw [hf, println_eq]
        simp
      · rw [hnow]
        simp
  · have hcap : atCap files path maximumBytes = true := by
      rw [← Bool.not_eq_false, h.hasBytes.atCap_iff maximumBytes]
      exact hbelow
    rw [hcap, if_pos rfl, if_neg hbelow]
    refine .inr ⟨[line ++ [ch '\r']], List.forall_mem_singleton.2 hnew, ?_, ?_⟩
    · rw [println_eq]
      simp
    · simp

/-- The lines an acknowledgement keeps are written back, each a byte longer. -/
theorem hasLines_copy {files : Files} {records : Option (List Nat)} (h : HasLines (files .remoteNdjson) records)
    (itemCount : Nat) :
    HasLines (some (copyOf files itemCount)) (some (((records.getD []).drop itemCount).map (· + 1))) := by
  rcases h with ⟨hf, rfl⟩ | ⟨ls, hls, hf, rfl⟩
  · refine .inr ⟨[], List.forall_mem_nil _, ?_, by simp⟩
    rw [copyOf, hf]
    rfl
  · refine .inr ⟨(ls.drop itemCount).map (· ++ [ch '\r']), ?_, ?_, ?_⟩
    · intro l hl
      obtain ⟨m, hm, rfl⟩ := List.mem_map.1 hl
      refine ⟨List.append_ne_nil_of_right_ne_nil _ (List.cons_ne_nil _ _), ?_⟩
      rw [List.mem_append, not_or]
      exact ⟨(hls m (List.mem_of_mem_drop hm)).2, by decide⟩
    · rw [copyOf, hf]
      dsimp only
      rw [keptLines, countedLines_terminated hls, List.flatMap_map]
      exact congrArg some (congrArg (List.flatMap · _) (funext println_eq))
    · rw [Option.getD_some, ← List.map_drop, List.map_map, List.map_map]
      simp [Function.comp_def]

/-! ## One operation -/

theorem tallies_rows {files : Files} {l : Ledger} (h : Tallies files l) (csv : Bytes) :
    Tallies (appendLine files .telemetryCsv csv kTelemetryMaximumBytes)
      { l with rows := l.rows.append kTelemetryMaximumBytes (csv.length + 2) } where
  rows := inFiles_append h.rows csv _
  events := h.events.congr (appendLine_other (by decide) (by decide)) (appendLine_other (by decide) (by decide))
  queue := by
    rw [appendLine_other (by decide) (by decide)]
    exact h.queue
  queueBefore := by
    rw [appendLine_other (by decide) (by decide)]
    exact h.queueBefore
  copy := by
    rw [appendLine_other (by decide) (by decide)]
    exact h.copy

theorem tallies_events {files : Files} {l : Ledger} (h : Tallies files l) (line : Bytes) :
    Tallies (appendLine files .eventsNdjson line kEventsMaximumBytes)
      { l with events := l.events.append kEventsMaximumBytes (line.length + 2) } where
  rows := h.rows.congr (appendLine_other (by decide) (by decide)) (appendLine_other (by decide) (by decide))
  events := inFiles_append h.events line _
  queue := by
    rw [appendLine_other (by decide) (by decide)]
    exact h.queue
  queueBefore := by
    rw [appendLine_other (by decide) (by decide)]
    exact h.queueBefore
  copy := by
    rw [appendLine_other (by decide) (by decide)]
    exact h.copy

theorem tallies_queue {files : Files} {l : Ledger} (h : Tallies files l) {json : Bytes} (hjson : ch '\n' ∉ json) :
    Tallies (appendLine files .remoteNdjson json kRemoteQueueMaximumBytes)
      { l with queue := l.queue.append kRemoteQueueMaximumBytes (json.length + 2) } where
  rows := h.rows.congr (appendLine_other (by decide) (by decide)) (appendLine_other (by decide) (by decide))
  events := h.events.congr (appendLine_other (by decide) (by decide)) (appendLine_other (by decide) (by decide))
  queue := hasLines_append h.queue hjson _
  queueBefore := (inFiles_append ⟨h.queue.hasBytes, h.queueBefore⟩ json _).2
  copy := by
    rw [appendLine_other (by decide) (by decide)]
    exact h.copy

theorem tallies_copied {files : Files} {l : Ledger} (h : Tallies files l) (itemCount : Nat) :
    Tallies (files.write .remoteTmp (copyOf files itemCount)) { l with copy := some (l.kept itemCount) } where
  rows := h.rows.congr (Files.write_other _ _ (by decide)) (Files.write_other _ _ (by decide))
  events := h.events.congr (Files.write_other _ _ (by decide)) (Files.write_other _ _ (by decide))
  queue := by
    rw [Files.write_other _ _ (by decide)]
    exact h.queue
  queueBefore := by
    rw [Files.write_other _ _ (by decide)]
    exact h.queueBefore
  copy := by
    rw [Files.write_self]
    exact (hasLines_copy h.queue itemCount).hasBytes

theorem tallies_replaced {s : StorageManager} {l : Ledger} (h : Tallies s.files l) (hm : s.mounted = true)
    {itemCount : Nat} (hk : itemCount ≠ 0) :
    Tallies (acknowledgeFiles s.files itemCount .ok).1
      (if l.queue.now.isSome then { l with queue := { l.queue with now := some (l.kept itemCount) }, copy := none }
        else { l with copy := some [] }) := by
  have hothers : ∀ path, path ≠ .remoteNdjson → path ≠ .remoteTmp →
      (acknowledgeFiles s.files itemCount .ok).1 path = s.files path :=
    fun path h1 h2 => acknowledgeFiles_other s.files itemCount .ok h1 h2
  have hrows := h.rows.congr (hothers _ (by decide) (by decide)) (hothers _ (by decide) (by decide))
  have hevents := h.events.congr (hothers _ (by decide) (by decide)) (hothers _ (by decide) (by decide))
  have hbefore : HasBytes ((acknowledgeFiles s.files itemCount .ok).1 (.previous .remoteNdjson)) l.queue.before := by
    rw [hothers _ (by decide) (by decide)]
    exact h.queueBefore
  cases hf : s.files .remoteNdjson with
  | none =>
    have hnow : l.queue.now = none := by
      rcases h.queue with ⟨-, hnow⟩ | ⟨ls, -, hsome, -⟩
      · exact hnow
      · rw [hf] at hsome
        cases hsome
    have hack : (acknowledgeFiles s.files itemCount .ok).1 = s.files.write .remoteTmp [] := by
      simp [acknowledgeFiles, AckIo.ok, hf]
    rw [hnow, if_neg (by simp)]
    refine ⟨hrows, hevents, ?_, hbefore, ?_⟩
    · rw [hack, Files.write_other _ _ (by decide)]
      exact h.queue
    · rw [hack, Files.write_self]
      exact hasBytes_some rfl
  | some content =>
    have hnow : l.queue.now.isSome = true := by
      rcases h.queue with ⟨hnone, -⟩ | ⟨ls, -, -, hnow⟩
      · rw [hf] at hnone
        cases hnone
      · rw [hnow]
        rfl
    have hqueue : (acknowledgeFiles s.files itemCount .ok).1 .remoteNdjson = some (copyOf s.files itemCount) := by
      have hafter := (acknowledge_ok hm hk hf).1
      simp only [acknowledgeRemoteBatch, hm, hk, Bool.not_true, decide_false, Bool.or_self, Bool.false_eq_true,
        if_false] at hafter
      rw [hafter, copyOf, hf]
    rw [if_pos hnow]
    refine ⟨hrows, hevents, ?_, hbefore, ?_⟩
    · rw [hqueue]
      exact hasLines_copy h.queue itemCount
    · rw [acknowledge_ok_tmp hf]
      exact hasBytes_none

/-- The ledger is that of the storage. -/
structure Follows (w : World) (l : Ledger) : Prop where
  mounted : w.storage.mounted = l.mounted
  tallies : Tallies w.storage.files l

/-- At each moment of an operation the files have the bytes of the ledger then. -/
theorem tallies_stages {w : World} {l : Ledger} (h : Follows w l) (op : Op) :
    List.Forall₂ Tallies (stages w.storage op) (l.moments op) := by
  obtain ⟨hmounted, htallies⟩ := h
  cases op with
  | begin mount =>
    have hheader : (w.storage.files .telemetryCsv).isSome = l.rows.now.isSome := by
      have := congrArg Option.isSome htallies.rows.1
      rwa [Option.isSome_map, Option.isSome_map] at this
    rw [stages, begin, Ledger.moments, hheader]
    cases mount with
    | false => exact .cons ⟨htallies.rows, htallies.events, htallies.queue, htallies.queueBefore, htallies.copy⟩ .nil
    | true =>
      cases hnow : l.rows.now with
      | some rows => exact .cons ⟨htallies.rows, htallies.events, htallies.queue, htallies.queueBefore, htallies.copy⟩ .nil
      | none =>
        refine .cons ⟨⟨?_, htallies.rows.2⟩, htallies.events, htallies.queue, htallies.queueBefore, htallies.copy⟩ .nil
        exact hasBytes_some rfl
  | recordTelemetry csv json =>
    rw [stages, Ledger.moments, hmounted]
    split
    · have hrows := tallies_rows htallies csv.1
      exact .cons hrows (.cons (tallies_queue hrows json.2.2) .nil)
    · exact .nil
  | recordEvent line =>
    rw [stages, Ledger.moments, hmounted]
    split
    · exact .cons (tallies_events htallies line.1) .nil
    · exact .nil
  | acknowledge itemCount =>
    rw [stages, Ledger.moments, hmounted]
    split
    · next hack =>
      rw [Bool.and_eq_true, decide_eq_true_iff] at hack
      have hreplaced := tallies_replaced htallies (hmounted.trans hack.1) hack.2
      exact .cons (tallies_copied htallies itemCount) (.cons hreplaced .nil)
    · exact .nil

/-- The last moment is what the operation leaves. -/
theorem next_files (s : StorageManager) (op : Op) : (next s op).files = (stages s op).getLastD s.files := by
  cases op with
  | begin mount => rfl
  | recordTelemetry csv json =>
    rw [next, stages]
    split <;> rfl
  | recordEvent line =>
    rw [next, stages]
    split <;> rfl
  | acknowledge itemCount =>
    cases hm : s.mounted <;> by_cases hk : itemCount = 0 <;> simp [next, stages, acknowledgeRemoteBatch, hm, hk]

theorem next_mounted (s : StorageManager) (op : Op) :
    (next s op).mounted = match op with
      | .begin mount => mount
      | _ => s.mounted := by
  cases op with
  | begin mount =>
    rw [next, begin]
    cases mount with
    | false => rfl
    | true => cases (s.files .telemetryCsv).isSome <;> rfl
  | recordTelemetry csv json =>
    rw [next]
    split <;> rfl
  | recordEvent line =>
    rw [next]
    split <;> rfl
  | acknowledge itemCount =>
    rw [next, acknowledgeRemoteBatch]
    split <;> rfl

theorem Ledger.step_mounted (l : Ledger) (op : Op) :
    (l.step op).mounted = match op with
      | .begin mount => mount
      | _ => l.mounted := by
  cases op with
  | begin mount =>
    rw [step, moments]
    cases mount with
    | false => rfl
    | true => cases l.rows.now <;> rfl
  | recordTelemetry csv json =>
    rw [step, moments]
    split <;> rfl
  | recordEvent line =>
    rw [step, moments]
    split <;> rfl
  | acknowledge itemCount =>
    rw [step, moments]
    split
    · cases hnow : l.queue.now <;> rfl
    · rfl

theorem tallies_last {files : Files} {l : Ledger} (h : Tallies files l) {stages : List Files} {moments : List Ledger}
    (hall : List.Forall₂ Tallies stages moments) : Tallies (stages.getLastD files) (moments.getLastD l) := by
  induction hall generalizing files l with
  | nil => exact h
  | cons hfirst _ ih =>
    rw [List.getLastD_cons, List.getLastD_cons]
    exact ih hfirst

theorem follows_step (w : World) (l : Ledger) (op : Op) (h : Follows w l) : Follows (w.step op) (l.step op) where
  mounted := by rw [World.step, next_mounted, Ledger.step_mounted, h.mounted]
  tallies := by
    rw [World.step, next_files]
    exact tallies_last h.tallies (tallies_stages h op)

theorem follows_start : Follows { storage := {} } {} :=
  ⟨rfl, ⟨hasBytes_none, hasBytes_none⟩, ⟨hasBytes_none, hasBytes_none⟩, .inl ⟨rfl, rfl⟩, hasBytes_none, hasBytes_none⟩

/-! ## Runs -/

theorem fits_stages_iff {stages : List Files} {moments : List Ledger} (h : List.Forall₂ Tallies stages moments) :
    (∀ files ∈ stages, Fits fs files) ↔ ∀ m ∈ moments, m.blocks fs ≤ partitionBlocks := by
  induction h with
  | nil => simp
  | cons hfirst _ ih => rw [List.forall_mem_cons, List.forall_mem_cons, hfirst.fits_iff, ih]

/-- A step that starts where everything fits stays there exactly when the ledger does. -/
theorem fits_step_iff (w : World) (l : Ledger) (op : Op) (h : Follows w l) (hfits : w.Fits fs) :
    (w.step op).Fits fs ↔ l.Fitting fs op := by
  rw [World.Fits, Ledger.Fitting, ← fits_stages_iff fs (tallies_stages h op)]
  refine ⟨fun hnext => hnext.2, fun hstages => ⟨?_, hstages⟩⟩
  rw [World.step, next_files]
  rcases List.eq_nil_or_concat' (stages w.storage op) with hnone | ⟨earlier, last, hlast⟩
  · rw [hnone]
    exact hfits.1
  · rw [hlast, List.getLastD_concat]
    exact hstages last (hlast ▸ List.mem_append_right _ List.mem_cons_self)

/-- For every file system, from the empty partition on: a run stays within the
partition exactly when the records fit at every moment of it. -/
theorem fits_throughout_iff (ops : List Op) :
    Throughout World.step (World.Fits fs) { storage := {} } ops ↔
      fs.metadata + uiBlocks ≤ partitionBlocks ∧ Along Ledger.step (Ledger.Fitting fs) {} ops := by
  have hstart : World.Fits fs { storage := {} } ↔ fs.metadata + uiBlocks ≤ partitionBlocks :=
    ⟨fun h => h.1, fun h => ⟨h, List.forall_mem_nil _⟩⟩
  have hrun : ∀ h : World.Fits fs { storage := {} }, Throughout World.step (World.Fits fs) { storage := {} } ops ↔
      Along Ledger.step (Ledger.Fitting fs) {} ops :=
    fun h => throughout_iff_of_related follows_step (fits_step_iff fs) follows_start h ops
  rw [← hstart]
  exact ⟨fun h => ⟨h.head, (hrun h.head).1 h⟩, fun ⟨hfits, halong⟩ => (hrun hfits).2 halong⟩

/-! ## Eight hours of samples -/

theorem recordBlocks_ge (records : Option (List Nat)) (h : 512 < (records.getD []).sum) :
    ((records.getD []).sum + 4095) / 4096 ≤ Ledger.recordBlocks fs records := by
  cases records with
  | none => exact absurd h (by decide)
  | some lengths => exact fs.blocks_ge _ h

/-- The ledger behind samples of one length. -/
theorem run_samples {csv json : Nat} {ops : List Op} (hops : ∀ op ∈ ops, ∃ (row : Line) (sample : QueueLine),
    op = .recordTelemetry row sample ∧ row.1.length + 2 = csv ∧ sample.1.length + 2 = json) {l : Ledger}
    (hm : l.mounted = true) :
    run Ledger.step l ops = (fun l : Ledger => (l.sample csv json).getLastD l)^[ops.length] l := by
  induction ops generalizing l with
  | nil => rfl
  | cons op ops ih =>
    obtain ⟨⟨row, sample, rfl, rfl, rfl⟩, hrest⟩ := List.forall_mem_cons.1 hops
    have hstep : l.step (.recordTelemetry row sample) = (l.sample (row.1.length + 2) (sample.1.length + 2)).getLastD l := by
      rw [Ledger.step, Ledger.moments, if_pos hm]
    have hmounted : ((l.sample (row.1.length + 2) (sample.1.length + 2)).getLastD l).mounted = true := hm
    rw [run_cons, hstep, ih hrest hmounted, List.length_cons, Function.iterate_succ_apply]

/-- What a battery under load may report. -/
def ordinaryReading : BatteryData where
  voltage := 1328 / 100
  current := -421 / 100
  soc := 87
  power := -559 / 10
  cellTemp := 23
  mosfetTemp := 25
  cellDeltaMv := 4
  valid := true

theorem length_decimal_eight {n : Nat} (h : 10 ^ 7 ≤ n) (h' : n < 10 ^ 8) : (decimal n).length = 8 := by
  rw [decimal, List.length_map]
  have hle := (Nat.length_toDigits_le_iff (b := 10) (n := n) (k := 8) (by decide) (by decide)).2 h'
  have hgt := mt (Nat.length_toDigits_le_iff (b := 10) (n := n) (k := 7) (by decide) (by decide)).1 (by omega)
  omega

theorem length_telemetryCsv (data : BatteryData) (uptime : UInt32) :
    (telemetryCsv data uptime).length + 1 = (telemetryCsv data 0).length + (decimal uptime.toNat).length := by
  have hzero : (decimal (0 : UInt32).toNat).length = 1 := by decide
  unfold telemetryCsv
  simp only [List.length_append]
  omega

theorem length_telemetryJson (data : BatteryData) (uptime : UInt32) (now : Int) :
    (telemetryJson data uptime now).length + 1 = (telemetryJson data 0 now).length + (decimal uptime.toNat).length := by
  have hzero : (decimal (0 : UInt32).toNat).length = 1 := by decide
  unfold telemetryJson
  simp only [List.length_append]
  omega

theorem length_ordinaryCsv {uptime : UInt32} (h : 10 ^ 7 ≤ uptime.toNat) (h' : uptime.toNat < 10 ^ 8) :
    (telemetryCsv ordinaryReading uptime).length = 43 := by
  have hlength := length_telemetryCsv ordinaryReading uptime
  have hrest : (telemetryCsv ordinaryReading 0).length = 36 := by decide +kernel
  have hdigits := length_decimal_eight h h'
  omega

theorem length_ordinaryJson {uptime : UInt32} (h : 10 ^ 7 ≤ uptime.toNat) (h' : uptime.toNat < 10 ^ 8) :
    (telemetryJson ordinaryReading uptime 0).length = 150 := by
  have hlength := length_telemetryJson ordinaryReading uptime 0
  have hrest : (telemetryJson ordinaryReading 0 0).length = 143 := by decide +kernel
  have hdigits := length_decimal_eight h h'
  omega

/-- `millis()` at a sample, one a minute. -/
def uptimeAt (i : Fin 459) : UInt32 := UInt32.ofNat (12000000 + 60000 * i)

theorem uptimeAt_bounds (i : Fin 459) : 10 ^ 7 ≤ (uptimeAt i).toNat ∧ (uptimeAt i).toNat < 10 ^ 8 := by
  have hi := i.isLt
  rw [uptimeAt, UInt32.toNat_ofNat', Nat.mod_eq_of_lt (by omega)]
  omega

/-- The clock is not set. -/
def sampleAt (i : Fin 459) : Op :=
  .recordTelemetry
    ⟨telemetryCsv ordinaryReading (uptimeAt i),
      by rw [length_ordinaryCsv (uptimeAt_bounds i).1 (uptimeAt_bounds i).2]; decide⟩
    ⟨telemetryJson ordinaryReading (uptimeAt i) 0,
      by rw [length_ordinaryJson (uptimeAt_bounds i).1 (uptimeAt_bounds i).2]; decide,
      (plain_telemetryJson _ _ _).newline_not_mem⟩

/-- There is no file system to hold them: after 459 samples that no one fetches the two generations of the history
and of the queue take eleven blocks at the least, and six are taken before. -/
theorem samples_overflow_partition :
    ¬ ∃ fs : LittleFS, Throughout World.step (World.Fits fs) { storage := {} } (.begin true :: List.ofFn sampleAt) := by
  rintro ⟨fs, h⟩
  have hfollows := run_related follows_step follows_start (.begin true :: List.ofFn sampleAt)
  have hfits := (hfollows.tallies.fits_iff fs).1 h.last.1
  have hops : ∀ op ∈ List.ofFn sampleAt, ∃ (row : Line) (sample : QueueLine),
      op = .recordTelemetry row sample ∧ row.1.length + 2 = 45 ∧ sample.1.length + 2 = 152 := by
    intro op hop
    obtain ⟨i, rfl⟩ := List.mem_ofFn.1 hop
    obtain ⟨hlow, hhigh⟩ := uptimeAt_bounds i
    exact ⟨_, _, rfl, congrArg (· + 2) (length_ordinaryCsv hlow hhigh), congrArg (· + 2) (length_ordinaryJson hlow hhigh)⟩
  rw [run_cons, run_samples hops rfl, List.length_ofFn] at hfits
  generalize hledger : (fun l : Ledger => (l.sample 45 152).getLastD l)^[459] (Ledger.step {} (.begin true)) = l at hfits
  have hsums : (l.rows.now.getD []).sum = 8415 ∧ (l.rows.before.getD []).sum = 12313 ∧
      (l.queue.now.getD []).sum = 4104 ∧ (l.queue.before.getD []).sum = 4104 := by
    rw [← hledger]
    decide +kernel
  obtain ⟨hrows, hrowsBefore, hqueue, hqueueBefore⟩ := hsums
  have h1 := recordBlocks_ge fs l.rows.now (by omega)
  have h2 := recordBlocks_ge fs l.rows.before (by omega)
  have h3 := recordBlocks_ge fs l.queue.now (by omega)
  have h4 := recordBlocks_ge fs l.queue.before (by omega)
  have hmetadata := fs.metadata_ge
  unfold Ledger.blocks uiBlocks partitionBlocks at hfits
  omega

end LiTimeGateway.FlashSpace
