import LiTimeGateway.JsonValues
import Mathlib.Logic.Function.Basic
/-!
# The storage manager

LittleFS is a map from paths to file contents. The calls of
`acknowledgeRemoteBatch` take their outcomes from an `AckIo`: each open, remove
and rename may fail, each `println` may be cut short, and the power may be lost
after any of them. Everywhere else the calls succeed.
-/

namespace LiTimeGateway

open Lib.Lines

/-- The files the storage manager names; `previous p` is `String(p) + ".1"`. -/
inductive Path where
  | telemetryCsv
  | eventsNdjson
  | remoteNdjson
  | remoteTmp
  | previous (path : Path)
  deriving DecidableEq, Repr

theorem Path.ne_previous (path : Path) : path ≠ .previous path := fun h => by
  have := congrArg sizeOf h
  simp at this

abbrev Files := Path → Option Bytes

namespace Files

/-- The file now holds `content`. -/
def write (files : Files) (path : Path) (content : Bytes) : Files := Function.update files path (some content)

def remove (files : Files) (path : Path) : Files := Function.update files path none

/-- `rename` replaces the target; without a source it does nothing. -/
def rename (files : Files) (source target : Path) : Files :=
  match files source with
  | none => files
  | some content => (files.remove source).write target content

def size (files : Files) (path : Path) : Nat := ((files path).getD []).length

theorem write_self (files : Files) (path : Path) (content : Bytes) : files.write path content path = some content :=
  Function.update_self ..

theorem write_other (files : Files) {path other : Path} (content : Bytes) (h : other ≠ path) :
    files.write path content other = files other := Function.update_of_ne h _ _

theorem remove_other (files : Files) {path other : Path} (h : other ≠ path) :
    files.remove path other = files other := Function.update_of_ne h _ _

theorem rename_other (files : Files) {source target other : Path} (hs : other ≠ source) (ht : other ≠ target) :
    files.rename source target other = files other := by
  unfold rename
  cases files source with
  | none => rfl
  | some content => exact (write_other _ _ ht).trans (remove_other _ hs)

theorem rename_source (files : Files) {source target : Path} (h : source ≠ target) :
    files.rename source target source = none := by
  unfold rename
  cases hf : files source with
  | none => exact hf
  | some content => exact (write_other _ _ h).trans (Function.update_self ..)

end Files

def kTelemetryMaximumBytes : Nat := 12288
def kEventsMaximumBytes : Nat := 2048
def kRemoteQueueMaximumBytes : Nat := 4096

def TELEMETRY_SAMPLE_INTERVAL_MS : UInt32 := 60000

structure StorageManager where
  mounted : Bool := false
  lastSampleAt : UInt32 := 0
  files : Files := fun _ => none

namespace StorageManager

def telemetryHeader : Bytes :=
  ascii "uptime_ms,voltage,current,soc,power,cell_temp,mosfet_temp,cell_delta_mv"

/-- `begin`; `mount` is the result of `LittleFS.begin`. -/
def begin (s : StorageManager) (mount : Bool) : StorageManager × Bool :=
  if !mount then ({ s with mounted := false }, false)
  -- The header is written once, to a file that is not there yet.
  else if (s.files .telemetryCsv).isSome then ({ s with mounted := true }, true)
  else ({ s with mounted := true, files := s.files.write .telemetryCsv (println telemetryHeader) }, true)

/-! ## Appending -/

def atCap (files : Files) (path : Path) (maximumBytes : Nat) : Bool := !(files.size path < maximumBytes)

/-- A file at its cap becomes the `.1` generation, replacing the one before. -/
def rotate (files : Files) (path : Path) (maximumBytes : Nat) : Files :=
  if atCap files path maximumBytes then (files.remove (.previous path)).rename path (.previous path)
  else files

def appendLine (files : Files) (path : Path) (line : Bytes) (maximumBytes : Nat) : Files :=
  let files := rotate files path maximumBytes
  files.write path ((files path).getD [] ++ println line)

theorem rotate_other {files : Files} {path other : Path} {maximumBytes : Nat} (h1 : other ≠ path)
    (h2 : other ≠ .previous path) : rotate files path maximumBytes other = files other := by
  unfold rotate
  split
  · rw [Files.rename_other _ h1 h2, Files.remove_other _ h2]
  · rfl

theorem rotate_self (files : Files) (path : Path) (maximumBytes : Nat) :
    rotate files path maximumBytes path = if atCap files path maximumBytes then none else files path := by
  unfold rotate
  split
  · exact Files.rename_source _ path.ne_previous
  · rfl

theorem appendLine_other {files : Files} {path other : Path} {line : Bytes} {maximumBytes : Nat}
    (h1 : other ≠ path) (h2 : other ≠ .previous path) :
    appendLine files path line maximumBytes other = files other := by
  rw [appendLine, Files.write_other _ _ h1, rotate_other h1 h2]

theorem appendLine_self (files : Files) (path : Path) (line : Bytes) (maximumBytes : Nat) :
    appendLine files path line maximumBytes path =
      some ((if atCap files path maximumBytes then [] else (files path).getD []) ++ println line) := by
  rw [appendLine, Files.write, Function.update_self, rotate_self]
  split <;> rfl

/-- The clock reads of one `recordTelemetry`: `millis()` in the throttle, when
the instant is stored, for the CSV and for the JSON line, and `time(nullptr)`. -/
structure SampleClock where
  check : UInt32
  stored : UInt32
  csv : UInt32
  json : UInt32
  now : Int

/-- The sample is neither invalid nor throttled. -/
def takesSample (s : StorageManager) (data : BatteryData) (clock : SampleClock) : Bool :=
  s.mounted && data.valid && !(clock.check - s.lastSampleAt < TELEMETRY_SAMPLE_INTERVAL_MS)

def recordTelemetry (s : StorageManager) (data : BatteryData) (clock : SampleClock) : StorageManager :=
  if !s.takesSample data clock then s
  else
    let files := appendLine s.files .telemetryCsv (telemetryCsv data clock.csv) kTelemetryMaximumBytes
    let files := appendLine files .remoteNdjson (telemetryJson data clock.json clock.now) kRemoteQueueMaximumBytes
    { s with lastSampleAt := clock.stored, files }

/-! ## Events -/

/-- The line `recordEvent` appends; `uptime` is what `millis()` returns. -/
def eventLine (event : Bytes) (data : Option BatteryData) (uptime : UInt32) : Bytes :=
  let line := ascii "\x7b\"uptime_ms\":" ++ decimal uptime.toNat ++ ascii ",\"event\":\""
  let line := line ++ jsonEscape event
  let line := line ++ ascii "\""
  let line :=
    match data with
    | some data =>
      if data.valid then
        line ++ ascii ",\"voltage\":" ++ floatText data.voltage 2 ++ ascii ",\"soc\":" ++ decimal data.soc.toNat
      else line
    | none => line
  line ++ ascii "\x7d"

def recordEvent (s : StorageManager) (event : Bytes) (data : Option BatteryData) (uptime : UInt32) : StorageManager :=
  if !s.mounted then s
  else { s with files := appendLine s.files .eventsNdjson (eventLine event data uptime) kEventsMaximumBytes }

/-! ## History and events -/

/-- The positions of the first seven commas; `i` bytes have been passed and `found` commas seen. -/
def findSeparators : Bytes → (i : Nat) → (found : List Nat) → List Nat
  | [], _, found => found
  | c :: rest, i, found =>
    if found.length < 7 then findSeparators rest (i + 1) (if c = ch ',' then found ++ [i] else found)
    else found

/-- The values between the separators, from `start` on, and the one behind the last of them. -/
def values (line : Bytes) : (start : Nat) → (separators : List Nat) → List Bytes
  | start, [] => [line.drop start]
  | start, separator :: rest => (line.take separator).drop start :: values line (separator + 1) rest

/-- The object `tailLinesJson` writes for the eight values of a row. -/
def rowObject (values : List Bytes) : Bytes :=
  ascii "\x7b\"uptime_ms\":" ++ values.getD 0 [] ++ ascii ",\"voltage\":" ++ values.getD 1 [] ++
  ascii ",\"current\":" ++ values.getD 2 [] ++ ascii ",\"soc\":" ++ values.getD 3 [] ++
  ascii ",\"power\":" ++ values.getD 4 [] ++ ascii ",\"cell_temp\":" ++ values.getD 5 [] ++
  ascii ",\"mosfet_temp\":" ++ values.getD 6 [] ++ ascii ",\"cell_delta_mv\":" ++ values.getD 7 [] ++
  ascii "\x7d"

/-- The second loop of `tailLinesJson`, over the lines of the file. -/
def tailLoop (telemetry : Bool) (skip : Nat) : List Bytes → (index emitted : Nat) → (json : Bytes) → Bytes
  | [], _, _, json => json
  | line :: rest, index, emitted, json =>
    let line := trim line
    if index < skip || line.isEmpty then tailLoop telemetry skip rest (index + 1) emitted json
    else if telemetry && (ascii "uptime_ms,").isPrefixOf line then
      tailLoop telemetry skip rest (index + 1) emitted json
    else
      let json := if emitted > 0 then json ++ ascii "," else json
      if telemetry then
        let separators := findSeparators line 0 []
        -- The counter is taken back here, the comma is not.
        if separators.length ≠ 7 then tailLoop telemetry skip rest (index + 1) emitted json
        else tailLoop telemetry skip rest (index + 1) (emitted + 1) (json ++ rowObject (values line 0 separators))
      else tailLoop telemetry skip rest (index + 1) (emitted + 1) (json ++ line)

/-- Two passes over the file: one counts its lines, one writes the last `limit` of them. -/
def tailLinesJson (s : StorageManager) (path : Path) (limit : Nat) (telemetry : Bool) : Bytes :=
  match s.mounted, s.files path with
  | true, some content =>
    let total := (readLines content).length
    let skip := if total > limit then total - limit else 0
    tailLoop telemetry skip (readLines content) 0 0 (ascii "[") ++ ascii "]"
  | _, _ => ascii "[]"

def historyJson (s : StorageManager) (limit : Nat) : Bytes := s.tailLinesJson .telemetryCsv limit true

def eventsJson (s : StorageManager) (limit : Nat) : Bytes := s.tailLinesJson .eventsNdjson limit false

/-! ## The remote queue -/

/-- The loop of `nextRemoteBatch` over the lines of the queue. -/
def batchLoop (maxItems : Nat) : List Bytes → (itemCount : Nat) → (json : Bytes) → Bytes × Nat
  | [], itemCount, json => (json, itemCount)
  | line :: rest, itemCount, json =>
    if itemCount < maxItems then
      -- A line that trims to nothing is read, and not counted.
      let line := trim line
      if line.isEmpty then batchLoop maxItems rest itemCount json
      else
        let json := if itemCount > 0 then json ++ ascii "," else json
        batchLoop maxItems rest (itemCount + 1) (json ++ line)
    else (json, itemCount)

/-- The batch, and its `itemCount`. -/
def nextRemoteBatch (s : StorageManager) (maxItems : Nat) : Bytes × Nat :=
  match s.mounted, s.files .remoteNdjson with
  | true, some content =>
    let (json, itemCount) := batchLoop maxItems (readLines content) 0 (ascii "[")
    (json ++ ascii "]", itemCount)
  | _, _ => (ascii "[]", 0)

/-- The filesystem calls of `acknowledgeRemoteBatch`, in their order. -/
inductive Call where
  | openInput
  | openOutput
  | println (index : Nat)
  | remove
  | rename
  deriving DecidableEq, Repr

/-- Outcomes of the calls: whether each open, the remove and the rename
succeeds, how many bytes the `index`-th `println` gets out when it is cut short
(`none`: all of them), and after which call the power is lost, if it is. -/
structure AckIo where
  openInput : Bool := true
  openOutput : Bool := true
  println : Nat → Option Nat := fun _ => none
  remove : Bool := true
  rename : Bool := true
  powerLost : Option Call := none

/-- Every call succeeds and the power stays on. -/
def AckIo.ok : AckIo := {}

/-- What a `println` of `line` leaves in the file. -/
def printed (cut : Option Nat) (line : Bytes) : Bytes :=
  match cut with
  | none => LiTimeGateway.println line
  | some n => (LiTimeGateway.println line).take n

/-- The copy loop: the text of `/remote.tmp`, and whether the power was lost in
it. `index` counts the `println` calls made so far. -/
def copyLoop (io : AckIo) (itemCount : Nat) :
    List Bytes → (consumed index : Nat) → (output : Bytes) → Bytes × Bool
  | [], _, _, output => (output, false)
  | line :: rest, consumed, index, output =>
    -- Here a line is counted before it is trimmed: a lone carriage return is one.
    if !line.isEmpty && consumed < itemCount then copyLoop io itemCount rest (consumed + 1) index output
    else if !line.isEmpty then
      let output := output ++ printed (io.println index) line
      if io.powerLost = some (.println index) then (output, true)
      else copyLoop io itemCount rest consumed (index + 1) output
    else copyLoop io itemCount rest consumed index output

/-- The remove and the rename that put `/remote.tmp` in the queue's place. -/
def replaceQueue (files : Files) (io : AckIo) : Files × Option Bool :=
  let files := if io.remove then files.remove .remoteNdjson else files
  if io.powerLost = some .remove then (files, none)
  else
    -- Nothing asks whether the remove succeeded, and only the rename is reported.
    let files := if io.rename then files.rename .remoteTmp .remoteNdjson else files
    if io.powerLost = some .rename then (files, none) else (files, some io.rename)

/-- The files after the call, and what it returned unless the power was lost. -/
def acknowledgeFiles (files : Files) (itemCount : Nat) (io : AckIo) : Files × Option Bool :=
  let input := if io.openInput then files .remoteNdjson else none
  if io.powerLost = some .openInput then (files, none)
  else
    -- Both files are opened, and `/remote.tmp` truncated, before either is checked.
    let opened := if io.openOutput then files.write .remoteTmp [] else files
    if io.powerLost = some .openOutput then (opened, none)
    else
      match input, io.openOutput with
      | some content, true =>
        let (output, lost) := copyLoop io itemCount (readLines content) 0 0 []
        let written := opened.write .remoteTmp output
        if lost then (written, none) else replaceQueue written io
      | _, _ => (opened, some false)

def acknowledgeRemoteBatch (s : StorageManager) (itemCount : Nat) (io : AckIo) :
    StorageManager × Option Bool :=
  if !s.mounted || itemCount = 0 then (s, some true)
  else
    let (files, result) := acknowledgeFiles s.files itemCount io
    ({ s with files }, result)

end StorageManager

end LiTimeGateway
