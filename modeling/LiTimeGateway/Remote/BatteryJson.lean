import LiTimeGateway.Ble.BatteryLoop
import LiTimeGateway.Ble.Decoding
import LiTimeGateway.JsonNumbers
/-!
# The battery document

`batteryJson` writes what the provider has published, for `/api/battery` and for
the remote dashboard. Its loop over the cells reads the array, so it asks for
each cell by its index. In every state of the firmware the cells are there, and
the document reads back as `batteryValue`: each member once, with the text the
firmware wrote for it, and one element for each cell.
-/

namespace LiTimeGateway

open Lib.Json Lib.Join Lib.Runs

/-! ## The document -/

/-- `data.cells[i]`. -/
def BatteryData.cell (data : BatteryData) (i : Nat) : Option ℚ :=
  if h : i < MAX_BATTERY_CELLS then some (data.cells ⟨i, h⟩) else none

/-- The loop over the cells. -/
def cellsLoop (data : BatteryData) : (indices : List Nat) → (json : Bytes) → Option Bytes
  | [], json => some json
  | i :: rest, json => do
    let json := if i > 0 then json ++ ascii "," else json
    let cell ← data.cell i
    cellsLoop data rest (json ++ floatText cell 3)

def batteryJson (data : BatteryData) : Option Bytes := do
  let json := ascii "\x7b\"connected\":" ++ boolText data.connected
  let json := json ++ ascii ",\"valid\":" ++ boolText data.valid
  let json := json ++ ascii ",\"voltage\":" ++ floatText data.voltage 2
  let json := json ++ ascii ",\"current\":" ++ floatText data.current 2
  let json := json ++ ascii ",\"soc\":" ++ decimal data.soc.toNat
  let json := json ++ ascii ",\"power\":" ++ floatText data.power 2
  let json := json ++ ascii ",\"remainingAh\":" ++ floatText data.remainingAh 2
  let json := json ++ ascii ",\"capacityAh\":" ++ floatText data.capacityAh 2
  let json := json ++ ascii ",\"cellTemp\":" ++ floatText data.cellTemp 1
  let json := json ++ ascii ",\"mosfetTemp\":" ++ floatText data.mosfetTemp 1
  let json := json ++ ascii ",\"cellCount\":" ++ decimal data.cellCount
  let json := json ++ ascii ",\"minCell\":" ++ floatText data.minCell 3
  let json := json ++ ascii ",\"maxCell\":" ++ floatText data.maxCell 3
  let json := json ++ ascii ",\"cellDeltaMv\":" ++ floatText data.cellDeltaMv 1
  let json := json ++ ascii ",\"updatedAt\":" ++ decimal data.updatedAt.toNat
  let json := json ++ ascii ",\"cells\":["
  let json ← cellsLoop data (List.range data.cellCount) json
  return json ++ ascii "]\x7d"

/-! ## What a reader makes of it -/

/-- The cells that are in use. -/
def BatteryData.listed (data : BatteryData) : List ℚ := (List.ofFn data.cells).take data.cellCount

def cellTexts (cells : List ℚ) : List Bytes := cells.map fun cell => floatText cell 3

def numberMember (key text : Bytes) : Member := ⟨key, some (.number text), text⟩

def cellMember (data : BatteryData) : Member :=
  ⟨ascii "cells", some (.array (data.listed.map fun cell => .number (floatText cell 3))),
    arrayText (cellTexts data.listed)⟩

/-- The members of the document, each as it is written and as it is read. -/
def batteryMembers (data : BatteryData) : List Member :=
  [⟨ascii "connected", some (.bool data.connected), boolText data.connected⟩,
   ⟨ascii "valid", some (.bool data.valid), boolText data.valid⟩,
   numberMember (ascii "voltage") (floatText data.voltage 2),
   numberMember (ascii "current") (floatText data.current 2),
   numberMember (ascii "soc") (decimal data.soc.toNat),
   numberMember (ascii "power") (floatText data.power 2),
   numberMember (ascii "remainingAh") (floatText data.remainingAh 2),
   numberMember (ascii "capacityAh") (floatText data.capacityAh 2),
   numberMember (ascii "cellTemp") (floatText data.cellTemp 1),
   numberMember (ascii "mosfetTemp") (floatText data.mosfetTemp 1),
   numberMember (ascii "cellCount") (decimal data.cellCount),
   numberMember (ascii "minCell") (floatText data.minCell 3),
   numberMember (ascii "maxCell") (floatText data.maxCell 3),
   numberMember (ascii "cellDeltaMv") (floatText data.cellDeltaMv 1),
   numberMember (ascii "updatedAt") (decimal data.updatedAt.toNat),
   cellMember data]

def batteryValue (data : BatteryData) : Value :=
  .object [(ascii "connected", .bool data.connected), (ascii "valid", .bool data.valid),
    (ascii "voltage", .number (floatText data.voltage 2)), (ascii "current", .number (floatText data.current 2)),
    (ascii "soc", .number (decimal data.soc.toNat)), (ascii "power", .number (floatText data.power 2)),
    (ascii "remainingAh", .number (floatText data.remainingAh 2)),
    (ascii "capacityAh", .number (floatText data.capacityAh 2)),
    (ascii "cellTemp", .number (floatText data.cellTemp 1)),
    (ascii "mosfetTemp", .number (floatText data.mosfetTemp 1)),
    (ascii "cellCount", .number (decimal data.cellCount)), (ascii "minCell", .number (floatText data.minCell 3)),
    (ascii "maxCell", .number (floatText data.maxCell 3)),
    (ascii "cellDeltaMv", .number (floatText data.cellDeltaMv 1)),
    (ascii "updatedAt", .number (decimal data.updatedAt.toNat)),
    (ascii "cells", .array (data.listed.map fun cell => .number (floatText cell 3)))]

theorem batteryMembers_value (data : BatteryData) : Member.objectValue (batteryMembers data) = some (batteryValue data) :=
  rfl

/-! ## The loop over the cells -/

theorem length_listed {data : BatteryData} (h : data.cellCount ≤ MAX_BATTERY_CELLS) :
    data.listed.length = data.cellCount := by
  rw [BatteryData.listed, List.length_take, List.length_ofFn, Nat.min_eq_left h]

/-- A cell in use is read from inside the array. -/
theorem cell_listed {data : BatteryData} {written rest : List ℚ} {cell : ℚ}
    (h : data.listed = written ++ cell :: rest) : data.cell written.length = some cell := by
  have hlen : written.length < data.listed.length := by simp [h]
  have hmax : written.length < MAX_BATTERY_CELLS := by
    rw [BatteryData.listed, List.length_take, List.length_ofFn] at hlen
    exact (lt_min_iff.1 hlen).2
  have hread : data.listed[written.length]? = some cell := by rw [h, List.getElem?_append_right (Nat.le_refl _), Nat.sub_self]; rfl
  rw [BatteryData.cell, dif_pos hmax, ← hread, BatteryData.listed, List.getElem?_take_of_lt, List.getElem?_ofFn,
    dif_pos hmax]
  rw [BatteryData.listed, List.length_take] at hlen
  exact (lt_min_iff.1 hlen).1

/-- The loop behind the cells in `written`. -/
theorem cellsLoop_eq (data : BatteryData) (start : Bytes) {written rest : List ℚ} (h : data.listed = written ++ rest) :
    cellsLoop data (List.range' written.length rest.length) (start ++ (ascii ",").intercalate (cellTexts written)) =
      some (start ++ (ascii ",").intercalate (cellTexts data.listed)) := by
  induction rest generalizing written with
  | nil =>
    rw [List.append_nil] at h
    rw [h]
    rfl
  | cons cell rest ih =>
    have hnext := @ih (written ++ [cell]) (by rw [h, List.append_assoc, List.singleton_append])
    rw [List.length_append, List.length_singleton] at hnext
    have hcount : 0 < written.length ↔ cellTexts written ≠ [] := by
      rw [cellTexts, List.length_pos_iff, ne_eq, ne_eq, List.map_eq_nil_iff]
    rw [List.length_cons, List.range'_succ, cellsLoop, cell_listed h, Option.bind_eq_bind, Option.bind_some, ← hnext]
    congr 1
    rw [append_separated (ascii ",") start hcount, cellTexts, cellTexts, List.map_append, List.map_singleton]

set_option maxRecDepth 4000 in
theorem batteryJson_eq {data : BatteryData} (h : data.cellCount ≤ MAX_BATTERY_CELLS) :
    batteryJson data = some (Member.objectOf (batteryMembers data)) := by
  have hloop := fun start => @cellsLoop_eq data start [] data.listed rfl
  simp only [cellTexts, List.map_nil, List.intercalate_nil, List.append_nil, List.length_nil, length_listed h,
    ← List.range_eq_range'] at hloop
  unfold batteryJson
  dsimp only
  rw [hloop, Option.bind_eq_bind, Option.bind_some]
  simp only [batteryMembers, numberMember, cellMember, Member.objectOf, objectText, memberText, arrayText, quoted,
    List.map_cons, List.map_nil, List.intercalate_cons_cons, List.intercalate_singleton, List.append_assoc,
    List.cons_append, List.nil_append]
  rfl

/-! ## Reading it back -/

theorem scans_cells (cells : List ℚ) :
    Scans (some (.array (cells.map fun cell => .number (floatText cell 3)))) (arrayText (cellTexts cells)) := by
  have hitems : ∀ i ∈ cells.map fun cell => (some (Value.number (floatText cell 3)), floatText cell 3),
      Scans i.1 i.2 ∧ Solid i.2 := by
    intro i hi
    obtain ⟨cell, -, rfl⟩ := List.mem_map.1 hi
    have hnumber : isNumber (floatText cell 3) = true := isNumber_floatText cell (by decide)
    exact ⟨scans_number hnumber, solid_number hnumber⟩
  have hscans := scans_array (fun i hi => (hitems i hi).1) fun i hi => (hitems i (List.mem_of_mem_head? hi)).2
  have hall : allSome (cells.map fun cell => some (Value.number (floatText cell 3))) =
      some (cells.map fun cell => .number (floatText cell 3)) := by
    rw [allSome_eq_some, List.map_map]
    rfl
  simpa [cellTexts, List.map_map, Function.comp_def, hall] using hscans

theorem written_battery (data : BatteryData) : ∀ m ∈ batteryMembers data, m.Written := by
  have hfloat : ∀ {key : Bytes} (value : ℚ) {decimals : Nat}, Verbatim key → 0 < decimals →
      (numberMember key (floatText value decimals)).Written :=
    fun value _ hkey h => Member.written_mk hkey (scans_number (isNumber_floatText value h))
  simp only [batteryMembers, List.forall_mem_cons]
  refine ⟨Member.written_mk (by decide) (scans_boolText _), Member.written_mk (by decide) (scans_boolText _),
    hfloat _ (by decide) (by decide), hfloat _ (by decide) (by decide),
    Member.written_mk (by decide) (scans_decimal _), hfloat _ (by decide) (by decide),
    hfloat _ (by decide) (by decide), hfloat _ (by decide) (by decide), hfloat _ (by decide) (by decide),
    hfloat _ (by decide) (by decide), Member.written_mk (by decide) (scans_decimal _),
    hfloat _ (by decide) (by decide), hfloat _ (by decide) (by decide), hfloat _ (by decide) (by decide),
    Member.written_mk (by decide) (scans_decimal _), Member.written_mk (by decide) (scans_cells data.listed), by simp⟩

theorem parse_battery (data : BatteryData) :
    parse (Member.objectOf (batteryMembers data)) = some (batteryValue data) := by
  rw [parse_of_scans (scans_object (written_battery _)), batteryMembers_value]

/-! ## In a run of the firmware -/

theorem cellCount_published (bms : LiTimeNimBLEClient) (now : UInt32) :
    (LiTimeBLEProvider.published bms now).cellCount ≤ MAX_BATTERY_CELLS :=
  List.length_take_le _ _

theorem cellCount_updateAndSync (s : LiTimeBLEProvider) (io : SyncIo) :
    (s.updateAndSync io).data.cellCount ≤ MAX_BATTERY_CELLS :=
  cellCount_published _ _

/-- An operation either publishes or changes flags only. -/
theorem cellCount_step {s : LiTimeBLEProvider} (h : s.data.cellCount ≤ MAX_BATTERY_CELLS) (op : LiTimeBLEProvider.Op) :
    (s.step op).data.cellCount ≤ MAX_BATTERY_CELLS := by
  cases op with
  | begin => exact h
  | connect macAddress io sync =>
    rw [LiTimeBLEProvider.step, LiTimeBLEProvider.connect]
    dsimp only
    split
    · exact h
    · exact cellCount_updateAndSync _ sync
  | update sync =>
    rw [LiTimeBLEProvider.step, LiTimeBLEProvider.update]
    split
    · exact h
    · exact cellCount_updateAndSync s sync
  | host event => exact h

theorem cellCount_run (ops : List LiTimeBLEProvider.Op) {s : LiTimeBLEProvider}
    (h : s.data.cellCount ≤ MAX_BATTERY_CELLS) :
    (run LiTimeBLEProvider.step s ops).data.cellCount ≤ MAX_BATTERY_CELLS :=
  run_inv (I := fun s : LiTimeBLEProvider => s.data.cellCount ≤ MAX_BATTERY_CELLS)
    (fun _ op hs _ => cellCount_step hs op) h (along_true (fun _ _ => trivial) s ops)

theorem cellCount_firmware (scanner : Bool) (io : ScanIo) (es : List BatteryLoop.Event) :
    (run BatteryLoop.step (BatteryLoop.setup scanner io) es).battery.data.cellCount ≤ MAX_BATTERY_CELLS := by
  rw [BatteryLoop.firmware_battery]
  exact cellCount_run _ (Nat.zero_le _)

/-- In every state of the firmware the battery document can be written without
leaving the array of cells, and reads back as the data, member by member. -/
theorem battery_document_reads_back (scanner : Bool) (io : ScanIo) (es : List BatteryLoop.Event) :
    let data := (run BatteryLoop.step (BatteryLoop.setup scanner io) es).battery.data
    ∃ document, batteryJson data = some document ∧ parse document = some (batteryValue data) ∧
      data.listed.length = data.cellCount := by
  have hcount := cellCount_firmware scanner io es
  exact ⟨_, batteryJson_eq hcount, parse_battery _, length_listed hcount⟩

end LiTimeGateway
