import LiTimeGateway.Ble.Provenance
import LiTimeGateway.Dashboard.ShownNumbers
import LiTimeGateway.Remote.RemoteDashboard
/-!
# From the battery to the page

What the remote dashboard shows when it gets a status: the readings of a battery
that is connected and valid, each within the rounding of its place on the page,
and dashes for any other. The bounds come from the notification: its words are
so short that every number fits into a double to its last decimal (`Ranged`).
-/

namespace LiTimeGateway

open Lib Lib.Json Lib.Runs Decoding

/-! ## How large the readings are -/

/-- Bounds on the readings that leave room for three decimals in a double. -/
structure Ranged (p : BatteryData) : Prop where
  voltage : |p.voltage| < 256 ^ 4 / 1000
  current : |p.current| < 256 ^ 4 / 1000
  power : |p.power| < (256 ^ 4 / 1000) ^ 2
  remainingAh : |p.remainingAh| < 10 ^ 7
  capacityAh : |p.capacityAh| < 10 ^ 7
  cellTemp : |p.cellTemp| < 10 ^ 7
  mosfetTemp : |p.mosfetTemp| < 10 ^ 7
  cells : ∀ i, |p.cells i| < 10 ^ 2
  minCell : |p.minCell| < 10 ^ 7
  maxCell : |p.maxCell| < 10 ^ 7
  cellDeltaMv : |p.cellDeltaMv| < 10 ^ 7

theorem Ranged.power_fits {p : BatteryData} (h : Ranged p) : |p.power| * 10 ^ 2 + 1 / 2 < 2 ^ 52 := by
  have := h.power
  linarith

theorem Ranged.voltage_lt {p : BatteryData} (h : Ranged p) : |p.voltage| < 10 ^ 7 := h.voltage.trans (by norm_num)

theorem Ranged.current_lt {p : BatteryData} (h : Ranged p) : |p.current| < 10 ^ 7 := h.current.trans (by norm_num)

theorem littleEndian_lt (data : Bytes) (offset count : Nat) : littleEndian data offset count < 256 ^ count := by
  have hdigits : ∀ d ∈ ((data.drop offset).take count).map UInt8.toNat, d < 256 := by
    intro d hd
    obtain ⟨b, -, rfl⟩ := List.mem_map.1 hd
    exact b.toNat_lt
  have hlength : (((data.drop offset).take count).map UInt8.toNat).length ≤ count := by
    rw [List.length_map]
    exact List.length_take_le _ _
  exact (Nat.ofDigits_lt_base_pow_length (by decide) hdigits).trans_le (Nat.pow_le_pow_right (by decide) hlength)

theorem abs_littleEndian_lt (data : Bytes) (offset count : Nat) {scale : ℚ} (hscale : 1 ≤ scale) :
    |(littleEndian data offset count : ℚ) / scale| < 256 ^ count := by
  have hlt : (littleEndian data offset count : ℚ) < 256 ^ count := by exact_mod_cast littleEndian_lt data offset count
  have hpos : (0 : ℚ) < scale := by linarith
  rw [abs_of_nonneg (by positivity), div_lt_iff₀ hpos]
  calc (littleEndian data offset count : ℚ)
    _ < 256 ^ count := hlt
    _ ≤ 256 ^ count * scale := le_mul_of_one_le_right (by positivity) hscale

theorem abs_signed_le (bits n : Nat) : |(signed bits n : ℚ)| ≤ 2 ^ (bits - 1) := by
  have hlow := BitVec.le_toInt (BitVec.ofNat bits n)
  have hhigh := (BitVec.toInt_lt (x := BitVec.ofNat bits n)).le
  have habs : |signed bits n| ≤ 2 ^ (bits - 1) := abs_le.2 ⟨hlow, hhigh⟩
  exact_mod_cast habs

theorem abs_volts_lt {millivolts : Nat} (h : millivolts < 256 ^ 2) : |volts millivolts| < 10 ^ 2 := by
  have hcast : (millivolts : ℚ) < 256 ^ 2 := by exact_mod_cast h
  rw [volts, abs_of_nonneg (by positivity)]
  linarith

theorem abs_cells_lt {n : Bytes} {p : BatteryData} (h : PublishedFrom n p) (i : Fin MAX_BATTERY_CELLS) :
    |p.cells i| < 10 ^ 2 := by
  have hmem : p.cells i ∈ List.ofFn p.cells := List.mem_ofFn.2 ⟨i, rfl⟩
  rw [h.cells, List.mem_append] at hmem
  rcases hmem with hmem | hmem
  · obtain ⟨millivolts, hslot, hcell⟩ := List.mem_map.1 hmem
    obtain ⟨slot, -, rfl⟩ := List.mem_map.1 (List.mem_of_mem_filter hslot)
    rw [← hcell]
    exact abs_volts_lt (littleEndian_lt n _ 2)
  · rw [List.eq_of_mem_replicate hmem]
    norm_num

/-- The least or the greatest cell is a cell, or zero without one. -/
theorem abs_extreme_lt {p : BatteryData} {extreme : ℚ} (hcells : ∀ i, |p.cells i| < 10 ^ 2)
    (hattained : 0 < p.cellCount → ∃ i, i.val < p.cellCount ∧ p.cells i = extreme)
    (hempty : p.cellCount = 0 → extreme = 0) : |extreme| < 10 ^ 2 := by
  rcases Nat.eq_zero_or_pos p.cellCount with h0 | hpos
  · rw [hempty h0]
    norm_num
  · obtain ⟨i, -, hi⟩ := hattained hpos
    exact hi ▸ hcells i

theorem abs_power_lt {voltage current bound : ℚ} (hvoltage : |voltage| < bound) (hcurrent : |current| < bound) :
    |voltage * current| < bound ^ 2 := by
  rw [abs_mul, sq]
  exact mul_lt_mul'' hvoltage hcurrent (abs_nonneg _) (abs_nonneg _)

theorem ranged_published {n : Bytes} {p : BatteryData} (h : PublishedFrom n p) : Ranged p := by
  have hvoltage : |p.voltage| < 256 ^ 4 / 1000 := by
    have hlt : (littleEndian n 8 4 : ℚ) < 256 ^ 4 := by exact_mod_cast littleEndian_lt n 8 4
    rw [h.voltage, abs_of_nonneg (by positivity)]
    linarith
  have hcurrent : |p.current| < 256 ^ 4 / 1000 := by
    rw [h.current, abs_div, abs_of_pos (by norm_num : (0 : ℚ) < 1000)]
    exact (div_le_div_of_nonneg_right (abs_signed_le 32 _) (by norm_num)).trans_lt (by norm_num)
  have hcells := abs_cells_lt h
  have hmin := abs_extreme_lt hcells h.minCell fun h0 => (h.empty h0).1
  have hmax := abs_extreme_lt hcells h.maxCell fun h0 => (h.empty h0).2.1
  constructor
  · exact hvoltage
  · exact hcurrent
  · rw [h.power]
    exact abs_power_lt hvoltage hcurrent
  · rw [h.remainingAh]
    exact (abs_littleEndian_lt n 62 2 (by norm_num)).trans (by norm_num)
  · rw [h.capacityAh]
    exact (abs_littleEndian_lt n 64 2 (by norm_num)).trans (by norm_num)
  · rw [h.cellTemp]
    exact (abs_signed_le 16 _).trans_lt (by norm_num)
  · rw [h.mosfetTemp]
    exact (abs_signed_le 16 _).trans_lt (by norm_num)
  · exact hcells
  · linarith
  · linarith
  · rw [h.cellDeltaMv, abs_mul, abs_of_pos (by norm_num : (0 : ℚ) < 1000)]
    have hsub := abs_sub_le_of_le_of_le (abs_le.1 hmax.le).1 (abs_le.1 hmax.le).2 (abs_le.1 hmin.le).1 (abs_le.1 hmin.le).2
    linarith

theorem ranged_flags {p : BatteryData} {connected simulated valid : Bool} {updatedAt : UInt32} :
    Ranged { p with connected, simulated, valid, updatedAt } ↔ Ranged p :=
  ⟨fun h => ⟨h.voltage, h.current, h.power, h.remainingAh, h.capacityAh, h.cellTemp, h.mosfetTemp, h.cells, h.minCell,
    h.maxCell, h.cellDeltaMv⟩, fun h => ⟨h.voltage, h.current, h.power, h.remainingAh, h.capacityAh, h.cellTemp,
    h.mosfetTemp, h.cells, h.minCell, h.maxCell, h.cellDeltaMv⟩⟩

theorem ranged_zero : Ranged {} := by
  constructor <;> norm_num

open LiTimeBLEProvider in
/-- The record of one notification, or of none. -/
theorem ranged_one (source : Option Frame) : Ranged (recordOf fun _ => source) := by
  cases source with
  | none =>
    have hempty : (recordOf fun _ => none) = {} := by
      simp [recordOf, readingOf, assembled, published, LiTimeNimBLEClient.isConnected]
    exact hempty ▸ ranged_zero
  | some f => exact ranged_published (@publishedFrom_frame f { currentData := f.decode } rfl 0)

open LiTimeBLEProvider in
/-- Each reading is bounded by the notification it comes from. -/
theorem ranged_recordOf (sources : Reading → Option Frame) : Ranged (recordOf sources) where
  voltage := (ranged_one (sources .voltage)).voltage
  current := (ranged_one (sources .current)).current
  power := abs_power_lt (ranged_one (sources .voltage)).voltage (ranged_one (sources .current)).current
  remainingAh := (ranged_one (sources .remainingAh)).remainingAh
  capacityAh := (ranged_one (sources .capacityAh)).capacityAh
  cellTemp := (ranged_one (sources .cellTemp)).cellTemp
  mosfetTemp := (ranged_one (sources .mosfetTemp)).mosfetTemp
  cells := (ranged_one (sources .cells)).cells
  minCell := (ranged_one (sources .cells)).minCell
  maxCell := (ranged_one (sources .cells)).maxCell
  cellDeltaMv := (ranged_one (sources .cells)).cellDeltaMv

theorem ranged_firmware (scanner : Bool) (io : ScanIo) (es : List BatteryLoop.Event) :
    Ranged (run BatteryLoop.step (BatteryLoop.setup scanner io) es).battery.data := by
  obtain ⟨sources, -, ⟨⟨_, _, _, _, hp⟩, -⟩, -⟩ := (LiTimeBLEProvider.firmware_reading scanner io es).each
  rw [hp, ranged_flags]
  exact ranged_recordOf sources

namespace Dashboard

open JavaScript Lib.Binary64

/-! ## What a status shows -/

/-- The page of a battery that is connected and valid: each reading as exact as its place allows. -/
structure LiveView (view : View) (p : BatteryData) : Prop where
  validity : view.validity = text "Live reading" ∧ view.offlineVisible = false
  soc : view.soc = numberText (min 100 (p.soc.toNat : ℤ))
  voltage : ShowsNumber view.voltage p.voltage (1 / 200)
  current : ShowsNumber view.current p.current (1 / 200)
  power : ShowsNumber view.power p.power (1 / 2 + 1 / 100)
  capacity : ∃ remaining capacity, view.capacity = remaining ++ text " / " ++ capacity ++ text " Ah" ∧
    ShowsNumber remaining p.remainingAh (1 / 20 + 1 / 100) ∧ ShowsNumber capacity p.capacityAh (1 / 20 + 1 / 100)
  cellCount : view.cellCount = numberText p.cellCount ++ text " cells"
  cellDelta : ∃ t, view.cellDelta = t ++ text " mV" ∧ ShowsNumber t p.cellDeltaMv (1 / 20)
  minCell : ∃ t, view.minCell = t ++ text " V" ∧ ShowsNumber t p.minCell (1 / 2000)
  maxCell : ∃ t, view.maxCell = t ++ text " V" ∧ ShowsNumber t p.maxCell (1 / 2000)
  cellTemp : ∃ t, view.cellTemp = t ++ text " °C" ∧ ShowsNumber t p.cellTemp (1 / 20)
  mosfetTemp : ∃ t, view.mosfetTemp = t ++ text " °C" ∧ ShowsNumber t p.mosfetTemp (1 / 20)

/-- The page of any other battery: no number but in the list of cells. -/
structure BlankView (view : View) (p : BatteryData) : Prop where
  validity : view.validity = (if p.connected then text "Waiting for telemetry" else text "Battery disconnected") ∧
    view.offlineVisible = true
  readings : ∀ t ∈ [view.soc, view.voltage, view.current, view.power, view.capacity, view.cellCount, view.cellDelta,
    view.minCell, view.maxCell, view.cellTemp, view.mosfetTemp], t = text "—"
  socBar : view.socBar = text "0%"

/-- One item for each cell in use, numbered from one, live or not. -/
def CellsShown (view : View) (p : BatteryData) : Prop :=
  view.cells.length = p.cellCount ∧ ∀ (i : Nat) (cell : ℚ), p.listed[i]? = some cell →
    ∃ t, view.cells[i]? = some (text "Cell " ++ numberText (i + 1) ++ text ": " ++ t ++ text " V") ∧
      ShowsNumber t cell (1 / 2000)

variable (js : Conversions) {p : BatteryData}

/-- A bound below 10^7 leaves room for three decimals. -/
theorem fits {x : ℚ} (h : |x| < 10 ^ 7) {decimals : Nat} (hd : decimals ≤ 3) :
    |x| * 10 ^ decimals + 1 / 2 < 2 ^ 52 := by
  have hpow : (10 : ℚ) ^ decimals ≤ 10 ^ 3 := pow_le_pow_right₀ (by norm_num) hd
  have hmul : |x| * 10 ^ decimals ≤ 10 ^ 7 * 10 ^ 3 := mul_le_mul h.le hpow (by positivity) (by norm_num)
  linarith

theorem shows_written {x error : ℚ} {decimals : Nat} (hx : |x| < 10 ^ 7) (hd : decimals ≤ 3)
    (herror : 1 / (2 * 10 ^ decimals) = error) :
    ShowsNumber (value js (some (.number (floatText x decimals))) decimals) x error := by
  subst herror
  exact shows_floatText js (fits hx hd) (hd.trans (by decide))

/-- A number with two decimals, shown with fewer. -/
theorem shows_coarser {x error : ℚ} {shown : Nat} (hx : |x| * 10 ^ 2 + 1 / 2 < 2 ^ 52)
    (herror : 1 / (2 * 10 ^ shown) = error) :
    ShowsNumber (value js (some (.number (floatText x 2))) shown) x (error + 1 / 100) := by
  subst herror
  have hshows := shows_rounded js hx (by decide) shown
  norm_num at hshows ⊢
  exact hshows

/-- A written natural number is a double. -/
theorem binary64_decimal {n : Nat} (h : n < 2 ^ 32) : binary64 (numberValue (decimal n)) = (n : ℤ) := by
  have habs : |(n : ℤ)| < 2 ^ 53 := by
    rw [Nat.abs_cast]
    exact_mod_cast h.trans (by norm_num)
  rw [numberValue_decimal, ← Int.cast_natCast, binary64_intCast habs]

theorem double_decimal {n : Nat} (h : n < 2 ^ 32) : double (decimal n) = some ((n : ℤ) : ℚ) := by
  have hlt : |((n : ℤ) : ℚ)| < 2 ^ 1024 := by
    rw [Int.cast_natCast, Nat.abs_cast]
    exact (by exact_mod_cast h : (n : ℚ) < 2 ^ 32).trans (pow_lt_pow_right₀ (by norm_num) (by norm_num))
  have hfinite : isFinite ((n : ℤ) : ℚ) = true := decide_eq_true hlt
  rw [double, binary64_decimal h, if_pos hfinite]

theorem numberToText_int {n : ℤ} (h : |n| < 10 ^ 21) : numberToText js n = numberText n := by
  have hlt : |(n : ℚ)| < 10 ^ 21 := by exact_mod_cast h
  rw [numberToText, if_pos ⟨Rat.den_intCast n, hlt⟩, Rat.num_intCast]

theorem templateText_decimal {n : Nat} (h : n < 2 ^ 32) :
    templateText js (some (.number (decimal n))) = numberText n := by
  have habs : |(n : ℤ)| < 10 ^ 21 := by
    rw [Nat.abs_cast]
    exact_mod_cast h.trans (by norm_num)
  rw [templateText, binary64_decimal h, numberToText_int js habs]

/-- The clamped state of charge, rounded. -/
theorem round_clamped (n : Nat) : round (max 0 (min 100 ((n : ℤ) : ℚ))) = min 100 (n : ℤ) := by
  have hnonneg : (0 : ℚ) ≤ min 100 ((n : ℤ) : ℚ) := le_min (by norm_num) (by positivity)
  have hcast : min 100 ((n : ℤ) : ℚ) = (min 100 (n : ℤ) : ℤ) := by push_cast; rfl
  rw [max_eq_right hnonneg, hcast, round_intCast]

theorem cellItems_length (index : Nat) (values : List Value) : (cellItems js index values).length = values.length := by
  induction values generalizing index with
  | nil => rfl
  | cons v values ih => rw [cellItems, List.length_cons, List.length_cons, ih]

theorem cellItems_getElem? (index : Nat) (values : List Value) (i : Nat) :
    (cellItems js index values)[i]? = values[i]?.map fun v =>
      text "Cell " ++ numberText ((index + i : Nat) + 1) ++ text ": " ++ value js (some v) 3 ++ text " V" := by
  induction values generalizing index i with
  | nil => rfl
  | cons v values ih =>
    cases i with
    | zero => rfl
    | succ i =>
      rw [cellItems, List.getElem?_cons_succ, ih, List.getElem?_cons_succ, Nat.add_right_comm, Nat.add_assoc index]

theorem cellsShown_status (h : Ranged p) (hcount : p.cellCount ≤ MAX_BATTERY_CELLS) :
    CellsShown (showBattery js (batteryValue p)) p := by
  have hcells : (showBattery js (batteryValue p)).cells =
      cellItems js 0 (p.listed.map fun cell => .number (floatText cell 3)) := rfl
  refine ⟨by rw [hcells, cellItems_length, List.length_map, length_listed hcount], fun i cell hcell => ?_⟩
  have hmem : cell ∈ List.ofFn p.cells := List.mem_of_mem_take (List.mem_of_getElem? hcell)
  obtain ⟨slot, rfl⟩ := List.mem_ofFn.1 hmem
  have hfits := fits ((h.cells slot).trans (by norm_num)) (Nat.le_refl 3)
  refine ⟨value js (some (.number (floatText (p.cells slot) 3))) 3, ?_, ?_⟩
  · rw [hcells, cellItems_getElem?, List.getElem?_map, hcell, Option.map_some, Option.map_some, Nat.zero_add]
  · have hshows := shows_floatText js hfits (by norm_num)
    norm_num at hshows ⊢
    exact hshows

theorem liveView_status (h : Ranged p) (hcount : p.cellCount ≤ MAX_BATTERY_CELLS)
    (hlive : p.connected = true ∧ p.valid = true) : LiveView (showBattery js (batteryValue p)) p := by
  have hgate : (isTrue ((batteryValue p).get (ascii "connected")) && isTrue ((batteryValue p).get (ascii "valid"))) =
      true := by
    have hflags : (isTrue ((batteryValue p).get (ascii "connected")) &&
        isTrue ((batteryValue p).get (ascii "valid"))) = (p.connected && p.valid) := rfl
    rw [hflags, hlive.1, hlive.2]
    rfl
  have hsoc := double_decimal (p.soc.toNat_lt.trans (by norm_num : 2 ^ 8 < 2 ^ 32))
  have hcells : p.cellCount < 2 ^ 32 := hcount.trans_lt (by decide)
  simp only [showBattery, hgate, if_true, Bool.not_true]
  constructor
  · exact ⟨rfl, rfl⟩
  · have hread : toNumber js ((batteryValue p).get (ascii "soc")) = some ((p.soc.toNat : ℤ) : ℚ) := hsoc
    rw [hread]
    exact congrArg numberText (round_clamped p.soc.toNat)
  · exact shows_written js h.voltage_lt (by decide) (by norm_num)
  · exact shows_written js h.current_lt (by decide) (by norm_num)
  · exact shows_coarser js h.power_fits (by norm_num)
  · exact ⟨_, _, rfl, shows_coarser js (fits h.remainingAh (by decide)) (by norm_num),
      shows_coarser js (fits h.capacityAh (by decide)) (by norm_num)⟩
  · have hread : toNumber js ((batteryValue p).get (ascii "cellCount")) = some ((p.cellCount : ℤ) : ℚ) :=
      double_decimal hcells
    have htext : templateText js ((batteryValue p).get (ascii "cellCount")) = numberText p.cellCount :=
      templateText_decimal js hcells
    simp only [hread, htext, Option.isSome_some, if_true]
  · exact ⟨_, rfl, shows_written js h.cellDeltaMv (by decide) (by norm_num)⟩
  · exact ⟨_, rfl, shows_written js h.minCell (by decide) (by norm_num)⟩
  · exact ⟨_, rfl, shows_written js h.maxCell (by decide) (by norm_num)⟩
  · exact ⟨_, rfl, shows_written js h.cellTemp (by decide) (by norm_num)⟩
  · exact ⟨_, rfl, shows_written js h.mosfetTemp (by decide) (by norm_num)⟩

theorem blankView_status (hblank : ¬ (p.connected = true ∧ p.valid = true)) :
    BlankView (showBattery js (batteryValue p)) p := by
  have hconnected : isTrue ((batteryValue p).get (ascii "connected")) = p.connected := rfl
  have hvalid : isTrue ((batteryValue p).get (ascii "valid")) = p.valid := rfl
  have hgate : (p.connected && p.valid) = false := by
    rw [Bool.eq_false_iff, ne_eq, Bool.and_eq_true]
    exact hblank
  have hzero : numberToText js 0 = text "0" := by
    have h0 := numberToText_int js (n := 0) (by norm_num)
    rw [Int.cast_zero] at h0
    rw [h0]
    rfl
  simp only [showBattery, hconnected, hvalid, hgate, Bool.false_eq_true, if_false, Bool.not_false]
  constructor
  · exact ⟨rfl, rfl⟩
  · simp
  · rw [hzero]
    rfl

/-- What the estimator is handed: each number within one unit of the decimals it is written with. -/
structure HandedOver (battery : Battery) (p : BatteryData) : Prop where
  connected : battery.connected = p.connected
  valid : battery.valid = p.valid
  current : ∃ x, battery.current = some x ∧ |x - p.current| ≤ 1 / 100
  remainingAh : ∃ x, battery.remainingAh = some x ∧ |x - p.remainingAh| ≤ 1 / 100
  capacityAh : ∃ x, battery.capacityAh = some x ∧ |x - p.capacityAh| ≤ 1 / 100
  updatedAt : battery.updatedAt = some ((p.updatedAt.toNat : ℤ) : ℚ)

theorem handedOver_status (h : Ranged p) : HandedOver (estimatorBattery (batteryValue p)) p := by
  have hread : ∀ {x : ℚ}, |x| < 10 ^ 7 → ∃ y, double (floatText x 2) = some y ∧ |y - x| ≤ 1 / 100 := by
    intro x hx
    have hclose := abs_double_sub_le (fits hx (by decide : 2 ≤ 3)) (by decide)
    norm_num at hclose
    exact ⟨_, double_floatText (fits hx (by decide)) (by decide), by norm_num; exact hclose⟩
  exact ⟨rfl, rfl, hread h.current_lt, hread h.remainingAh, hread h.capacityAh, double_decimal p.updatedAt.toNat_lt⟩

theorem onMessage_status (p : BatteryData) : onMessage js (RemoteDashboard.statusText p) =
    some (showBattery js (batteryValue p), estimatorBattery (batteryValue p)) := by
  rw [onMessage, RemoteDashboard.parse_statusText]
  rfl

/-- In every state of the firmware a request is answered with one document, and
the page that gets it shows every cell, and the other readings exactly when the
battery is connected and valid; they are then those of notifications, and of one
where no notification is decoded between two reads of a sync. -/
theorem status_shows_battery (host token : Bytes) (scanner : Bool) (io : ScanIo) (es : List BatteryLoop.Event) :
    let p := (Runs.run BatteryLoop.step (BatteryLoop.setup scanner io) es).battery.data
    let ops := BatteryLoop.firmwareOps scanner io es
    ∃ document view battery,
      (RemoteDashboard.configuredWith host token).handleWebSocketEvent p .text RemoteDashboard.getStatus =
        some [document] ∧
      onMessage js document = some (view, battery) ∧ HandedOver battery p ∧ CellsShown view p ∧
      (p.connected = true ∧ p.valid = true →
        LiveView view p ∧ LiTimeBLEProvider.Notified ops p) ∧
      (¬ (p.connected = true ∧ p.valid = true) → BlankView view p) := by
  have hcount := cellCount_firmware scanner io es
  have hranged := ranged_firmware scanner io es
  have hanswer := RemoteDashboard.handleWebSocketEvent_text hcount host token RemoteDashboard.getStatus
  rw [if_pos (by decide +kernel)] at hanswer
  refine ⟨_, _, _, hanswer, onMessage_status js _, handedOver_status hranged, cellsShown_status js hranged hcount,
    fun hlive => ⟨liveView_status js hranged hcount hlive, ?_⟩, blankView_status js⟩
  exact (LiTimeBLEProvider.firmware_reading scanner io es).notified hlive.2

/-- The boot finds a battery, which answers the first query. -/
def answeringScan : ScanIo where
  now := 900
  found := some (ascii "c8:47:80:0f:1a:02")
  sync := { update := ⟨1001, 1001, [], true⟩, beforeSync := [.notify 0 discharging], now := 1010 }

/-- A status has no member that these are asked for but objects. -/
def ofObjects : Conversions where
  number _ := none
  template _ := text "[object Object]"
  numberText x := toFixed x 1

theorem status_shows_battery_live :
    let p := (Runs.run BatteryLoop.step (BatteryLoop.setup true answeringScan) []).battery.data
    ∃ view, LiveView view p ∧ ∃ n, 104 ≤ n.length ∧ LiTimeBLEProvider.ReadingOf n p := by
  obtain ⟨_, view, _, -, -, -, -, hlive, -⟩ :=
    status_shows_battery ofObjects (ascii "host") (ascii "t") true answeringScan []
  obtain ⟨hview, hnotified⟩ := hlive (by decide +kernel)
  obtain ⟨n, -, hlength, hreading⟩ := hnotified.whole (by decide +kernel)
  exact ⟨view, hview, n, hlength, hreading⟩

end Dashboard

end LiTimeGateway
