import LiTimeGateway.Ble.LiTimeBLEProvider
import Mathlib.Data.List.GetD
import Mathlib.Data.Nat.Digits.Defs
/-!
# From a notification to the published data

`readNotification` and `copyData` follow `parseNotificationData` and `syncData`
statement by statement: a byte is asked for by its index and may not be there,
words are put together in integers of their width, and the loops write into the
array of the data published before. They compute what the model does in one
piece (`readNotification_eq`, `copyData_eq`).

`PublishedFrom` is the layout of a notification: little-endian numbers at fixed
offsets, sixteen slots for cells.
-/

namespace LiTimeGateway.Decoding

open LiTimeBLEProvider

/-! ## Reading -/

/-- `(data[i + 1] << 8) | data[i]`. -/
def readU16 (data : Bytes) (i : Nat) : Option UInt16 := do
  let high ← data[i + 1]?
  let low ← data[i]?
  return high.toUInt16 <<< 8 ||| low.toUInt16

def readU32 (data : Bytes) (i : Nat) : Option UInt32 := do
  let b0 ← data[i]?
  let b1 ← data[i + 1]?
  let b2 ← data[i + 2]?
  let b3 ← data[i + 3]?
  return b0.toUInt32 ||| b1.toUInt32 <<< 8 ||| b2.toUInt32 <<< 16 ||| b3.toUInt32 <<< 24

def readBytes (data : Bytes) : List Nat → Option Bytes
  | [] => some []
  | i :: rest => do
    let byte ← data[i]?
    let bytes ← readBytes data rest
    return byte :: bytes

/-- The indices of both loops over a range of bytes, from its end to its start. -/
def backwards (start length : Nat) : List Nat := (List.range length).map fun index => start + length - 1 - index

/-- The loop over the slots; `cells` have been pushed. -/
def readCells (data : Bytes) : List Nat → (cells : List ℚ) → Option (List ℚ)
  | [], cells => some cells
  | index :: rest, cells => do
    let low ← data[index]?
    let high ← data[index + 1]?
    if low = 0 && high = 0 then readCells data rest cells
    else
      let millivolts ← readU16 data index
      readCells data rest (cells ++ [(millivolts.toNat : ℚ) / 1000])

/-- `none` is a read behind the end. -/
def readNotification (currentData : BMSData) (data : Bytes) : Option BMSData :=
  if data.length < 104 then some currentData
  else do
    let totalVoltage ← readU32 data 8
    let cellVoltageSum ← readU32 data 12
    let current ← readU32 data 48
    let mosfetTemp ← readU16 data 54
    let cellTemp ← readU16 data 52
    let remainingAh ← readU16 data 62
    let fullCapacityAh ← readU16 data 64
    let protectionState ← readBytes data (backwards 76 4)
    let heatState ← readBytes data (backwards 68 4)
    let balanceMemory ← readBytes data (backwards 72 4)
    let failureState ← readBytes data (backwards 80 3)
    let balancingState ← readBytes data (backwards 84 4)
    let batteryState ← readBytes data (backwards 88 2)
    let soc ← readU16 data 90
    let soh ← readU32 data 92
    let dischargesCount ← readU32 data 96
    let dischargesAhCount ← readU32 data 100
    let cellVoltages ← readCells data (List.range' 16 16 2) []
    return {
      totalVoltage := totalVoltage.toNat / 1000
      cellVoltageSum := cellVoltageSum.toNat / 1000
      current := current.toInt32.toInt / 1000
      mosfetTemp := mosfetTemp.toInt16.toInt
      cellTemp := cellTemp.toInt16.toInt
      remainingAh := remainingAh.toNat / 100
      fullCapacityAh := fullCapacityAh.toNat / 100
      protectionState := protectionState.flatMap hexByte
      heatState := heatState.flatMap hexByte
      balanceMemory := balanceMemory.flatMap hexByte
      failureState := failureState.flatMap hexByte
      balancingState := balancingState.flatMap fun b =>
        ((List.range 8).reverse.map fun bit => if b.toNat.testBit bit then ch '1' else ch '0')
      batteryState := batteryState.flatMap hexByte
      soc := soc.toUInt8
      soh := decimal soh.toNat ++ ascii "%"
      dischargesCount := dischargesCount.toNat
      dischargesAhCount := dischargesAhCount.toNat / 1000
      cellVoltages }

/-! ## Copying -/

abbrev Cells := Fin MAX_BATTERY_CELLS → ℚ

def setCell (array : Cells) (i : Nat) (cell : ℚ) : Cells := fun j => if j.val = i then cell else array j

def getCell (array : Cells) (i : Nat) : ℚ := if h : i < MAX_BATTERY_CELLS then array ⟨i, h⟩ else 0

/-- A loop that writes to each of these places. -/
def writeLoop (cell : Nat → ℚ) (indices : List Nat) (array : Cells) : Cells :=
  indices.foldl (fun array i => setCell array i (cell i)) array

/-- The loop for the least and the greatest cell. -/
def rangeLoop (array : Cells) : List Nat → (minCell maxCell : ℚ) → ℚ × ℚ
  | [], minCell, maxCell => (minCell, maxCell)
  | i :: rest, minCell, maxCell =>
    let minCell := if getCell array i < minCell then getCell array i else minCell
    let maxCell := if getCell array i > maxCell then getCell array i else maxCell
    rangeLoop array rest minCell maxCell

/-- `data` is what was published before. -/
def copyData (data : BatteryData) (bms : LiTimeNimBLEClient) (now : UInt32) : BatteryData :=
  let data := { data with
    connected := bms.isConnected
    simulated := false
    voltage := bms.currentData.totalVoltage
    current := bms.currentData.current }
  let data := { data with power := data.voltage * data.current }
  let data := { data with
    soc := bms.currentData.soc
    remainingAh := bms.currentData.remainingAh
    capacityAh := bms.currentData.fullCapacityAh
    cellTemp := bms.currentData.cellTemp
    mosfetTemp := bms.currentData.mosfetTemp }
  let cells := bms.currentData.cellVoltages
  let cellCount := if cells.length > MAX_BATTERY_CELLS then MAX_BATTERY_CELLS else cells.length
  let array := writeLoop (fun i => cells.getD i 0) (List.range cellCount) data.cells
  let array := writeLoop (fun _ => 0) (List.range' cellCount (MAX_BATTERY_CELLS - cellCount)) array
  let data := { data with cellCount, cells := array }
  let data :=
    if cellCount > 0 then
      let (minCell, maxCell) := rangeLoop array (List.range' 1 (cellCount - 1)) (getCell array 0) (getCell array 0)
      { data with minCell, maxCell, cellDeltaMv := (maxCell - minCell) * 1000 }
    else { data with minCell := 0, maxCell := 0, cellDeltaMv := 0 }
  { data with valid := 0 < data.voltage && 0 < data.cellCount, updatedAt := now }

/-! ## The layout -/

/-- The number that `count` bytes at `offset` write, the lowest byte first. -/
def littleEndian (data : Bytes) (offset count : Nat) : Nat :=
  Nat.ofDigits 256 (((data.drop offset).take count).map UInt8.toNat)

/-- Read as two's complement of so many bits. -/
def signed (bits n : Nat) : ℤ := (BitVec.ofNat bits n).toInt

/-- The sixteen slots for cells, in millivolts. -/
def slots (data : Bytes) : List Nat := (List.range 16).map fun slot => littleEndian data (16 + 2 * slot) 2

def volts (millivolts : Nat) : ℚ := millivolts / 1000

/-- What a notification of at least 104 bytes publishes. -/
structure PublishedFrom (data : Bytes) (p : BatteryData) : Prop where
  voltage : p.voltage = littleEndian data 8 4 / 1000
  current : p.current = signed 32 (littleEndian data 48 4) / 1000
  power : p.power = p.voltage * p.current
  cellTemp : p.cellTemp = signed 16 (littleEndian data 52 2)
  mosfetTemp : p.mosfetTemp = signed 16 (littleEndian data 54 2)
  remainingAh : p.remainingAh = littleEndian data 62 2 / 100
  capacityAh : p.capacityAh = littleEndian data 64 2 / 100
  soc : littleEndian data 90 2 ≤ 100 → p.soc.toNat = littleEndian data 90 2
  cellCount : p.cellCount = (slots data).countP (· ≠ 0)
  cellCount_le : p.cellCount ≤ 16
  /-- The cells in the order of their slots, and nothing left of those before. -/
  cells : List.ofFn p.cells = ((slots data).filter (· ≠ 0)).map volts ++ List.replicate (16 - p.cellCount) 0
  minCell : 0 < p.cellCount → ∃ i, i.val < p.cellCount ∧ p.cells i = p.minCell
  minCell_le : ∀ i, i.val < p.cellCount → p.minCell ≤ p.cells i
  maxCell : 0 < p.cellCount → ∃ i, i.val < p.cellCount ∧ p.cells i = p.maxCell
  le_maxCell : ∀ i, i.val < p.cellCount → p.cells i ≤ p.maxCell
  cellDeltaMv : p.cellDeltaMv = 1000 * (p.maxCell - p.minCell)
  cellDeltaMv_nonneg : 0 ≤ p.cellDeltaMv
  empty : p.cellCount = 0 → p.minCell = 0 ∧ p.maxCell = 0 ∧ p.cellDeltaMv = 0
  valid : p.valid = true ↔ 0 < p.voltage ∧ 0 < p.cellCount

/-! ## Words

Shifting bytes into a word writes the number they are the digits of. -/

theorem or_shiftLeft {low : Nat} (high : Nat) {bits : Nat} (h : low < 2 ^ bits) :
    low ||| high <<< bits = high * 2 ^ bits + low := by
  rw [Nat.or_comm, ← Nat.shiftLeft_add_eq_or_of_lt h, Nat.shiftLeft_eq]

/-- One more byte above. -/
theorem digit_lt {high low bits : Nat} (hhigh : high < 2 ^ 8) (hlow : low < 2 ^ bits) :
    high * 2 ^ bits + low < 2 ^ (8 + bits) :=
  calc high * 2 ^ bits + low
    _ < high * 2 ^ bits + 2 ^ bits := Nat.add_lt_add_left hlow _
    _ = (high + 1) * 2 ^ bits := (Nat.succ_mul high _).symm
    _ ≤ 2 ^ 8 * 2 ^ bits := Nat.mul_le_mul_right _ hhigh
    _ = 2 ^ (8 + bits) := (Nat.pow_add 2 8 bits).symm

theorem toNat_word16 (high low : UInt8) :
    (high.toUInt16 <<< 8 ||| low.toUInt16).toNat = high.toNat * 2 ^ 8 + low.toNat := by
  have hbits : (8 : UInt16).toNat % 16 = 8 := rfl
  have hshift : high.toNat <<< 8 < 2 ^ 16 := by
    have hhigh := high.toNat_lt
    rw [Nat.shiftLeft_eq]
    omega
  rw [UInt16.toNat_or, UInt16.toNat_shiftLeft, UInt8.toNat_toUInt16, UInt8.toNat_toUInt16, hbits,
    Nat.mod_eq_of_lt hshift, Nat.or_comm, or_shiftLeft _ low.toNat_lt]

theorem shiftLeft_mod {b bits : Nat} (hb : b < 2 ^ 8) (hbits : bits ≤ 24) : b <<< bits % 2 ^ 32 = b <<< bits := by
  have hdigit := digit_lt hb (Nat.two_pow_pos bits)
  have hpow : 2 ^ (8 + bits) ≤ 2 ^ 32 := Nat.pow_le_pow_right two_pos (Nat.add_le_add_left hbits 8)
  rw [Nat.shiftLeft_eq]
  exact Nat.mod_eq_of_lt (hdigit.trans_le hpow)

theorem toNat_word32 (b0 b1 b2 b3 : UInt8) :
    (b0.toUInt32 ||| b1.toUInt32 <<< 8 ||| b2.toUInt32 <<< 16 ||| b3.toUInt32 <<< 24).toNat =
      (b3.toNat * 2 ^ 8 + b2.toNat) * 2 ^ 16 + (b1.toNat * 2 ^ 8 + b0.toNat) := by
  have h16 := digit_lt b1.toNat_lt b0.toNat_lt
  have h24 := digit_lt b2.toNat_lt h16
  have hbits8 : (8 : UInt32).toNat % 32 = 8 := rfl
  have hbits16 : (16 : UInt32).toNat % 32 = 16 := rfl
  have hbits24 : (24 : UInt32).toNat % 32 = 24 := rfl
  simp only [UInt32.toNat_or, UInt32.toNat_shiftLeft, UInt8.toNat_toUInt32, hbits8, hbits16, hbits24]
  rw [shiftLeft_mod b1.toNat_lt (by decide), shiftLeft_mod b2.toNat_lt (by decide),
    shiftLeft_mod b3.toNat_lt (by decide), or_shiftLeft _ b0.toNat_lt, or_shiftLeft _ h16, or_shiftLeft _ h24]
  ring

/-! ## What is read -/

variable (f : Frame)

theorem getElem?_frame {i : Nat} (h : i < 104) : f.data[i]? = some (f.byte ⟨i, h⟩) :=
  List.getElem?_eq_getElem (h.trans_le f.length_ge)

theorem readU16_frame (i : Nat) (h : i + 1 < 104 := by decide) :
    readU16 f.data i = some (UInt16.ofNat (f.u16 i h)) := by
  rw [readU16, getElem?_frame f h, getElem?_frame f (Nat.lt_of_succ_lt h), Frame.u16, ← toNat_word16,
    UInt16.ofNat_toNat]
  rfl

theorem readU32_frame (i : Nat) (h : i + 3 < 104 := by decide) :
    readU32 f.data i = some (UInt32.ofNat (f.littleEndianU32 i h)) := by
  have h2 : i + 2 < 104 := Nat.lt_of_succ_lt h
  have h1 : i + 1 < 104 := Nat.lt_of_succ_lt h2
  rw [readU32, getElem?_frame f h, getElem?_frame f h2, getElem?_frame f h1, getElem?_frame f (Nat.lt_of_succ_lt h1),
    Frame.littleEndianU32, Frame.u16, Frame.u16, ← toNat_word32, UInt32.ofNat_toNat]
  rfl

theorem u16_lt (i : Nat) (h : i + 1 < 104) : f.u16 i h < 2 ^ 16 :=
  digit_lt (UInt8.toNat_lt _) (UInt8.toNat_lt _)

theorem littleEndianU32_lt (i : Nat) (h : i + 3 < 104) : f.littleEndianU32 i h < 2 ^ 32 := by
  have hhigh := u16_lt f (i + 2) h
  have hlow := u16_lt f i (Nat.lt_of_succ_lt (Nat.lt_of_succ_lt h))
  unfold Frame.littleEndianU32
  omega

theorem toNat_u16 (i : Nat) (h : i + 1 < 104) : (UInt16.ofNat (f.u16 i h)).toNat = f.u16 i h :=
  UInt16.toNat_ofNat_of_lt' (u16_lt f i h)

theorem toNat_littleEndianU32 (i : Nat) (h : i + 3 < 104) :
    (UInt32.ofNat (f.littleEndianU32 i h)).toNat = f.littleEndianU32 i h :=
  UInt32.toNat_ofNat_of_lt' (littleEndianU32_lt f i h)

theorem signed_eq {bits n : Nat} (hbits : 0 < bits) (h : n < 2 ^ bits) : signed bits n = twosComplement bits n := by
  obtain ⟨k, rfl⟩ : ∃ k, bits = k + 1 := ⟨bits - 1, by omega⟩
  have hpow : (2 : Nat) ^ (k + 1) = 2 * 2 ^ k := Nat.pow_succ'
  rw [signed, twosComplement, BitVec.toInt_eq_toNat_cond, BitVec.toNat_ofNat, Nat.mod_eq_of_lt h, Nat.add_sub_cancel,
    hpow]
  simp only [Nat.mul_lt_mul_left two_pos]
  push_cast
  rw [pow_succ']

theorem toInt_u16 (i : Nat) (h : i + 1 < 104) :
    (UInt16.ofNat (f.u16 i h)).toInt16.toInt = twosComplement 16 (f.u16 i h) :=
  signed_eq (by decide) (u16_lt f i h)

theorem toInt_u32 (i : Nat) (h : i + 3 < 104) :
    (UInt32.ofNat (f.littleEndianU32 i h)).toInt32.toInt = twosComplement 32 (f.littleEndianU32 i h) :=
  signed_eq (by decide) (littleEndianU32_lt f i h)

theorem readBytes_map {indices : List Nat} (data : Bytes) (h : ∀ i ∈ indices, i < data.length) :
    readBytes data indices = some (indices.map fun i => data.getD i 0) := by
  induction indices with
  | nil => rfl
  | cons i rest ih =>
    have hi := h i List.mem_cons_self
    rw [readBytes, ih fun j hj => h j (List.mem_cons_of_mem i hj), List.getElem?_eq_getElem hi]
    simp [hi]

/-- From the end to the start is the range reversed. -/
theorem backwards_map (data : Bytes) {start length : Nat} (h : start + length ≤ data.length) :
    (backwards start length).map (fun i => data.getD i 0) = ((data.drop start).take length).reverse := by
  have hlength : ((data.drop start).take length).length = length := by
    rw [List.length_take, List.length_drop]
    omega
  apply List.ext_getElem
  · rw [List.length_reverse, hlength, backwards, List.length_map, List.length_map, List.length_range]
  · intro i hi hi'
    rw [List.length_reverse, hlength] at hi'
    simp only [backwards, List.getElem_map, List.getElem_range, List.getElem_reverse, List.getElem_take,
      List.getElem_drop, hlength]
    rw [List.getD_eq_getElem _ 0 (by omega)]
    congr 1
    omega

theorem readBytes_backwards {start length : Nat} (h : start + length ≤ 104) :
    readBytes f.data (backwards start length) = some ((f.data.drop start).take length).reverse := by
  have hlength := f.length_ge
  rw [readBytes_map, backwards_map f.data (h.trans hlength)]
  intro i hi
  obtain ⟨index, hindex, rfl⟩ := List.mem_map.1 hi
  rw [List.mem_range] at hindex
  omega

/-- The voltage in the slot at `i`, if there is one. -/
def cellAt (data : Bytes) (i : Nat) : Option ℚ :=
  if littleEndian data i 2 = 0 then none else some (volts (littleEndian data i 2))

theorem littleEndian_succ {data : Bytes} {i : Nat} (h : i < data.length) (count : Nat) :
    littleEndian data i (count + 1) = data[i].toNat + 256 * littleEndian data (i + 1) count := by
  rw [littleEndian, List.drop_eq_getElem_cons h, List.take_succ_cons, List.map_cons, Nat.ofDigits_cons]
  rfl

theorem littleEndian_zero (data : Bytes) (i : Nat) : littleEndian data i 0 = 0 := rfl

theorem littleEndian_u16 (i : Nat) (h : i + 1 < 104) : littleEndian f.data i 2 = f.u16 i h := by
  have hlength := f.length_ge
  rw [littleEndian_succ (by omega), littleEndian_succ (by omega), littleEndian_zero]
  simp only [Frame.u16, Frame.byte, List.get_eq_getElem]
  omega

theorem littleEndian_u32 (i : Nat) (h : i + 3 < 104) : littleEndian f.data i 4 = f.littleEndianU32 i h := by
  have hlength := f.length_ge
  rw [littleEndian_succ (by omega), littleEndian_succ (by omega), littleEndian_u16 f (i + 2) h,
    Frame.littleEndianU32, Frame.u16, Frame.u16]
  simp only [Frame.byte, List.get_eq_getElem]
  omega

theorem u16_eq_zero (i : Nat) (h : i + 1 < 104) :
    f.u16 i h = 0 ↔ f.byte ⟨i, Nat.lt_of_succ_lt h⟩ = 0 ∧ f.byte ⟨i + 1, h⟩ = 0 := by
  rw [← UInt8.toNat_inj, ← UInt8.toNat_inj, Frame.u16, UInt8.toNat_zero]
  omega

theorem readCells_filterMap {indices : List Nat} (h : ∀ i ∈ indices, i + 1 < 104) (cells : List ℚ) :
    readCells f.data indices cells = some (cells ++ indices.filterMap (cellAt f.data)) := by
  induction indices generalizing cells with
  | nil => simp [readCells]
  | cons i rest ih =>
    have hi := h i List.mem_cons_self
    have ih := ih fun j hj => h j (List.mem_cons_of_mem i hj)
    rw [readCells, getElem?_frame f (Nat.lt_of_succ_lt hi), getElem?_frame f hi, List.filterMap_cons, cellAt,
      littleEndian_u16 f i hi]
    have hzero := u16_eq_zero f i hi
    by_cases h0 : f.u16 i hi = 0
    · obtain ⟨hlow, hhigh⟩ := hzero.1 h0
      simp [h0, hlow, hhigh, ih]
    · have hbytes := mt hzero.2 h0
      rw [if_neg h0, readU16_frame f i hi]
      simp [hbytes, ih, toNat_u16 f i hi, volts, -UInt16.toNat_ofNat']

theorem cellVoltages_filterMap : f.cellVoltages = (List.range' 16 16 2).filterMap (cellAt f.data) := by
  have hindices : List.range' 16 16 2 = (List.finRange 16).map fun slot => 16 + 2 * slot.val := by decide
  rw [Frame.cellVoltages, hindices, List.filterMap_map]
  congr 1
  funext slot
  simp only [Function.comp_apply, cellAt, volts, littleEndian_u16 f (16 + 2 * slot.val) (by omega)]

theorem readNotification_frame (currentData : BMSData) : readNotification currentData f.data = some f.decode := by
  rw [readNotification, if_neg (Nat.not_lt.2 f.length_ge)]
  rw [readU32_frame f 8, readU32_frame f 12, readU32_frame f 48, readU16_frame f 54, readU16_frame f 52,
    readU16_frame f 62, readU16_frame f 64, readBytes_backwards f (by decide), readBytes_backwards f (by decide),
    readBytes_backwards f (by decide), readBytes_backwards f (by decide), readBytes_backwards f (by decide),
    readBytes_backwards f (by decide), readU16_frame f 90, readU32_frame f 92, readU32_frame f 96,
    readU32_frame f 100, readCells_filterMap f (by decide)]
  simp only [Option.bind_eq_bind, Option.bind_some, Option.pure_def, toNat_u16, toNat_littleEndianU32]
  rw [toInt_u16 f 54 (by decide), toInt_u16 f 52 (by decide), toInt_u32 f 48 (by decide), UInt16.toUInt8_ofNat',
    Frame.decode, cellVoltages_filterMap]
  rfl

theorem readNotification_short (currentData : BMSData) {data : Bytes} (h : data.length < 104) :
    readNotification currentData data = some currentData := if_pos h

/-- No read is behind the end, and what is read is decoded. -/
theorem readNotification_eq (currentData : BMSData) (data : Bytes) :
    readNotification currentData data = some (parseNotificationData currentData data) := by
  rcases Nat.lt_or_ge data.length 104 with h | h
  · rw [readNotification_short currentData h, parseNotificationData, dif_neg (Nat.not_le.2 h)]
  · rw [parseNotificationData, dif_pos h]
    exact readNotification_frame ⟨data, h⟩ currentData

/-! ## What is copied -/

theorem writeLoop_apply (cell : Nat → ℚ) (indices : List Nat) (array : Cells) (j : Fin MAX_BATTERY_CELLS) :
    writeLoop cell indices array j = if j.val ∈ indices then cell j.val else array j := by
  induction indices generalizing array with
  | nil => rfl
  | cons i rest ih =>
    have hloop : writeLoop cell (i :: rest) array = writeLoop cell rest (setCell array i (cell i)) := rfl
    rw [hloop, ih, setCell]
    by_cases hrest : j.val ∈ rest
    · rw [if_pos hrest, if_pos (List.mem_cons_of_mem i hrest)]
    · by_cases hj : j.val = i
      · simp [hj]
      · simp [hrest, hj]

/-- Both loops leave nothing of the array before. -/
theorem written_cells (cells : List ℚ) (array : Cells) {count : Nat}
    (h : count = (cells.take MAX_BATTERY_CELLS).length) :
    writeLoop (fun _ => 0) (List.range' count (MAX_BATTERY_CELLS - count))
        (writeLoop (fun i => cells.getD i 0) (List.range count) array) =
      fun j => (cells.take MAX_BATTERY_CELLS).getD j.val 0 := by
  funext j
  have hj := j.isLt
  rw [writeLoop_apply, writeLoop_apply]
  simp only [List.mem_range'_1, List.mem_range]
  rw [List.length_take] at h
  rcases Nat.lt_or_ge j.val count with hlt | hge
  · rw [if_neg (by omega), if_pos hlt]
    simp [hj]
  · rw [if_pos (by omega), List.getD_eq_default _ 0 (by rwa [List.length_take, ← h])]

theorem rangeLoop_eq (array : Cells) (indices : List Nat) (minCell maxCell : ℚ) :
    rangeLoop array indices minCell maxCell =
      ((indices.map (getCell array)).foldl (fun least cell => if cell < least then cell else least) minCell,
        (indices.map (getCell array)).foldl (fun most cell => if cell > most then cell else most) maxCell) := by
  induction indices generalizing minCell maxCell with
  | nil => rfl
  | cons i rest ih => rw [rangeLoop, ih]; rfl

theorem foldl_least (cells : List ℚ) (a : ℚ) :
    cells.foldl (fun least cell => if cell < least then cell else least) a = cells.foldl min a := by
  congr 1
  funext least cell
  rw [min_comm, min_def_lt]

theorem foldl_most (cells : List ℚ) (a : ℚ) :
    cells.foldl (fun most cell => if cell > most then cell else most) a = cells.foldl max a := by
  congr 1
  funext most cell
  rw [max_def_lt]

/-- The cells behind the first, read back from the array. -/
theorem getCell_tail {cells : List ℚ} (h : cells.length ≤ MAX_BATTERY_CELLS) :
    (List.range' 1 (cells.length - 1)).map (getCell fun j => cells.getD j.val 0) = cells.tail := by
  apply List.ext_getElem
  · simp
  · intro i hi hi'
    rw [List.length_tail] at hi'
    have hcell : i + 1 < MAX_BATTERY_CELLS := by omega
    have hlast : i + 1 < cells.length := by omega
    simp [getCell, hcell, hlast, Nat.add_comm 1 i]

theorem copyData_eq (data : BatteryData) (bms : LiTimeNimBLEClient) (now : UInt32) :
    copyData data bms now = published bms now := by
  have hcount : (if bms.currentData.cellVoltages.length > MAX_BATTERY_CELLS then MAX_BATTERY_CELLS
      else bms.currentData.cellVoltages.length) = (bms.currentData.cellVoltages.take MAX_BATTERY_CELLS).length := by
    rw [List.length_take]
    split <;> omega
  have hlength := List.length_take_le MAX_BATTERY_CELLS bms.currentData.cellVoltages
  unfold copyData published
  simp only [hcount, written_cells _ _ rfl]
  generalize bms.currentData.cellVoltages.take MAX_BATTERY_CELLS = cells at hlength
  cases cells with
  | nil => simp
  | cons first rest =>
    have hfirst : getCell (fun j => (first :: rest).getD j.val 0) 0 = first := rfl
    have htail := getCell_tail hlength
    rw [rangeLoop_eq, htail, hfirst]
    simp

/-! ## What is published -/

section Published

variable (bms : LiTimeNimBLEClient) (now : UInt32)

theorem mem_taken (cell : ℚ) : cell ∈ bms.currentData.cellVoltages.take MAX_BATTERY_CELLS ↔
    ∃ i, i.val < (published bms now).cellCount ∧ (published bms now).cells i = cell := by
  constructor
  · intro h
    obtain ⟨i, hi, rfl⟩ := List.getElem_of_mem h
    refine ⟨⟨i, hi.trans_le (List.length_take_le _ _)⟩, hi, ?_⟩
    exact List.getD_eq_getElem _ 0 hi
  · rintro ⟨i, hi, rfl⟩
    have hcell : (published bms now).cells i = _ := List.getD_eq_getElem _ 0 hi
    rw [hcell]
    exact List.getElem_mem hi

theorem least_of_cells {cells : List ℚ} (h : cells ≠ []) :
    cells.min? = some (cells.foldl (fun least cell => if cell < least then cell else least) (cells.headD 0)) := by
  obtain ⟨first, rest, rfl⟩ := List.exists_cons_of_ne_nil h
  rw [foldl_least, List.headD_cons, List.foldl_cons, min_self]
  rfl

theorem most_of_cells {cells : List ℚ} (h : cells ≠ []) :
    cells.max? = some (cells.foldl (fun most cell => if cell > most then cell else most) (cells.headD 0)) := by
  obtain ⟨first, rest, rfl⟩ := List.exists_cons_of_ne_nil h
  rw [foldl_most, List.headD_cons, List.foldl_cons, max_self]
  rfl

theorem published_minCell (h : 0 < (published bms now).cellCount) :
    (∃ i, i.val < (published bms now).cellCount ∧ (published bms now).cells i = (published bms now).minCell) ∧
    ∀ i, i.val < (published bms now).cellCount → (published bms now).minCell ≤ (published bms now).cells i := by
  obtain ⟨hmem, hle⟩ := List.min?_eq_some_iff.1 (least_of_cells (List.ne_nil_of_length_pos h))
  exact ⟨(mem_taken bms now _).1 hmem, fun i hi => hle _ ((mem_taken bms now _).2 ⟨i, hi, rfl⟩)⟩

theorem published_maxCell (h : 0 < (published bms now).cellCount) :
    (∃ i, i.val < (published bms now).cellCount ∧ (published bms now).cells i = (published bms now).maxCell) ∧
    ∀ i, i.val < (published bms now).cellCount → (published bms now).cells i ≤ (published bms now).maxCell := by
  obtain ⟨hmem, hle⟩ := List.max?_eq_some_iff.1 (most_of_cells (List.ne_nil_of_length_pos h))
  exact ⟨(mem_taken bms now _).1 hmem, fun i hi => hle _ ((mem_taken bms now _).2 ⟨i, hi, rfl⟩)⟩

theorem published_empty (h : (published bms now).cellCount = 0) :
    (published bms now).minCell = 0 ∧ (published bms now).maxCell = 0 ∧ (published bms now).cellDeltaMv = 0 := by
  have hnil : bms.currentData.cellVoltages.take MAX_BATTERY_CELLS = [] := List.length_eq_zero_iff.1 h
  simp [published, hnil]

theorem cellDeltaMv_nonneg : 0 ≤ (published bms now).cellDeltaMv := by
  rcases Nat.eq_zero_or_pos (published bms now).cellCount with h | h
  · exact (published_empty bms now h).2.2.ge
  · obtain ⟨i, hi, hmin⟩ := (published_minCell bms now h).1
    have hle : (published bms now).minCell ≤ (published bms now).maxCell :=
      hmin ▸ (published_maxCell bms now h).2 i hi
    exact mul_nonneg (sub_nonneg.2 hle) (by norm_num)

theorem published_valid_iff : (published bms now).valid = true ↔
    0 < (published bms now).voltage ∧ 0 < (published bms now).cellCount := by
  have hvalid : (published bms now).valid =
      (decide (0 < (published bms now).voltage) && decide (0 < (published bms now).cellCount)) := rfl
  rw [hvalid, Bool.and_eq_true, decide_eq_true_eq, decide_eq_true_eq]

/-- The array holds the cells and then zeros. -/
theorem published_ofFn : List.ofFn (published bms now).cells =
    bms.currentData.cellVoltages.take MAX_BATTERY_CELLS ++
      List.replicate (MAX_BATTERY_CELLS - (published bms now).cellCount) 0 := by
  have hlength := List.length_take_le MAX_BATTERY_CELLS bms.currentData.cellVoltages
  have hcells : (published bms now).cells =
      fun i => (bms.currentData.cellVoltages.take MAX_BATTERY_CELLS).getD i.val 0 := rfl
  have hcount : (published bms now).cellCount = (bms.currentData.cellVoltages.take MAX_BATTERY_CELLS).length := rfl
  rw [hcells, hcount]
  generalize bms.currentData.cellVoltages.take MAX_BATTERY_CELLS = cells at hlength
  apply List.ext_getElem
  · rw [List.length_ofFn, List.length_append, List.length_replicate]
    omega
  · intro i hi hi'
    rw [List.getElem_ofFn, List.getElem_append]
    split
    · exact List.getD_eq_getElem _ 0 ‹_›
    · rw [List.getElem_replicate]
      exact List.getD_eq_default _ 0 (Nat.le_of_not_lt ‹_›)

end Published

theorem filterMap_cellAt (data : Bytes) (indices : List Nat) :
    indices.filterMap (cellAt data) = ((indices.map fun i => littleEndian data i 2).filter (· ≠ 0)).map volts := by
  induction indices with
  | nil => rfl
  | cons i rest ih =>
    rw [List.filterMap_cons, List.map_cons, cellAt, ih]
    by_cases h : littleEndian data i 2 = 0 <;> simp [h]

theorem cellVoltages_slots : f.cellVoltages = ((slots f.data).filter (· ≠ 0)).map volts := by
  have hindices : List.range' 16 16 2 = (List.range 16).map fun slot => 16 + 2 * slot := by decide
  rw [cellVoltages_filterMap, filterMap_cellAt, hindices, List.map_map]
  rfl

theorem publishedFrom_frame {bms : LiTimeNimBLEClient} (h : bms.currentData = f.decode) (now : UInt32) :
    PublishedFrom f.data (published bms now) := by
  have hcells : bms.currentData.cellVoltages = _ := (congrArg BMSData.cellVoltages h).trans (cellVoltages_slots f)
  have hcount : bms.currentData.cellVoltages.length = (slots f.data).countP (· ≠ 0) := by
    rw [hcells, List.length_map, List.countP_eq_length_filter]
  have hslots : (slots f.data).countP (· ≠ 0) ≤ 16 := List.countP_le_length
  have htake : bms.currentData.cellVoltages.take MAX_BATTERY_CELLS = bms.currentData.cellVoltages :=
    List.take_of_length_le (hcount ▸ hslots)
  have hcellCount : (published bms now).cellCount = (slots f.data).countP (· ≠ 0) :=
    (congrArg List.length htake).trans hcount
  have hofFn := published_ofFn bms now
  rw [htake, hcells] at hofFn
  exact {
    voltage := by rw [littleEndian_u32 f 8 (by decide)]; exact congrArg BMSData.totalVoltage h
    current := by
      rw [littleEndian_u32 f 48 (by decide), signed_eq (by decide) (littleEndianU32_lt f 48 _)]
      exact congrArg BMSData.current h
    power := rfl
    cellTemp := by
      rw [littleEndian_u16 f 52 (by decide), signed_eq (by decide) (u16_lt f 52 _)]
      exact congrArg (fun data => (data.cellTemp : ℚ)) h
    mosfetTemp := by
      rw [littleEndian_u16 f 54 (by decide), signed_eq (by decide) (u16_lt f 54 _)]
      exact congrArg (fun data => (data.mosfetTemp : ℚ)) h
    remainingAh := by rw [littleEndian_u16 f 62 (by decide)]; exact congrArg BMSData.remainingAh h
    capacityAh := by rw [littleEndian_u16 f 64 (by decide)]; exact congrArg BMSData.fullCapacityAh h
    soc := by
      intro hsoc
      have hdecoded : (published bms now).soc = UInt8.ofNat (littleEndian f.data 90 2) := by
        rw [littleEndian_u16 f 90 (by decide)]; exact congrArg BMSData.soc h
      rw [hdecoded]
      exact UInt8.toNat_ofNat_of_lt' (hsoc.trans_lt (by decide))
    cellCount := hcellCount
    cellCount_le := hcellCount.trans_le hslots
    cells := hofFn
    minCell := fun hpos => (published_minCell bms now hpos).1
    minCell_le := fun i hi => (published_minCell bms now (Nat.zero_lt_of_lt hi)).2 i hi
    maxCell := fun hpos => (published_maxCell bms now hpos).1
    le_maxCell := fun i hi => (published_maxCell bms now (Nat.zero_lt_of_lt hi)).2 i hi
    cellDeltaMv := mul_comm _ _
    cellDeltaMv_nonneg := cellDeltaMv_nonneg bms now
    empty := published_empty bms now
    valid := published_valid_iff bms now }

/-- Whatever was decoded and published before: a notification of at least 104
bytes is read without leaving it and published as it is laid out, and a shorter
one changes nothing. -/
theorem notification_published (s : LiTimeBLEProvider) (data : Bytes) (now : UInt32) :
    (104 ≤ data.length → ∃ decoded, readNotification s.bms.currentData data = some decoded ∧
      PublishedFrom data (copyData s.data { s.bms with currentData := decoded } now)) ∧
    (data.length < 104 → readNotification s.bms.currentData data = some s.bms.currentData) := by
  refine ⟨fun h => ⟨_, readNotification_eq _ data, ?_⟩, readNotification_short _⟩
  rw [copyData_eq]
  exact publishedFrom_frame ⟨data, h⟩ (dif_pos h) now

/-- 26.4 V, −3.5 A, a MOSFET at −2 °C and an empty slot before the first of two cells. -/
def discharging : Bytes :=
  List.replicate 8 0 ++ [0x20, 0x67, 0, 0] ++ List.replicate 6 0 ++ [0xe4, 0x0c, 0xee, 0x0c] ++ List.replicate 26 0 ++
    [0x54, 0xf2, 0xff, 0xff, 25, 0, 0xfe, 0xff] ++ List.replicate 34 0 ++ [87, 0] ++ List.replicate 12 0

theorem notification_published_discharging :
    (∃ decoded, readNotification {} discharging = some decoded ∧
      PublishedFrom discharging (copyData {} { currentData := decoded } 7)) ∧
    signed 32 (littleEndian discharging 48 4) = -3500 ∧ (slots discharging).countP (· ≠ 0) = 2 :=
  ⟨(notification_published {} discharging 7).1 (by decide), by decide +kernel, by decide +kernel⟩

end LiTimeGateway.Decoding
