import LiTimeGateway.Arduino
/-!
# Notifications of the battery

A notification is decoded when it has at least 104 bytes: `Frame` is such a
notification, and every byte the decoder reads is one of those 104. Floats are
exact rationals.
-/

namespace LiTimeGateway

/-- What was last decoded. -/
structure BMSData where
  totalVoltage : ℚ := 0
  cellVoltageSum : ℚ := 0
  current : ℚ := 0
  mosfetTemp : ℤ := 0
  cellTemp : ℤ := 0
  soc : UInt8 := 0
  soh : Bytes := []
  remainingAh : ℚ := 0
  fullCapacityAh : ℚ := 0
  protectionState : Bytes := []
  heatState : Bytes := []
  balanceMemory : Bytes := []
  failureState : Bytes := []
  balancingState : Bytes := []
  batteryState : Bytes := []
  dischargesCount : Nat := 0
  dischargesAhCount : ℚ := 0
  cellVoltages : List ℚ := []

/-- A notification that is long enough to decode. -/
structure Frame where
  data : Bytes
  length_ge : 104 ≤ data.length

namespace Frame

def byte (f : Frame) (i : Fin 104) : UInt8 := f.data.get ⟨i.val, i.isLt.trans_le f.length_ge⟩

/-- `(data[i + 1] << 8) | data[i]`. -/
def u16 (f : Frame) (i : Nat) (h : i + 1 < 104 := by decide) : Nat :=
  (f.byte ⟨i + 1, h⟩).toNat * 2 ^ 8 + (f.byte ⟨i, Nat.lt_of_succ_lt h⟩).toNat

def littleEndianU32 (f : Frame) (i : Nat) (h : i + 3 < 104 := by decide) : Nat :=
  f.u16 (i + 2) h * 2 ^ 16 + f.u16 i (Nat.lt_of_succ_lt (Nat.lt_of_succ_lt h))

end Frame

/-- The value of `bits` bits read as two's complement. -/
def twosComplement (bits n : Nat) : ℤ := if n < 2 ^ (bits - 1) then n else n - 2 ^ bits

/-- Two lowercase hex digits. -/
def hexByte (b : UInt8) : Bytes := [ch (Nat.digitChar (b.toNat / 16)), ch (Nat.digitChar (b.toNat % 16))]

/-- `length` bytes from `start` on, the last one first. -/
def bytesToHexString (data : Bytes) (start length : Nat) : Bytes :=
  ((data.drop start).take length).reverse.flatMap hexByte

def bytesToBinaryString (data : Bytes) (start length : Nat) : Bytes :=
  ((data.drop start).take length).reverse.flatMap fun b =>
    ((List.range 8).reverse.map fun bit => if b.toNat.testBit bit then ch '1' else ch '0')

/-- The cell slots at 16, 18, …, 46 that are not zero. -/
def Frame.cellVoltages (f : Frame) : List ℚ :=
  (List.finRange 16).filterMap fun slot =>
    let millivolts := f.u16 (16 + 2 * slot.val) (by omega)
    if millivolts = 0 then none else some (millivolts / 1000)

/-- All the fields of one frame. -/
def Frame.decode (f : Frame) : BMSData where
  totalVoltage := f.littleEndianU32 8 / 1000
  cellVoltageSum := f.littleEndianU32 12 / 1000
  current := twosComplement 32 (f.littleEndianU32 48) / 1000
  mosfetTemp := twosComplement 16 (f.u16 54)
  cellTemp := twosComplement 16 (f.u16 52)
  remainingAh := f.u16 62 / 100
  fullCapacityAh := f.u16 64 / 100
  protectionState := bytesToHexString f.data 76 4
  heatState := bytesToHexString f.data 68 4
  balanceMemory := bytesToHexString f.data 72 4
  failureState := bytesToHexString f.data 80 3
  balancingState := bytesToBinaryString f.data 84 4
  batteryState := bytesToHexString f.data 88 2
  soc := UInt8.ofNat (f.u16 90)
  soh := decimal (f.littleEndianU32 92) ++ ascii "%"
  dischargesCount := f.littleEndianU32 96
  dischargesAhCount := f.littleEndianU32 100 / 1000
  cellVoltages := f.cellVoltages

/-- `parseNotificationData` accepts a notification of at least 104 bytes. -/
def accepts (data : Bytes) : Bool := 104 ≤ data.length

/-- The data after a notification; a null pointer counts as no bytes. -/
def parseNotificationData (currentData : BMSData) (data : Bytes) : BMSData :=
  if h : 104 ≤ data.length then Frame.decode ⟨data, h⟩ else currentData

theorem parseNotificationData_rejected {currentData : BMSData} {data : Bytes} (h : accepts data = false) :
    parseNotificationData currentData data = currentData :=
  dif_neg (of_decide_eq_false h)

end LiTimeGateway
