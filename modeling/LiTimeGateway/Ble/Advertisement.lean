import LiTimeGateway.Lib.Search
import LiTimeGateway.Lib.Tlv
import LiTimeGateway.Network.GatewayNetwork
/-!
# What an advertisement says

`NimBLEAdvertisedDevice` looks for a field of its payload by walking over the
fields from the start, and `LiTimeScanner` asks it for the name and the
advertised services. The payload comes from whoever is in range. Every read is
by its place in the payload, so a read outside of it is `none`.
-/

namespace LiTimeGateway

namespace NimBLEAdvertisedDevice

/-! ## Fields -/

def BLE_HS_ADV_TYPE_INCOMP_UUIDS16 : UInt8 := 0x02
def BLE_HS_ADV_TYPE_COMP_UUIDS16 : UInt8 := 0x03
def BLE_HS_ADV_TYPE_INCOMP_UUIDS32 : UInt8 := 0x04
def BLE_HS_ADV_TYPE_COMP_UUIDS32 : UInt8 := 0x05
def BLE_HS_ADV_TYPE_INCOMP_UUIDS128 : UInt8 := 0x06
def BLE_HS_ADV_TYPE_COMP_UUIDS128 : UInt8 := 0x07
def BLE_HS_ADV_TYPE_INCOMP_NAME : UInt8 := 0x08
def BLE_HS_ADV_TYPE_COMP_NAME : UInt8 := 0x09
def BLE_HS_ADV_TYPE_PUBLIC_TGT_ADDR : UInt8 := 0x17
def BLE_HS_ADV_TYPE_RANDOM_TGT_ADDR : UInt8 := 0x18

/-- The field answers a search for this type; an incomplete name answers one for the complete name. -/
def answers (type fieldType : UInt8) : Bool :=
  fieldType == type || (type == BLE_HS_ADV_TYPE_COMP_NAME && fieldType == BLE_HS_ADV_TYPE_INCOMP_NAME)

/-- How many entries a field of this length adds. -/
def entries (type length : UInt8) : UInt8 :=
  if type = BLE_HS_ADV_TYPE_INCOMP_UUIDS16 ∨ type = BLE_HS_ADV_TYPE_COMP_UUIDS16 then length / 2
  else if type = BLE_HS_ADV_TYPE_INCOMP_UUIDS32 ∨ type = BLE_HS_ADV_TYPE_COMP_UUIDS32 then length / 4
  else if type = BLE_HS_ADV_TYPE_INCOMP_UUIDS128 ∨ type = BLE_HS_ADV_TYPE_COMP_UUIDS128 then length / 16
  else if type = BLE_HS_ADV_TYPE_PUBLIC_TGT_ADDR ∨ type = BLE_HS_ADV_TYPE_RANDOM_TGT_ADDR then length / 6
  else 1

/-- The field is a part of a name that is searched for with a place to put it. -/
def isPart (type : UInt8) (hasLoc : Bool) (fieldType : UInt8) : Bool :=
  type == BLE_HS_ADV_TYPE_COMP_NAME && hasLoc && fieldType == BLE_HS_ADV_TYPE_INCOMP_NAME

/-- The loop of `findAdvField`; `hasLoc` when `data_loc` is not null, and
`dataLoc` what has been stored there. -/
def findLoop (payload : Bytes) (type : UInt8) (hasLoc : Bool) :
    (fuel length data : Nat) → (count index : UInt8) → (dataLoc : Option Nat) → Option (UInt8 × Option Nat)
  | 0, _, data, count, index, dataLoc => some (count, if hasLoc && count > index then some data else dataLoc)
  | fuel + 1, length, data, count, index, dataLoc =>
    if length ≤ 2 then some (count, if hasLoc && count > index then some data else dataLoc)
    else do
      let fieldLength ← payload[data]?
      if length ≤ fieldLength.toNat then some (count, dataLoc)
      else
        let fieldType ← payload[data + 1]?
        let length' := length - (1 + fieldLength.toNat)
        let data' := data + (1 + fieldLength.toNat)
        if answers type fieldType then
          -- An incomplete name is kept until a complete one comes.
          let dataLoc := if isPart type hasLoc fieldType then some data else dataLoc
          let index := if isPart type hasLoc fieldType then index + 1 else index
          let count := count + entries type fieldLength
          if hasLoc && count > index then some (count, some data)
          else findLoop payload type hasLoc fuel length' data' count index dataLoc
        else findLoop payload type hasLoc fuel length' data' count index dataLoc

def findAdvField (payload : Bytes) (type index : UInt8) (hasLoc : Bool) : Option (UInt8 × Option Nat) :=
  findLoop payload type hasLoc payload.length payload.length 0 0 index none

/-- `length` bytes that end before `stop`. -/
def readBefore (payload : Bytes) (stop length : Nat) : Option Bytes :=
  if length ≤ stop ∧ stop ≤ payload.length then some ((payload.drop (stop - length)).take length) else none

/-! ## The name -/

/-- A place that was never stored is read as out of bounds. -/
def getPayloadByType (payload : Bytes) (type index : UInt8) : Option Bytes := do
  let (count, dataLoc) ← findAdvField payload type index true
  if count > 0 then
    let loc ← dataLoc
    let length ← payload[loc]?
    if length > 1 then readBefore payload (loc + 1 + length.toNat) (length.toNat - 1) else some []
  else some []

def haveName (payload : Bytes) : Option Bool := do
  let (count, _) ← findAdvField payload BLE_HS_ADV_TYPE_COMP_NAME 0 false
  return count > 0

def getName (payload : Bytes) : Option Bytes := getPayloadByType payload BLE_HS_ADV_TYPE_COMP_NAME 0

/-! ## Services -/

/-- A `NimBLEUUID`: its two, four or sixteen bytes, the last one first, or none. -/
abbrev NimBLEUUID := Bytes

def bleBaseUuid : Bytes :=
  [0xfb, 0x34, 0x9b, 0x5f, 0x80, 0x00, 0x00, 0x80, 0x00, 0x10, 0x00, 0x00, 0x00, 0x00, 0x00, 0x00]

/-- The base UUID with the bytes of a short one. -/
def toLong (short : NimBLEUUID) : NimBLEUUID := bleBaseUuid.take 12 ++ short ++ bleBaseUuid.drop (12 + short.length)

/-- `NimBLEUUID::operator==`. -/
def sameUuid (a b : NimBLEUUID) : Bool :=
  if a.isEmpty || b.isEmpty then false
  else if a.length ≠ b.length then
    if a.length = 16 then a == toLong b
    else if b.length = 16 then b == toLong a
    else false
  else a == b

/-- The types of the lists of services, in the order of `getServiceUUID`. -/
def serviceTypes : List UInt8 :=
  [BLE_HS_ADV_TYPE_INCOMP_UUIDS16, BLE_HS_ADV_TYPE_COMP_UUIDS16, BLE_HS_ADV_TYPE_INCOMP_UUIDS32,
    BLE_HS_ADV_TYPE_COMP_UUIDS32, BLE_HS_ADV_TYPE_INCOMP_UUIDS128, BLE_HS_ADV_TYPE_COMP_UUIDS128]

def uuidBytes (type : UInt8) : Nat :=
  if type < BLE_HS_ADV_TYPE_INCOMP_UUIDS32 then 2 else if type < BLE_HS_ADV_TYPE_INCOMP_UUIDS128 then 4 else 16

def getServiceUUIDCount (payload : Bytes) : List UInt8 → Option UInt8
  | [] => some 0
  | type :: types => do
    let (count, _) ← findAdvField payload type 0 false
    let rest ← getServiceUUIDCount payload types
    return count + rest

/-- What the first loop of `getServiceUUID` finds. -/
structure Found where
  type : UInt8
  index : UInt8
  count : UInt8
  loc : Nat

def findService (payload : Bytes) : List UInt8 → (index : UInt8) → Option (Option Found)
  | [], _ => some none
  | type :: types, index => do
    let (count, dataLoc) ← findAdvField payload type index true
    if count > index then
      let loc ← dataLoc
      return some ⟨type, index, count, loc⟩
    else findService payload types (index - count)

/-- The rest of `getServiceUUID`, once its loop has found a field. -/
def serviceAt (payload : Bytes) (found : Found) : Option NimBLEUUID := do
  let size := uuidBytes found.type
  let index := found.index + 1
  let length ← payload[found.loc]?
  -- The field is not the first of its type.
  let index :=
    if length.toNat < index.toNat * size then index - (found.count - UInt8.ofNat (length.toNat / size)) else index
  if length.toNat > size * index.toNat then readBefore payload (found.loc + 2 + size * index.toNat) size
  else some []

def getServiceUUID (payload : Bytes) (index : UInt8) : Option NimBLEUUID := do
  match ← findService payload serviceTypes index with
  | none => some []
  | some found => serviceAt payload found

/-- The loop of `isAdvertisingService`. -/
def advertisesOneOf (payload : Bytes) (uuid : NimBLEUUID) : List Nat → Option Bool
  | [] => some false
  | i :: rest => do
    let advertised ← getServiceUUID payload (UInt8.ofNat i)
    if sameUuid uuid advertised then some true else advertisesOneOf payload uuid rest

def isAdvertisingService (payload : Bytes) (uuid : NimBLEUUID) : Option Bool := do
  let count ← getServiceUUIDCount payload serviceTypes
  advertisesOneOf payload uuid (List.range count.toNat)

def haveServiceUUID (payload : Bytes) : Option Bool := do
  let count ← getServiceUUIDCount payload serviceTypes
  return count > 0

end NimBLEAdvertisedDevice

end LiTimeGateway
