import LiTimeGateway.Arduino
import LiTimeGateway.Dashboard.RuntimeEstimator
import LiTimeGateway.JavaScript
import LiTimeGateway.Lib.Binary64
import LiTimeGateway.Lib.JsonNumber
/-!
# What the remote dashboard shows (`public/app.js`)

`onMessage` is the message handler of the page's socket: what `showBattery`
writes into the page for a status, and the poll it hands to the estimator. A
JavaScript value is a parsed JSON value, `none` for `undefined`, and a number is
the double nearest to its text. `Conversions` is what is left to the language.
-/

namespace LiTimeGateway.Dashboard

open Lib.Json Lib.Binary64 JavaScript

structure Conversions where
  /-- `Number` of a text, an array or an object, if that is finite. -/
  number : Value → Option ℚ
  /-- A text, an array or an object in a template. -/
  template : Value → Text
  /-- The text of a number that is no integer, or one from 10^21 on. -/
  numberText : ℚ → Text

variable (js : Conversions)

/-! ## Values -/

/-- A number's value, if it is finite. -/
def double (t : Bytes) : Option ℚ :=
  if isFinite (binary64 (numberValue t)) then some (binary64 (numberValue t)) else none

/-- `Number(value)`, if that is finite. -/
def toNumber : Option Value → Option ℚ
  | none => none
  | some .null => some 0
  | some (.bool b) => some (if b then 1 else 0)
  | some (.number t) => double t
  | some v => js.number v

/-- The value, if `Number.isFinite(value)`. -/
def finiteNumber : Option Value → Option ℚ
  | some (.number t) => double t
  | _ => none

def truthy : Option Value → Bool
  | none => false
  | some .null => false
  | some (.bool b) => b
  | some (.number t) => binary64 (numberValue t) ≠ 0
  | some (.string t) => !t.isEmpty
  | some (.array _) => true
  | some (.object _) => true

/-- `value === true`. -/
def isTrue : Option Value → Bool
  | some (.bool b) => b
  | _ => false

def numberToText (x : ℚ) : Text :=
  if x.den = 1 ∧ |x| < 10 ^ 21 then JavaScript.numberText x.num else js.numberText x

/-- `toFixed`, without a point when there are no digits behind it. -/
def fixedText (x : ℚ) (decimals : Nat) : Text :=
  if 10 ^ 21 ≤ |x| then numberToText js x
  else if decimals = 0 then (if x < 0 then ['-'] else []) ++ Nat.toDigits 10 (round |x|).natAbs
  else toFixed x decimals

def templateText : Option Value → Text
  | none => text "undefined"
  | some .null => text "null"
  | some (.bool b) => if b then text "true" else text "false"
  | some (.number t) => numberToText js (binary64 (numberValue t))
  | some v => js.template v

/-- The page's `value`; it is called with one decimal where the source gives none. -/
def value (number : Option Value) (decimals : Nat) : Text :=
  match toNumber js number with
  | none => text "—"
  | some x => fixedText js x decimals

/-! ## The page -/

/-- The texts of the page and the states of its badges. -/
structure View where
  soc : Text
  socBar : Text
  voltage : Text
  current : Text
  power : Text
  capacity : Text
  cellCount : Text
  cellDelta : Text
  minCell : Text
  maxCell : Text
  cellTemp : Text
  mosfetTemp : Text
  cells : List Text
  cellSummary : Text
  validity : Text
  validityClass : Text
  connection : Text
  connectionState : Text
  offlineTitle : Text
  offlineCopy : Text
  offlineVisible : Bool

/-- The `map` over the reported cells; `index` is that of the first. -/
def cellItems : (index : Nat) → List Value → List Text
  | _, [] => []
  | index, cell :: rest =>
    (text "Cell " ++ JavaScript.numberText (index + 1) ++ text ": " ++ value js (some cell) 3 ++ text " V") ::
      cellItems (index + 1) rest

def showBattery (battery : Value) : View :=
  let field := fun key => battery.get (ascii key)
  let isConnected := isTrue (field "connected")
  let isValid := isTrue (field "valid")
  let hasLiveReading := isConnected && isValid
  let soc := match toNumber js (field "soc") with
    | some x => max 0 (min 100 x)
    | none => 0
  let live := fun t => if hasLiveReading then t else text "—"
  let reportedCells := ((field "cells").bind Value.elements).getD []
  { soc := live (JavaScript.numberText (round soc))
    socBar := numberToText js (if hasLiveReading then soc else 0) ++ text "%"
    voltage := live (value js (field "voltage") 2)
    current := live (value js (field "current") 2)
    power := live (value js (field "power") 0)
    capacity := live (value js (field "remainingAh") 1 ++ text " / " ++ value js (field "capacityAh") 1 ++ text " Ah")
    cellCount := live (if (toNumber js (field "cellCount")).isSome then
      templateText js (field "cellCount") ++ text " cells" else text "—")
    cellDelta := live (value js (field "cellDeltaMv") 1 ++ text " mV")
    minCell := live (value js (field "minCell") 3 ++ text " V")
    maxCell := live (value js (field "maxCell") 3 ++ text " V")
    cellTemp := live (value js (field "cellTemp") 1 ++ text " °C")
    mosfetTemp := live (value js (field "mosfetTemp") 1 ++ text " °C")
    cells := cellItems js 0 reportedCells
    cellSummary := if reportedCells.isEmpty then text "No cells reported"
      else JavaScript.numberText reportedCells.length ++ text " reported"
    validity := if hasLiveReading then text "Live reading"
      else if isConnected then text "Waiting for telemetry" else text "Battery disconnected"
    validityClass := if hasLiveReading then text "data-state good"
      else if isConnected then text "data-state waiting" else text "data-state offline"
    connection := if hasLiveReading then text "Live BLE telemetry"
      else if isConnected then text "Waiting for telemetry" else text "Battery disconnected"
    connectionState := if hasLiveReading then text "good" else if isConnected then text "waiting" else text "offline"
    offlineTitle := if hasLiveReading then []
      else if isConnected then text "Battery is connected, but no valid reading is available yet."
      else text "The gateway cannot currently reach the LiTime battery."
    offlineCopy := if hasLiveReading then []
      else if isConnected then
        text "The gateway remains online and will update this view after its next valid BLE status."
      else text "It will keep scanning and this page will update when a valid battery status returns."
    offlineVisible := !hasLiveReading }

/-- The battery object as the estimator reads it. -/
def estimatorBattery (battery : Value) : Battery where
  connected := truthy (battery.get (ascii "connected"))
  valid := truthy (battery.get (ascii "valid"))
  current := finiteNumber (battery.get (ascii "current"))
  remainingAh := finiteNumber (battery.get (ascii "remainingAh"))
  capacityAh := finiteNumber (battery.get (ascii "capacityAh"))
  updatedAt := finiteNumber (battery.get (ascii "updatedAt"))

/-- A status with a battery: its `battery` is an object or an array. -/
def statusBattery (message : Value) : Option Value :=
  match message.get (ascii "type"), message.get (ascii "battery") with
  | some (.string t), some (.object members) => if t = ascii "status" then some (.object members) else none
  | some (.string t), some (.array elements) => if t = ascii "status" then some (.array elements) else none
  | _, _ => none

/-- The message handler: what the page shows and what the estimator is handed. -/
def onMessage (data : Bytes) : Option (View × Battery) := do
  let message ← parse data
  let battery ← statusBattery message
  return (showBattery js battery, estimatorBattery battery)

end LiTimeGateway.Dashboard
