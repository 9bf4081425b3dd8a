import LiTimeGateway.Network.ConfigureRequest
import LiTimeGateway.Relay.BatteryRelay
import LiTimeGateway.Remote.BatteryJson
/-!
# The gateway's side of the remote dashboard

`RemoteDashboard` answers a text frame that says exactly `{"type":"get_status"}`
with the battery document, and answers nothing else. It compares as C strings
are compared, so what stands behind a NUL in the frame does not count.
-/

namespace LiTimeGateway

open Lib.Json

inductive WStype where
  | disconnected
  | connected
  | text
  | error
  | other
  deriving DecidableEq

structure RemoteDashboard where
  configured : Bool := false
  statusProvider : Option (BatteryData → Option Bytes) := none

namespace RemoteDashboard

/-- `begin` with the configured host and token. -/
def begin (d : RemoteDashboard) (host token : Bytes) (statusProvider : BatteryData → Option Bytes) : RemoteDashboard :=
  let d := { d with statusProvider := some statusProvider }
  if host.isEmpty then d
  else if token.isEmpty then d
  else { d with configured := true }

def getStatus : Bytes := ascii "\x7b\"type\":\"get_status\"\x7d"

/-- `message == "…"` for a text without a NUL. -/
def equalsLiteral (message literal : Bytes) : Bool := cString message = literal

/-- The texts that `handleWebSocketEvent` sends; a null payload counts as no bytes. -/
def handleWebSocketEvent (d : RemoteDashboard) (data : BatteryData) (type : WStype) (payload : Bytes) :
    Option (List Bytes) :=
  if type = .connected then some []
  else if type = .disconnected then some []
  else if type = .error then some []
  else if type ≠ .text || payload.isEmpty then some []
  else if !equalsLiteral payload getStatus then some []
  else
    match d.statusProvider with
    | none => some []
    | some statusProvider => do
      let response := ascii "\x7b\"type\":\"status\",\"battery\":"
      let battery ← statusProvider data
      return [response ++ battery ++ ascii "\x7d"]

/-- The dashboard as the sketch sets it up. -/
def configuredWith (host token : Bytes) : RemoteDashboard := begin {} host token batteryJson

/-- A text frame that is answered. -/
def asks (payload : Bytes) : Bool := cString payload = getStatus

/-! ## The answer -/

def statusMembers (data : BatteryData) : List Member :=
  [⟨ascii "type", some (.string (ascii "status")), quoted (ascii "status")⟩,
   ⟨ascii "battery", some (batteryValue data), Member.objectOf (batteryMembers data)⟩]

/-- The answer to a request when this is the published data. -/
def statusText (data : BatteryData) : Bytes := Member.objectOf (statusMembers data)

def statusValue (data : BatteryData) : Value :=
  .object [(ascii "type", .string (ascii "status")), (ascii "battery", batteryValue data)]

theorem written_status (data : BatteryData) : ∀ m ∈ statusMembers data, m.Written := by
  simp only [statusMembers, List.forall_mem_cons]
  refine ⟨Member.written_mk (by decide) (scans_verbatim (by decide)), Member.written_mk (by decide) ?_, by simp⟩
  have hscans := scans_object (written_battery data)
  rwa [batteryMembers_value] at hscans

theorem parse_statusText (data : BatteryData) : parse (statusText data) = some (statusValue data) := by
  rw [statusText, parse_of_scans (scans_object (written_status data))]
  rfl

theorem asks_ne_nil {payload : Bytes} (h : asks payload = true) : payload.isEmpty = false := by
  cases payload with
  | nil => exact absurd h (by decide)
  | cons b t => rfl

/-- Exactly the frames that ask are answered, each with one document of the published data. -/
theorem handleWebSocketEvent_text {data : BatteryData} (h : data.cellCount ≤ MAX_BATTERY_CELLS) (host token payload : Bytes) :
    (configuredWith host token).handleWebSocketEvent data .text payload =
      some (if asks payload then [statusText data] else []) := by
  have hprovider : (configuredWith host token).statusProvider = some batteryJson := by
    unfold configuredWith begin
    dsimp only
    split
    · rfl
    · split <;> rfl
  unfold handleWebSocketEvent
  rw [hprovider]
  cases ha : asks payload with
  | false =>
    have hne : equalsLiteral payload getStatus = false := ha
    simp [hne]
  | true =>
    have heq : equalsLiteral payload getStatus = true := ha
    simp only [asks_ne_nil ha, heq, reduceCtorEq, ne_eq, not_true_eq_false, decide_false, Bool.or_self,
      Bool.false_eq_true, if_false, Bool.not_true, batteryJson_eq h, Option.bind_eq_bind, Option.bind_some, if_true]
    congr 2
    simp only [statusText, statusMembers, Member.objectOf, objectText, memberText, quoted, List.map_cons, List.map_nil,
      List.intercalate_cons_cons, List.intercalate_singleton, List.append_assoc, List.cons_append, List.nil_append]
    rfl

end RemoteDashboard

end LiTimeGateway
