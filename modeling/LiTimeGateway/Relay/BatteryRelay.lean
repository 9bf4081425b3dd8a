import LiTimeGateway.Arduino
import LiTimeGateway.Lib.Runs
import Mathlib.Data.List.Sort
/-!
# The relay of the remote dashboard

The Worker passes `/browser` and, with the bearer token, `/device` on to one
Durable Object, `BatteryRelay`, which accepts the WebSocket under a role and
passes every message on to the sockets of the other role. A JavaScript string
is its list of code units. A socket is known by its place among those accepted;
closed ones keep theirs. `SendIo` is what the runtime leaves open: the order in
which it lists the sockets, and which `send` calls throw.
-/

namespace LiTimeGateway

open Lib Lib.Lines

abbrev JsString := List UInt16

def js (text : String) : JsString := text.toList.map fun c => UInt16.ofNat c.toNat

/-- On header values; of their characters only the capital letters lower to an ASCII letter. -/
def toLowerCase (s : JsString) : JsString := s.map fun c => if 65 ≤ c ∧ c ≤ 90 then c + 32 else c

/-! ## Requests -/

structure Request where
  /-- The `pathname` of its URL. -/
  pathname : JsString
  headers : List (JsString × JsString) := []

def isHttpWhitespace (c : UInt16) : Bool := c == 9 || c == 10 || c == 13 || c == 32

/-- `request.headers.get(name)`: the values under this name, stripped of
whitespace at both ends, joined by commas. -/
def Request.header (request : Request) (name : JsString) : Option JsString :=
  let values := (request.headers.filter fun header => toLowerCase header.1 = toLowerCase name).map
    fun header => strip isHttpWhitespace header.2
  if values.isEmpty then none else some (List.intercalate (js ", ") values)

/-- The Worker's bindings; a secret that was never set is not bound. -/
structure Env where
  DEVICE_TOKEN : Option JsString := none

/-- The template literal `Bearer ${env.DEVICE_TOKEN}`. -/
def Env.bearer (env : Env) : JsString := js "Bearer " ++ env.DEVICE_TOKEN.getD (js "undefined")

inductive Response where
  | unauthorized
  | expectedWebSocket
  | webSocket
  | assets
  deriving DecidableEq

/-! ## The Durable Object -/

inductive Role where
  | browser
  | device
  deriving DecidableEq, Repr

structure Socket where
  role : Role
  isOpen : Bool := true
  /-- An account: the request it was opened with. -/
  request : Request

inductive Message where
  | text (text : JsString)
  | binary (bytes : Bytes)

structure SendIo where
  /-- Sockets of a lower rank are listed first. -/
  rank : Nat → Nat := fun _ => 0
  throws : Nat → Bool := fun _ => false

structure BatteryRelay where
  sockets : List Socket := []

namespace BatteryRelay

def fetch (relay : BatteryRelay) (request : Request) : BatteryRelay × Response :=
  match request.header (js "Upgrade") with
  | none => (relay, .expectedWebSocket)
  | some upgrade =>
    if toLowerCase upgrade ≠ js "websocket" then (relay, .expectedWebSocket)
    else
      -- Every path but one makes a device.
      let role := if request.pathname = js "/browser" then .browser else .device
      ({ relay with sockets := relay.sockets ++ [{ role, request }] }, .webSocket)

def getTags (relay : BatteryRelay) (webSocket : Nat) : List Role :=
  (relay.sockets[webSocket]?.map Socket.role).toList

/-- The socket is open and was accepted under this role. -/
def isOpenAs (relay : BatteryRelay) (role : Role) (id : Nat) : Bool :=
  relay.sockets[id]?.any fun socket => socket.isOpen && socket.role = role

def getWebSockets (relay : BatteryRelay) (io : SendIo) (role : Role) : List Nat :=
  ((List.range relay.sockets.length).filter (relay.isOpenAs role)).insertionSort fun a b => io.rank a ≤ io.rank b

/-- The loop over the recipients: what is sent to whom before a `send` throws. -/
def sendEach (io : SendIo) (text : JsString) : List Nat → List (Nat × JsString)
  | [] => []
  | recipient :: rest => if io.throws recipient then [] else (recipient, text) :: sendEach io text rest

/-- `decode` is `new TextDecoder().decode`. -/
def Message.asText (decode : Bytes → JsString) : Message → JsString
  | .text text => text
  | .binary bytes => decode bytes

def webSocketMessage (decode : Bytes → JsString) (relay : BatteryRelay) (webSocket : Nat) (message : Message)
    (io : SendIo) : List (Nat × JsString) :=
  let tags := relay.getTags webSocket
  let text := Message.asText decode message
  if tags.contains .device then sendEach io text (relay.getWebSockets io .browser)
  else if tags.contains .browser then sendEach io text (relay.getWebSockets io .device)
  else []

def close (relay : BatteryRelay) (webSocket : Nat) : BatteryRelay :=
  { relay with sockets := relay.sockets.modify webSocket fun socket => { socket with isOpen := false } }

end BatteryRelay

/-- The Worker's `fetch`. -/
def workerFetch (env : Env) (relay : BatteryRelay) (request : Request) : BatteryRelay × Response :=
  if request.pathname = js "/device" then
    if request.header (js "Authorization") ≠ some env.bearer then (relay, .unauthorized)
    else relay.fetch request
  else if request.pathname = js "/browser" then relay.fetch request
  else (relay, .assets)

namespace BatteryRelay

/-! ## Runs -/

/-- A text that arrived. -/
structure Delivery where
  sender : Nat
  recipient : Nat
  text : JsString

inductive Event where
  | request (request : Request)
  | message (sender : Nat) (message : Message) (io : SendIo)
  | close (webSocket : Nat)

/-- The relay, and every text it has delivered. -/
structure World where
  relay : BatteryRelay := {}
  deliveries : List Delivery := []

def World.step (env : Env) (decode : Bytes → JsString) (w : World) : Event → World
  | .request request => { w with relay := (workerFetch env w.relay request).1 }
  | .message sender message io =>
    { w with
      deliveries := w.deliveries ++ (w.relay.webSocketMessage decode sender message io).map
        fun sent => ⟨sender, sent.1, sent.2⟩ }
  | .close webSocket => { w with relay := w.relay.close webSocket }

/-! ## What the relay lists and sends -/

/-- The role a socket was accepted under. -/
def roleOf (relay : BatteryRelay) (id : Nat) : Option Role := relay.sockets[id]?.map Socket.role

theorem mem_getWebSockets {relay : BatteryRelay} {io : SendIo} {role : Role} {id : Nat} :
    id ∈ relay.getWebSockets io role ↔ relay.isOpenAs role id = true := by
  rw [getWebSockets, List.mem_insertionSort, List.mem_filter, List.mem_range, and_iff_right_iff_imp]
  intro h
  by_contra hn
  rw [isOpenAs, List.getElem?_eq_none (Nat.le_of_not_lt hn)] at h
  cases h

theorem nodup_getWebSockets (relay : BatteryRelay) (io : SendIo) (role : Role) :
    (relay.getWebSockets io role).Nodup :=
  (List.perm_insertionSort _ _).nodup_iff.2 (List.nodup_range.filter _)

theorem roleOf_of_isOpenAs {relay : BatteryRelay} {role : Role} {id : Nat} (h : relay.isOpenAs role id = true) :
    relay.roleOf id = some role := by
  unfold isOpenAs at h
  unfold roleOf
  cases hs : relay.sockets[id]? with
  | none =>
    rw [hs] at h
    cases h
  | some socket =>
    rw [hs, Option.any_some, Bool.and_eq_true, decide_eq_true_eq] at h
    rw [Option.map_some, h.2]

/-- The recipients of a sender's messages: the open sockets of the other role. -/
def recipients (relay : BatteryRelay) (io : SendIo) (sender : Nat) : List Nat :=
  match relay.roleOf sender with
  | some .device => relay.getWebSockets io .browser
  | some .browser => relay.getWebSockets io .device
  | none => []

theorem webSocketMessage_eq (decode : Bytes → JsString) (relay : BatteryRelay) (sender : Nat) (message : Message)
    (io : SendIo) :
    relay.webSocketMessage decode sender message io =
      sendEach io (Message.asText decode message) (relay.recipients io sender) := by
  unfold webSocketMessage recipients getTags
  rw [← roleOf]
  cases relay.roleOf sender with
  | none => rfl
  | some role => cases role <;> rfl

/-- The loop stops at the first `send` that throws. -/
theorem sendEach_eq (io : SendIo) (text : JsString) (ids : List Nat) :
    sendEach io text ids = (ids.takeWhile (!io.throws ·)).map (·, text) := by
  induction ids with
  | nil => rfl
  | cons id ids ih =>
    cases h : io.throws id with
    | true => simp [sendEach, h]
    | false => simp [sendEach, h, ih]

end BatteryRelay

end LiTimeGateway
