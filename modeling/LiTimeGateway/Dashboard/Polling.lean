import LiTimeGateway.Lib.Runs
import Mathlib.Algebra.Group.Nat.Defs
/-!
# The remote dashboard's connection (`public/app.js`)

The page keeps four variables: the current `socket`, the two timer ids and the
number of reconnect attempts. The browser keeps every socket the page created
and the table of live timers; timeouts and intervals share one counter of ids.
`deliver` is the page after one event. An event the browser cannot deliver in
that state (the open event of a socket that is not connecting, a second close
event, the firing of a cleared timer) leaves the page alone.
-/

namespace LiTimeGateway.Dashboard

inductive ReadyState where
  | CONNECTING | OPEN | CLOSING | CLOSED
  deriving DecidableEq, Repr

structure WebSocket where
  readyState : ReadyState
  /-- Its close event has been delivered. -/
  ended : Bool
  deriving DecidableEq, Repr

/-- What a timer calls: `connect` for a timeout, `requestStatus` for a status-poll interval. -/
inductive Callback where
  | connect | requestStatus
  deriving DecidableEq, Repr

structure Timer where
  id : Nat
  callback : Callback
  delay : Nat
  deriving DecidableEq, Repr

structure App where
  /-- The current socket, as its place in `sockets`. -/
  socket : Option Nat
  reconnectTimer : Option Nat
  statusPollTimer : Option Nat
  reconnectAttempts : Nat
  /-- Every socket the page created, oldest first. -/
  sockets : List WebSocket
  /-- The live timers, and the id the next one gets. -/
  timers : List Timer
  nextTimer : Nat
  /-- The sockets on which `get_status` was sent. -/
  requests : List Nat
  deriving DecidableEq, Repr

/-- What the browser can hand to the page. `closing` is the server's closing
handshake: it moves the socket to CLOSING and calls no handler. -/
inductive Event where
  | onopen (i : Nat)
  | onmessage (i : Nat)
  | onerror (i : Nat)
  | onclose (i : Nat)
  | closing (i : Nat)
  | online
  | offline
  | timer (id : Nat)
  deriving DecidableEq, Repr

namespace App

/-! ## The browser -/

def readyStateOf (s : App) (i : Nat) : Option ReadyState := (s.sockets[i]?).map (·.readyState)

/-- `socket?.readyState` -/
def readyState (s : App) : Option ReadyState := s.socket.bind s.readyStateOf

def setReady (s : App) (i : Nat) (r : ReadyState) : App :=
  { s with sockets := s.sockets.modify i fun w => { w with readyState := r } }

def endSocket (s : App) (i : Nat) : App :=
  { s with sockets := s.sockets.modify i fun _ => ⟨.CLOSED, true⟩ }

/-- `socket.close()` on the current socket; there is nothing to do once it is closing or closed. -/
def close (s : App) : App :=
  match s.socket with
  | none => s
  | some i => if s.readyStateOf i = some .CONNECTING ∨ s.readyStateOf i = some .OPEN then s.setReady i .CLOSING else s

/-- `setTimeout` and `setInterval`: the new timer's id is `s.nextTimer`. -/
def setTimer (s : App) (callback : Callback) (delay : Nat) : App :=
  { s with timers := s.timers ++ [⟨s.nextTimer, callback, delay⟩], nextTimer := s.nextTimer + 1 }

/-- `clearTimeout` and `clearInterval`: an unknown or undefined id is ignored. -/
def clearTimer (s : App) (id : Option Nat) : App :=
  { s with timers := s.timers.filter fun t => some t.id ≠ id }

/-! ## The page -/

/-- The pause before the next attempt: it doubles from one second up to half a minute. -/
def reconnectDelay (s : App) : Nat := min 30000 (1000 * 2 ^ min s.reconnectAttempts 5)

def scheduleReconnect (s : App) : App :=
  let s := (s.clearTimer s.reconnectTimer).clearTimer s.statusPollTimer
  { s.setTimer .connect s.reconnectDelay with
    reconnectAttempts := s.reconnectAttempts + 1
    reconnectTimer := some s.nextTimer }

def connect (s : App) : App :=
  let s := s.clearTimer s.reconnectTimer
  -- A socket that is closing does not stop a new one.
  if s.readyState = some .OPEN ∨ s.readyState = some .CONNECTING then s
  else { s with sockets := s.sockets ++ [⟨.CONNECTING, false⟩], socket := some s.sockets.length }

def requestStatus (s : App) : App :=
  if s.readyState = some .OPEN then { s with requests := s.requests ++ s.socket.toList } else s

/-- The open handler. It overwrites `statusPollTimer` and clears no earlier interval. -/
def openHandler (s : App) : App :=
  let s := { s with reconnectAttempts := 0 }.requestStatus
  { s.setTimer .requestStatus 3000 with statusPollTimer := some s.nextTimer }

/-- A timer fires: a timeout leaves the table before its callback runs, an interval stays. -/
def fire (s : App) (t : Timer) : App :=
  match t.callback with
  | .connect => (s.clearTimer (some t.id)).connect
  | .requestStatus => s.requestStatus

/-- The page as the script leaves it: it has connected once. -/
def load : App := connect ⟨none, none, none, 0, [], [], 1, []⟩

/-- What the browser can deliver. A socket that fails reports an error and then
closes; a close event comes once, at any time after the socket was created. -/
def Possible (s : App) : Event → Prop
  | .onopen i => s.readyStateOf i = some .CONNECTING
  | .onmessage i | .closing i => s.readyStateOf i = some .OPEN
  | .onerror i | .onclose i => (s.sockets[i]?).map (·.ended) = some false
  | .timer id => ∃ t ∈ s.timers, t.id = id
  | .online | .offline => True

instance (s : App) : (e : Event) → Decidable (s.Possible e)
  | .onopen i => inferInstanceAs (Decidable (s.readyStateOf i = some .CONNECTING))
  | .onmessage i | .closing i => inferInstanceAs (Decidable (s.readyStateOf i = some .OPEN))
  | .onerror i | .onclose i => inferInstanceAs (Decidable ((s.sockets[i]?).map (·.ended) = some false))
  | .timer id => inferInstanceAs (Decidable (∃ t ∈ s.timers, t.id = id))
  | .online | .offline => inferInstanceAs (Decidable True)

/-- The handlers. A message only refreshes what the page shows. -/
def handle (s : App) : Event → App
  | .onopen i => (s.setReady i .OPEN).openHandler
  | .onmessage _ => s
  -- The error handler closes the current socket, whichever socket has failed.
  | .onerror i => (s.setReady i .CLOSED).close
  | .onclose i => (s.endSocket i).scheduleReconnect
  | .closing i => s.setReady i .CLOSING
  | .online => s.connect
  | .offline => s.close
  | .timer id => (s.timers.find? (·.id = id)).elim s s.fire

def deliver (s : App) (e : Event) : App := if s.Possible e then s.handle e else s

end App

end LiTimeGateway.Dashboard
