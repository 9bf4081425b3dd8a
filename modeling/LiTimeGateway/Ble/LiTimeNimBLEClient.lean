import LiTimeGateway.Ble.BMSData
import LiTimeGateway.Lib.Runs
import Mathlib.Logic.Function.Basic
/-!
# The BLE client

`LiTimeNimBLEClient` together with what NimBLE keeps for it: the link of every
client object it ever created. The NimBLE task runs beside the firmware, and its
callbacks come at any moment. The operations here take the outcomes of their
calls and list the events by their waits, while NimBLE blocks them; `Lifecycle`
has the operations statement by statement, with events between any two, and
these operations among its runs.

`deleteClient` and `disconnect` request the termination of a live link; the
client's `onDisconnect` is still delivered when the link goes down.
-/

namespace LiTimeGateway

open Lib

/-! ## NimBLE -/

abbrev ClientId := Nat

/-- The link of a client object: `CONNECTED` is `up`, `DISCONNECTING` is `terminating`. -/
inductive Link where
  | down
  | up
  | terminating
  deriving DecidableEq, Repr

/-- What the NimBLE task does on its own: a callback of some client object, with
the end of its link, or a notification on its link. Every client object has the
same notification callback, and a link that is terminating still delivers. -/
inductive HostEvent where
  | onConnect (id : ClientId)
  | onDisconnect (id : ClientId)
  | notify (id : ClientId) (data : Bytes)
  deriving DecidableEq

/-- `client->disconnect()` or `deleteClient(client)`. -/
def terminate (links : ClientId → Link) (client : Option ClientId) : ClientId → Link :=
  match client with
  | none => links
  | some id => if links id = .up then Function.update links id .terminating else links

def hexDigit (b : UInt8) : Option Nat :=
  if ch '0' ≤ b ∧ b ≤ ch '9' then some (b - ch '0').toNat
  else if ch 'a' ≤ b ∧ b ≤ ch 'f' then some (b - ch 'a' + 10).toNat
  else if ch 'A' ≤ b ∧ b ≤ ch 'F' then some (b - ch 'A' + 10).toNat
  else none

/-- The six bytes of a `NimBLEAddress` made from a text, the first one first. -/
def addressBytes (address : Bytes) : Bytes :=
  if address.length = 6 then address
  else if address.length = 17 then
    let digits := ((address.filter (· ≠ ch ':')).map hexDigit).takeWhile Option.isSome
    let value := digits.foldl (fun value digit => 16 * value + digit.getD 0) 0
    (List.range 6).reverse.map fun i => UInt8.ofNat (value / 256 ^ i)
  else List.replicate 6 0

/-- `NimBLEAddress(address).toString()`. -/
def addressText (address : Bytes) : Bytes := List.intercalate (ascii ":") ((addressBytes address).map hexByte)

example : addressText (ascii "C8:47:80:0f:1A:02") = ascii "c8:47:80:0f:1a:02" := by decide

/-! ## The client -/

structure LiTimeNimBLEClient where
  deviceAddress : Bytes := []
  client : Option ClientId := none
  /-- The pointer is not null. -/
  writeCharacteristic : Bool := false
  notifyCharacteristic : Bool := false
  currentData : BMSData := {}
  connected : Bool := false
  lastQuery : UInt32 := 0
  /-- NimBLE's side: the links, and how many client objects it has created. -/
  links : ClientId → Link := fun _ => .down
  created : Nat := 0
  /-- Accounts: the links of the notifications decoded, in order, and the query
  writes through a null pointer. -/
  decoded : List ClientId := []
  nullWrites : Nat := 0

/-- The outcomes of the calls of `connect`, and the events of its waits. -/
structure ConnectIo where
  begun : Bool := true
  created : Bool := true
  whileLinking : List HostEvent := []
  linked : Bool := true
  whileDiscovering : List HostEvent := []
  service : Bool := true
  writeFound : Bool := true
  notifyFound : Bool := true
  canNotify : Bool := true
  whileSubscribing : List HostEvent := []
  subscribed : Bool := true

/-- The two clock reads of `update`, and how its query write goes. -/
structure UpdateIo where
  check : UInt32
  stored : UInt32
  whileWriting : List HostEvent := []
  written : Bool := true

namespace LiTimeNimBLEClient

/-- How many notifications have been decoded. -/
def frames (s : LiTimeNimBLEClient) : Nat := s.decoded.length

/-- The link of the notification that was decoded last. -/
def source (s : LiTimeNimBLEClient) : Option ClientId := s.decoded.getLast?

def isConnected (s : LiTimeNimBLEClient) : Bool :=
  s.connected && s.client.any fun id => s.links id = .up

/-- One event of the NimBLE task; a link that is down has no callbacks left. -/
def onHost (s : LiTimeNimBLEClient) : HostEvent → LiTimeNimBLEClient
  | .onConnect id => if s.links id = .down then s else { s with connected := true }
  | .onDisconnect id =>
    if s.links id = .down then s
    else { s with connected := false, links := Function.update s.links id .down }
  | .notify id data =>
    { s with
      currentData := parseNotificationData s.currentData data
      decoded := if accepts data then s.decoded ++ [id] else s.decoded }

def onHosts (s : LiTimeNimBLEClient) (events : List HostEvent) : LiTimeNimBLEClient := Runs.run onHost s events

def clearConnection (s : LiTimeNimBLEClient) : LiTimeNimBLEClient :=
  { s with
    connected := false
    writeCharacteristic := false
    notifyCharacteristic := false
    client := none
    links := terminate s.links s.client }

def disconnect (s : LiTimeNimBLEClient) : LiTimeNimBLEClient :=
  clearConnection { s with links := terminate s.links s.client }

/-- `disconnect` and the new address. -/
def replace (s : LiTimeNimBLEClient) (address : Bytes) : LiTimeNimBLEClient :=
  { s.disconnect with deviceAddress := address }

/-- A new client object. -/
def create (s : LiTimeNimBLEClient) : LiTimeNimBLEClient :=
  { s with client := some s.created, created := s.created + 1 }

/-- The client's link comes up. -/
def linkUp (s : LiTimeNimBLEClient) : LiTimeNimBLEClient :=
  match s.client with
  | none => s
  | some id => { s with links := Function.update s.links id .up }

def find (s : LiTimeNimBLEClient) (io : ConnectIo) : LiTimeNimBLEClient :=
  { s with writeCharacteristic := io.writeFound, notifyCharacteristic := io.notifyFound }

/-- `connect` from the moment its new client's link is up. -/
def discover (s : LiTimeNimBLEClient) (io : ConnectIo) : LiTimeNimBLEClient × Bool :=
  let s := s.onHosts io.whileDiscovering
  if !io.service then (s.clearConnection, false)
  else
    let s := s.find io
    if !io.writeFound || !io.notifyFound || !io.canNotify then (s.clearConnection, false)
    else
      let s := s.onHosts io.whileSubscribing
      if !io.subscribed then (s.clearConnection, false)
      else ({ s with connected := true, lastQuery := 0 }, true)

/-- Nothing is left to do: the client is connected to this address. -/
def connectedTo (s : LiTimeNimBLEClient) (address : Bytes) : Bool :=
  s.isConnected && addressText s.deviceAddress = address

def connect (s : LiTimeNimBLEClient) (address : Bytes) (io : ConnectIo) : LiTimeNimBLEClient × Bool :=
  if address.isEmpty then (s, false)
  else if !io.begun then (s, false)
  else if s.connectedTo address then (s, true)
  else
    let s := s.replace address
    if !io.created then (s, false)
    else
      -- The link can still fail after callbacks of the clients before it.
      let s := s.create.onHosts io.whileLinking
      if !io.linked then (s.clearConnection, false)
      else s.linkUp.discover io

/-- The query write is due. -/
def queries (s : LiTimeNimBLEClient) (io : UpdateIo) : Bool := s.isConnected && io.check - s.lastQuery > 1000

/-- The query is written through `writeCharacteristic`. -/
def beginWrite (s : LiTimeNimBLEClient) : LiTimeNimBLEClient :=
  { s with nullWrites := if s.writeCharacteristic then s.nullWrites else s.nullWrites + 1 }

def update (s : LiTimeNimBLEClient) (io : UpdateIo) : LiTimeNimBLEClient :=
  if !s.isConnected then { s with connected := false }
  else if s.queries io then
    let s := s.beginWrite.onHosts io.whileWriting
    -- A failed write drops the flag and leaves the link as it is.
    if !io.written then { s with connected := false } else { s with lastQuery := io.stored }
  else s

/-! ## Runs -/

inductive Op where
  | connect (address : Bytes) (io : ConnectIo)
  | update (io : UpdateIo)
  | disconnect
  | host (event : HostEvent)

def step (s : LiTimeNimBLEClient) : Op → LiTimeNimBLEClient
  | .connect address io => (s.connect address io).1
  | .update io => s.update io
  | .disconnect => s.disconnect
  | .host event => s.onHost event

end LiTimeNimBLEClient

end LiTimeGateway
