import LiTimeGateway.BatteryData
import LiTimeGateway.Ble.LiTimeNimBLEClient
/-!
# The BLE provider

`LiTimeBLEProvider` copies what its client decoded into the published
`BatteryData`, one reading after the other. A notification is decoded at one
moment, before an operation, between two of its statements or between two reads of
its sync; `delivered` lists what an operation takes in so, and `decoded_step` says
that nothing else changes what the client has decoded.
-/

namespace LiTimeGateway

open Lib

/-- The link of a notification that is decoded. -/
def HostEvent.source : HostEvent → Option ClientId
  | .notify id data => if accepts data then some id else none
  | _ => none

/-- A notification that is decoded. -/
def HostEvent.accepted (e : HostEvent) : Bool := e.source.isSome

/-- The links of the notifications decoded among these events, in order. -/
def sourcesOf (events : List HostEvent) : List ClientId := events.filterMap HostEvent.source

theorem sourcesOf_append (es fs : List HostEvent) : sourcesOf (es ++ fs) = sourcesOf es ++ sourcesOf fs :=
  List.filterMap_append

theorem length_sourcesOf (events : List HostEvent) :
    (sourcesOf events).length = events.countP HostEvent.accepted := by
  rw [sourcesOf, List.length_filterMap_eq_countP]
  rfl

theorem sourcesOf_eq_nil_iff {events : List HostEvent} :
    sourcesOf events = [] ↔ events.any HostEvent.accepted = false := by
  rw [← List.length_eq_zero_iff, length_sourcesOf, List.countP_eq_zero, List.any_eq_false]

/-! ## What the client decodes -/

/-- The data after these events. -/
def reads (data : BMSData) : List HostEvent → BMSData
  | [] => data
  | .notify _ bytes :: events => reads (parseNotificationData data bytes) events
  | _ :: events => reads data events

theorem reads_append (data : BMSData) (es fs : List HostEvent) : reads data (es ++ fs) = reads (reads data es) fs := by
  induction es generalizing data with
  | nil => rfl
  | cons e es ih => cases e <;> exact ih _

/-- Without a notification that is decoded, the data stays. -/
theorem reads_quiet {events : List HostEvent} (h : events.any HostEvent.accepted = false) (data : BMSData) :
    reads data events = data := by
  induction events with
  | nil => rfl
  | cons e events ih =>
    rw [List.any_cons, Bool.or_eq_false_iff] at h
    cases e with
    | onConnect id => exact ih h.2
    | onDisconnect id => exact ih h.2
    | notify id bytes =>
      have hrejected : accepts bytes = false := by simpa [HostEvent.accepted, HostEvent.source] using h.1
      rw [reads, parseNotificationData_rejected hrejected]
      exact ih h.2

namespace LiTimeNimBLEClient

/-- Between the two states exactly the notifications among these events were decoded. -/
structure Decoded (s s' : LiTimeNimBLEClient) (events : List HostEvent) : Prop where
  decoded : s'.decoded = s.decoded ++ sourcesOf events
  data : s'.currentData = reads s.currentData events

theorem Decoded.frames {s s' : LiTimeNimBLEClient} {events : List HostEvent} (h : Decoded s s' events) :
    s'.frames = s.frames + events.countP HostEvent.accepted := by
  rw [LiTimeNimBLEClient.frames, h.decoded, List.length_append, length_sourcesOf, LiTimeNimBLEClient.frames]

theorem Decoded.of_eq {s s' : LiTimeNimBLEClient} (hf : s'.decoded = s.decoded) (hd : s'.currentData = s.currentData) :
    Decoded s s' [] := ⟨hf.trans (List.append_nil _).symm, hd⟩

theorem Decoded.trans {s t u : LiTimeNimBLEClient} {es fs : List HostEvent} (h : Decoded s t es)
    (h' : Decoded t u fs) : Decoded s u (es ++ fs) where
  decoded := by rw [h'.decoded, h.decoded, sourcesOf_append, List.append_assoc]
  data := by rw [h'.data, h.data, reads_append]

/-- A step that decodes nothing, after others. -/
theorem Decoded.then {s t u : LiTimeNimBLEClient} {es : List HostEvent} (h : Decoded s t es)
    (hf : u.decoded = t.decoded) (hd : u.currentData = t.currentData) : Decoded s u es := by
  have := h.trans (.of_eq hf hd)
  rwa [List.append_nil] at this

theorem decoded_onHost (s : LiTimeNimBLEClient) (e : HostEvent) : Decoded s (s.onHost e) [e] := by
  cases e with
  | onConnect id => rw [onHost]; split <;> exact ⟨(List.append_nil _).symm, rfl⟩
  | onDisconnect id => rw [onHost]; split <;> exact ⟨(List.append_nil _).symm, rfl⟩
  | notify id data =>
    refine ⟨?_, rfl⟩
    cases h : accepts data <;> simp [onHost, sourcesOf, HostEvent.source, h]

theorem decoded_onHosts (s : LiTimeNimBLEClient) (es : List HostEvent) : Decoded s (s.onHosts es) es := by
  induction es generalizing s with
  | nil => exact .of_eq rfl rfl
  | cons e es ih => exact (decoded_onHost s e).trans (ih (s.onHost e))

/-- The events `discover` waits through. -/
def discoverEvents (io : ConnectIo) : List HostEvent :=
  io.whileDiscovering ++
    if io.service && io.writeFound && io.notifyFound && io.canNotify then io.whileSubscribing else []

/-- The events `connect` waits through. -/
def connectEvents (s : LiTimeNimBLEClient) (address : Bytes) (io : ConnectIo) : List HostEvent :=
  if address.isEmpty || !io.begun || s.connectedTo address || !io.created then []
  else io.whileLinking ++ if io.linked then discoverEvents io else []

/-- `connect` succeeds: it is connected to this address, or every call on the way does. -/
def connects (s : LiTimeNimBLEClient) (address : Bytes) (io : ConnectIo) : Bool :=
  !address.isEmpty && io.begun && (s.connectedTo address ||
    io.created && io.linked && io.service && io.writeFound && io.notifyFound && io.canNotify && io.subscribed)

/-- The events `update` waits through. -/
def updateEvents (s : LiTimeNimBLEClient) (io : UpdateIo) : List HostEvent :=
  if s.queries io then io.whileWriting else []

theorem decoded_discover (s : LiTimeNimBLEClient) (io : ConnectIo) :
    Decoded s (s.discover io).1 (discoverEvents io) := by
  have hdiscovered := decoded_onHosts s io.whileDiscovering
  have hfound : Decoded s ((s.onHosts io.whileDiscovering).find io) io.whileDiscovering := hdiscovered.then rfl rfl
  have hsubscribed := hfound.trans (decoded_onHosts _ io.whileSubscribing)
  unfold discover discoverEvents
  cases hservice : io.service with
  | false => simpa using hdiscovered.then (u := (s.onHosts io.whileDiscovering).clearConnection) rfl rfl
  | true =>
    cases hfailed : !io.writeFound || !io.notifyFound || !io.canNotify with
    | true =>
      have hnone : (true && io.writeFound && io.notifyFound && io.canNotify) = false := by
        simpa [or_assoc, imp_iff_not_or] using hfailed
      simp only [hnone, Bool.not_true, Bool.false_eq_true, if_false, if_true, List.append_nil]
      exact hfound.then rfl rfl
    | false =>
      have hall : (true && io.writeFound && io.notifyFound && io.canNotify) = true := by
        simpa [and_assoc] using hfailed
      simp only [hall, Bool.not_true, Bool.false_eq_true, if_false, if_true]
      split
      · exact hsubscribed.then rfl rfl
      · exact hsubscribed.then rfl rfl

theorem decoded_linkUp (s : LiTimeNimBLEClient) : Decoded s s.linkUp [] := by
  unfold linkUp
  split <;> exact .of_eq rfl rfl

theorem decoded_connect (s : LiTimeNimBLEClient) (address : Bytes) (io : ConnectIo) :
    Decoded s (s.connect address io).1 (s.connectEvents address io) := by
  have hlinking : Decoded s ((s.replace address).create.onHosts io.whileLinking) io.whileLinking :=
    (show Decoded s (s.replace address).create [] from .of_eq rfl rfl).trans (decoded_onHosts _ _)
  unfold connect connectEvents
  cases ha : address.isEmpty with
  | true => exact .of_eq rfl rfl
  | false =>
    cases hb : io.begun with
    | false => exact .of_eq rfl rfl
    | true =>
      cases hc : s.connectedTo address with
      | true => exact .of_eq rfl rfl
      | false =>
        cases hcreated : io.created with
        | false => exact .of_eq rfl rfl
        | true =>
          cases hl : io.linked with
          | false => simpa using hlinking.then (u := LiTimeNimBLEClient.clearConnection _) rfl rfl
          | true =>
            simp only [Bool.not_true, Bool.or_self, Bool.false_eq_true, if_false, if_true]
            exact hlinking.trans ((decoded_linkUp _).trans (decoded_discover _ io))

theorem connect_result (s : LiTimeNimBLEClient) (address : Bytes) (io : ConnectIo) :
    (s.connect address io).2 = s.connects address io := by
  unfold connect connects discover
  cases address.isEmpty <;> cases io.begun <;> cases s.connectedTo address <;> try rfl
  cases io.created <;> cases io.linked <;> cases io.service <;> try rfl
  cases io.writeFound <;> cases io.notifyFound <;> cases io.canNotify <;> cases io.subscribed <;> rfl

theorem decoded_update (s : LiTimeNimBLEClient) (io : UpdateIo) : Decoded s (s.update io) (s.updateEvents io) := by
  have hwriting : Decoded s (s.beginWrite.onHosts io.whileWriting) io.whileWriting :=
    (show Decoded s s.beginWrite [] from .of_eq rfl rfl).trans (decoded_onHosts _ _)
  unfold update updateEvents
  cases hc : s.isConnected with
  | false =>
    have hq : s.queries io = false := by simp [queries, hc]
    simp only [hq, Bool.not_false, if_true, Bool.false_eq_true, if_false]
    exact .of_eq rfl rfl
  | true =>
    simp only [Bool.not_true, Bool.false_eq_true, if_false]
    split
    · split
      · exact hwriting.then rfl rfl
      · exact hwriting.then rfl rfl
    · exact .of_eq rfl rfl

end LiTimeNimBLEClient

/-! ## The provider -/

/-- One run of `syncData`: the stamp it publishes, and how many notifications
had been decoded by then. -/
structure Sync where
  updatedAt : UInt32
  frames : Nat
  deriving DecidableEq

/-- What `syncData` reads from its client, behind the connection. -/
inductive Reading where
  | voltage
  | current
  | soc
  | remainingAh
  | capacityAh
  | cellTemp
  | mosfetTemp
  | cells
  deriving DecidableEq, Repr

namespace Reading

/-- The order of the reads. -/
def order : List Reading := [.voltage, .current, .soc, .remainingAh, .capacityAh, .cellTemp, .mosfetTemp, .cells]

/-- The reads up to this one. -/
def upTo (r : Reading) : List Reading := order.takeWhile (· ≠ r) ++ [r]

end Reading

structure LiTimeBLEProvider where
  macAddress : Bytes := []
  bms : LiTimeNimBLEClient := {}
  data : BatteryData := {}
  /-- Accounts: the link of the latest successful `connect` and the notifications
  decoded when it began, the links that the published readings were decoded on,
  and the syncs so far. -/
  link : Option ClientId := none
  since : Nat := 0
  sources : Reading → Option ClientId := fun _ => none
  syncs : List Sync := []

/-- An update of the client and the sync after it: the events behind the check for
a connection, between the two, and before each read of the sync, and the clock
read of its stamp. -/
structure SyncIo where
  beforeUpdate : List HostEvent := []
  update : UpdateIo
  beforeSync : List HostEvent := []
  before : Reading → List HostEvent := fun _ => []
  now : UInt32

namespace SyncIo

/-- The events of a sync up to this read. -/
def upTo (io : SyncIo) (r : Reading) : List HostEvent := r.upTo.flatMap io.before

/-- The events behind the first read, and before the last. -/
def between (io : SyncIo) : List HostEvent := Reading.order.tail.flatMap io.before

/-- The events of a sync. -/
def amid (io : SyncIo) : List HostEvent := io.before .voltage ++ io.between

/-- The events behind the first read, up to this one. -/
def behindFirst (io : SyncIo) (r : Reading) : List HostEvent := r.upTo.tail.flatMap io.before

theorem upTo_eq (io : SyncIo) (r : Reading) : io.upTo r = io.before .voltage ++ io.behindFirst r := by
  have hfirst : r.upTo = .voltage :: r.upTo.tail := by cases r <;> rfl
  rw [upTo, hfirst, List.flatMap_cons, behindFirst]

theorem behindFirst_prefix (io : SyncIo) (r : Reading) : io.behindFirst r <+: io.between := by
  have hreads : r.upTo.tail <+: Reading.order.tail := by cases r <;> decide
  obtain ⟨later, hlater⟩ := hreads
  rw [between, ← hlater, List.flatMap_append]
  exact List.prefix_append _ _

end SyncIo

namespace LiTimeBLEProvider

/-- What `syncData` makes of what it has read. -/
def published (bms : LiTimeNimBLEClient) (now : UInt32) : BatteryData :=
  let cells := bms.currentData.cellVoltages.take MAX_BATTERY_CELLS
  let minCell := cells.foldl (fun least cell => if cell < least then cell else least) (cells.headD 0)
  let maxCell := cells.foldl (fun most cell => if cell > most then cell else most) (cells.headD 0)
  { voltage := bms.currentData.totalVoltage
    current := bms.currentData.current
    power := bms.currentData.totalVoltage * bms.currentData.current
    soc := bms.currentData.soc
    remainingAh := bms.currentData.remainingAh
    capacityAh := bms.currentData.fullCapacityAh
    cellTemp := bms.currentData.cellTemp
    mosfetTemp := bms.currentData.mosfetTemp
    cells := fun i => cells.getD i 0
    cellCount := cells.length
    minCell
    maxCell
    cellDeltaMv := (maxCell - minCell) * 1000
    connected := bms.isConnected
    simulated := false
    valid := 0 < bms.currentData.totalVoltage && 0 < cells.length
    updatedAt := now }

/-- One reading from each of these data. -/
def assembled (data : Reading → BMSData) : BMSData where
  totalVoltage := (data .voltage).totalVoltage
  current := (data .current).current
  soc := (data .soc).soc
  remainingAh := (data .remainingAh).remainingAh
  fullCapacityAh := (data .capacityAh).fullCapacityAh
  cellTemp := (data .cellTemp).cellTemp
  mosfetTemp := (data .mosfetTemp).mosfetTemp
  cellVoltages := (data .cells).cellVoltages

/-- The client at this read of a sync. -/
def atRead (bms : LiTimeNimBLEClient) (io : SyncIo) (r : Reading) : LiTimeNimBLEClient := bms.onHosts (io.upTo r)

/-- What the sync reads, each reading as the client holds it at that moment. -/
def copied (bms : LiTimeNimBLEClient) (io : SyncIo) : BMSData := assembled fun r => (atRead bms io r).currentData

/-- The connection is read first, the clock last. -/
def syncData (s : LiTimeBLEProvider) (io : SyncIo) : LiTimeBLEProvider :=
  { s with
    bms := s.bms.onHosts io.amid
    data := published { s.bms with currentData := copied s.bms io } io.now
    sources := fun r => (atRead s.bms io r).source
    syncs := s.syncs ++ [⟨io.now, (s.bms.onHosts io.amid).frames⟩] }

/-- The client when the sync after its update begins. -/
def atSync (bms : LiTimeNimBLEClient) (io : SyncIo) : LiTimeNimBLEClient :=
  ((bms.onHosts io.beforeUpdate).update io.update).onHosts io.beforeSync

/-- `bms.update(); syncData();` -/
def updateAndSync (s : LiTimeBLEProvider) (io : SyncIo) : LiTimeBLEProvider :=
  syncData { s with bms := atSync s.bms io } io

def begin (s : LiTimeBLEProvider) : LiTimeBLEProvider :=
  { s with data := { s.data with connected := false, simulated := false, valid := false } }

def connect (s : LiTimeBLEProvider) (macAddress : Bytes) (io : ConnectIo) (sync : SyncIo) :
    LiTimeBLEProvider × Bool :=
  let since := s.bms.frames
  let (bms, ok) := s.bms.connect macAddress io
  -- A failed connect leaves the data, and even its `valid`, as they were.
  if !ok then ({ s with macAddress, bms, data := { s.data with connected := false } }, false)
  else
    let data := { s.data with connected := true, simulated := false, valid := false }
    (updateAndSync { s with macAddress, bms, data, link := bms.client, since } sync, true)

def update (s : LiTimeBLEProvider) (io : SyncIo) : LiTimeBLEProvider :=
  if !s.bms.isConnected then { s with data := { s.data with connected := false, valid := false } }
  else s.updateAndSync io

/-! ## Runs -/

inductive Op where
  | begin
  | connect (macAddress : Bytes) (io : ConnectIo) (sync : SyncIo)
  | update (sync : SyncIo)
  | host (event : HostEvent)

def step (s : LiTimeBLEProvider) : Op → LiTimeBLEProvider
  | .begin => s.begin
  | .connect macAddress io sync => (s.connect macAddress io sync).1
  | .update sync => s.update sync
  | .host event => { s with bms := s.bms.onHost event }

/-- The events from the update on, up to the first read of the sync. -/
def earlyEvents (bms : LiTimeNimBLEClient) (io : SyncIo) : List HostEvent :=
  io.beforeUpdate ++ (bms.onHosts io.beforeUpdate).updateEvents io.update ++ io.beforeSync ++ io.before .voltage

/-- The sync that a step runs, if it runs one. -/
def runsSync (s : LiTimeBLEProvider) : Op → Option SyncIo
  | .connect macAddress io sync => if s.bms.connects macAddress io then some sync else none
  | .update sync => if s.bms.isConnected then some sync else none
  | _ => none

/-- The events delivered during a step, up to the first read of its sync if it runs one. -/
def early (s : LiTimeBLEProvider) : Op → List HostEvent
  | .begin => []
  | .connect macAddress io sync =>
    s.bms.connectEvents macAddress io ++
      if s.bms.connects macAddress io then earlyEvents (s.bms.connect macAddress io).1 sync else []
  | .update sync => if s.bms.isConnected then earlyEvents s.bms sync else []
  | .host event => [event]

/-- The events between the reads of its sync. -/
def late (s : LiTimeBLEProvider) (op : Op) : List HostEvent := (s.runsSync op).elim [] SyncIo.between

/-- The events delivered during a step. -/
def delivered (s : LiTimeBLEProvider) (op : Op) : List HostEvent := s.early op ++ s.late op

theorem decoded_atSync (bms : LiTimeNimBLEClient) (io : SyncIo) : bms.Decoded (atSync bms io)
    (io.beforeUpdate ++ (bms.onHosts io.beforeUpdate).updateEvents io.update ++ io.beforeSync) :=
  ((bms.decoded_onHosts io.beforeUpdate).trans (LiTimeNimBLEClient.decoded_update _ io.update)).trans
    (LiTimeNimBLEClient.decoded_onHosts _ _)

theorem decoded_atRead (bms : LiTimeNimBLEClient) (io : SyncIo) (r : Reading) :
    bms.Decoded (atRead (atSync bms io) io r) (earlyEvents bms io ++ io.behindFirst r) := by
  have hread := (decoded_atSync bms io).trans (LiTimeNimBLEClient.decoded_onHosts (atSync bms io) (io.upTo r))
  rwa [io.upTo_eq, ← List.append_assoc, ← io.upTo_eq] at hread

theorem decoded_updateAndSync (s : LiTimeBLEProvider) (io : SyncIo) :
    s.bms.Decoded (s.updateAndSync io).bms (earlyEvents s.bms io ++ io.between) := by
  have hsync := (decoded_atSync s.bms io).trans (LiTimeNimBLEClient.decoded_onHosts (atSync s.bms io) io.amid)
  rwa [SyncIo.amid, ← List.append_assoc] at hsync

/-- Exactly the notifications delivered during a step are decoded in it. -/
theorem decoded_step (s : LiTimeBLEProvider) (op : Op) : s.bms.Decoded (s.step op).bms (s.delivered op) := by
  cases op with
  | begin => exact .of_eq rfl rfl
  | connect macAddress io sync =>
    have hconnect := s.bms.decoded_connect macAddress io
    have hresult := s.bms.connect_result macAddress io
    rw [step, connect, delivered, early, late, runsSync]
    cases hok : s.bms.connects macAddress io with
    | false => simpa [hresult, hok] using hconnect
    | true =>
      simp only [hresult, hok, Bool.not_true, Bool.false_eq_true, if_false, if_true, Option.elim_some]
      rw [List.append_assoc]
      exact hconnect.trans (decoded_updateAndSync { s with bms := (s.bms.connect macAddress io).1 } sync)
  | update sync =>
    rw [step, update, delivered, early, late, runsSync]
    cases hc : s.bms.isConnected with
    | false => exact .of_eq rfl rfl
    | true =>
      simp only [Bool.not_true, Bool.false_eq_true, if_false, if_true, Option.elim_some]
      exact decoded_updateAndSync s sync
  | host event =>
    have hevent := s.bms.decoded_onHost event
    rwa [← List.append_nil [event]] at hevent

/-! ## What a step does -/

/-- The step is a successful `connect`. -/
def reconnects (s : LiTimeBLEProvider) : Op → Bool
  | .connect macAddress io _ => s.bms.connects macAddress io
  | _ => false

/-- Nothing is published but flags, and `valid` is not set. -/
structure Kept (s t : LiTimeBLEProvider) : Prop where
  data : ∃ connected simulated valid, t.data = { s.data with connected, simulated, valid } ∧
    (valid = true → s.data.valid = true)
  link : t.link = s.link
  since : t.since = s.since
  sources : t.sources = s.sources
  syncs : t.syncs = s.syncs

/-- The readings are published as a sync finds them, behind these early events. -/
structure Synced (s t : LiTimeBLEProvider) (early : List HostEvent) (io : SyncIo) (bms : LiTimeNimBLEClient) : Prop where
  reads : ∀ r, s.bms.Decoded (atRead bms io r) (early ++ io.behindFirst r)
  data : t.data = published { bms with currentData := copied bms io } io.now
  sources : t.sources = fun r => (atRead bms io r).source
  syncs : t.syncs = s.syncs ++ [⟨io.now, t.bms.frames⟩]

theorem synced_updateAndSync (s : LiTimeBLEProvider) (io : SyncIo) :
    s.Synced (s.updateAndSync io) (earlyEvents s.bms io) io (atSync s.bms io) :=
  ⟨decoded_atRead s.bms io, rfl, rfl, rfl⟩

/-- A step without a sync. -/
theorem step_kept {s : LiTimeBLEProvider} {op : Op} (h : s.runsSync op = none) : s.Kept (s.step op) := by
  cases op with
  | begin => exact ⟨⟨false, false, false, rfl, nofun⟩, rfl, rfl, rfl, rfl⟩
  | connect macAddress io sync =>
    have hresult := s.bms.connect_result macAddress io
    have hfailed : s.bms.connects macAddress io = false := by simpa [runsSync] using h
    rw [step, connect]
    simp only [hresult, hfailed, Bool.not_false, if_true]
    exact ⟨⟨false, s.data.simulated, s.data.valid, rfl, id⟩, rfl, rfl, rfl, rfl⟩
  | update sync =>
    have hdown : s.bms.isConnected = false := by simpa [runsSync] using h
    rw [step, update, hdown]
    exact ⟨⟨false, s.data.simulated, false, rfl, nofun⟩, rfl, rfl, rfl, rfl⟩
  | host event => exact ⟨⟨s.data.connected, s.data.simulated, s.data.valid, rfl, id⟩, rfl, rfl, rfl, rfl⟩

/-- A step with one. -/
theorem step_synced {s : LiTimeBLEProvider} {op : Op} {io : SyncIo} (h : s.runsSync op = some io) :
    ∃ bms, s.Synced (s.step op) (s.early op) io bms := by
  cases op with
  | begin => cases h
  | connect macAddress io' sync =>
    have hresult := s.bms.connect_result macAddress io'
    cases hok : s.bms.connects macAddress io' with
    | false => simp [runsSync, hok] at h
    | true =>
      obtain rfl : sync = io := by simpa [runsSync, hok] using h
      refine ⟨atSync (s.bms.connect macAddress io').1 sync, ?_, ?_, ?_, ?_⟩
      · intro r
        simp only [early, hok, if_true, List.append_assoc]
        exact (s.bms.decoded_connect macAddress io').trans (decoded_atRead _ sync r)
      all_goals
        simp only [step, connect, hresult, hok, Bool.not_true, Bool.false_eq_true, if_false]
        rfl
  | update sync =>
    cases hup : s.bms.isConnected with
    | false => simp [runsSync, hup] at h
    | true =>
      obtain rfl : sync = io := by simpa [runsSync, hup] using h
      have hsynced := synced_updateAndSync s sync
      refine ⟨atSync s.bms sync, ?_⟩
      simp only [step, update, early, hup, Bool.not_true, Bool.false_eq_true, if_false, if_true]
      exact hsynced
  | host event => cases h

theorem step_since (s : LiTimeBLEProvider) (op : Op) :
    (s.step op).since = if s.reconnects op then s.bms.frames else s.since := by
  cases op with
  | begin => rfl
  | connect macAddress io sync =>
    have hresult := s.bms.connect_result macAddress io
    rw [step, connect, reconnects]
    cases hok : s.bms.connects macAddress io <;> simp [hresult, hok, updateAndSync, syncData]
  | update sync =>
    rw [step, update]
    split <;> rfl
  | host event => rfl

end LiTimeBLEProvider

end LiTimeGateway
