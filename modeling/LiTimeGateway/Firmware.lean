import LiTimeGateway.Ble.FirstBattery
import LiTimeGateway.Ble.Provenance
import LiTimeGateway.Storage.PostedSamples
/-!
# The sketch

`setup` and `loop` of `firmware.ino`, as far as they concern the battery, the
storage and the remote sync. What `loop` records is what the provider has
published, and what the provider publishes is read from notifications: so every
sample that the endpoint accepts is made of their readings. Files outlive a power
cycle and nothing else does; the power is lost between two turns or in the
acknowledgement of a batch, whose file calls may fail as well.
-/

namespace LiTimeGateway

open Lib Lib.Json RemoteQueue

/-- `uplink` is the storage, with an account of its samples and of the bodies posted. -/
structure Firmware where
  battery : BatteryLoop := {}
  uplink : Uplink
  remoteSync : RemoteSync := {}
  previousBatteryConnected : Bool := false

namespace Firmware

/-- What `setup` meets: whether the file system mounts and the scanner begins,
the clock read of its event, and its scan. -/
structure SetupIo where
  mount : Bool
  scanner : Bool
  uptime : UInt32
  scan : ScanIo

/-- What one turn of `loop` meets: the events that requests record, what the
battery does, and the clock reads and answers of the rest. -/
structure LoopIo where
  requests : List (Bytes × UInt32) := []
  battery : PassIo
  uptime : UInt32
  clock : StorageManager.SampleClock
  remote : RemoteLoopIo

def recordEvent (u : Uplink) (event : Bytes) (data : Option BatteryData) (uptime : UInt32) : Uplink :=
  { u with storage := u.storage.recordEvent event data uptime }

/-- The account goes on from `u`, of which the gateway itself finds the files. -/
def setup (u : Uplink) (io : SetupIo) : Firmware where
  battery := BatteryLoop.setup io.scanner io.scan
  uplink := recordEvent { u with storage := (StorageManager.begin { files := u.storage.files } io.mount).1 }
    (if io.scanner then ascii "gateway_started" else ascii "ble_scanner_init_failed") none io.uptime
  remoteSync := RemoteSync.begin {}

/-- The start of a turn, up to the event of a changed connection. -/
def handle (g : Firmware) (io : LoopIo) : Uplink :=
  let uplink := io.requests.foldl (fun u request => recordEvent u request.1 none request.2) g.uplink
  let updated := (g.battery.battery.update io.battery.sync).data
  if updated.connected ≠ g.previousBatteryConnected then
    recordEvent uplink (if updated.connected then ascii "battery_connected" else ascii "battery_disconnected")
      (some updated) io.uptime
  else uplink

variable (config : RemoteConfig)

def loop (g : Firmware) (io : LoopIo) : Firmware :=
  let battery := g.battery.pass io.battery
  let uplink := (g.handle io).step (.recordTelemetry battery.battery.data io.clock)
  let (remoteSync, published) := g.remoteSync.loop config uplink.storage io.remote
  { battery
    uplink := if published.isSome then uplink.publish io.remote.http io.remote.acknowledge else uplink
    remoteSync
    previousBatteryConnected := (g.battery.battery.update io.battery.sync).data.connected }

/-- A turn of `loop`, or an event of the NimBLE task between two of them. -/
inductive Event where
  | loop (io : LoopIo)
  | host (event : HostEvent)

def step (g : Firmware) : Event → Firmware
  | .loop io => g.loop config io
  | .host event => { g with battery := g.battery.step (.host event) }

/-- The power is lost in the acknowledgement of the turn. -/
def Event.losesPower : Event → Bool
  | .loop io => io.remote.acknowledge.powerLost.isSome
  | .host _ => false

/-- What happens from one power-on to the next: a turn that loses the power is the last. -/
structure Session where
  setup : SetupIo
  events : List Event
  powered : ∀ e ∈ events.dropLast, e.losesPower = false

/-- What a session leaves behind. -/
def session (u : Uplink) (s : Session) : Uplink := (Runs.run (step config) (setup u s.setup) s.events).uplink

/-- The battery's part of an event. -/
def Event.battery : Event → BatteryLoop.Event
  | .loop io => .pass io.battery
  | .host event => .host event

theorem battery_run (g : Firmware) (es : List Event) :
    (Runs.run (step config) g es).battery = Runs.run BatteryLoop.step g.battery (es.map Event.battery) := by
  induction es generalizing g with
  | nil => rfl
  | cons e es ih =>
    rw [Runs.run_cons, ih, List.map_cons, Runs.run_cons]
    cases e <;> rfl

/-! ## The queue -/

/-- What keeps an invariant of the queue while the acknowledgements end like this:
files are written beside the queue, samples join it, and batches leave it. -/
structure QueueInvariant (I : Uplink → Prop) (C : StorageManager.AckIo → Prop) : Prop where
  beside : ∀ {u : Uplink}, I u → ∀ {storage : StorageManager},
    storage.files .remoteNdjson = u.storage.files .remoteNdjson → I { u with storage }
  sample : ∀ {u : Uplink}, I u → ∀ data clock, I (u.step (.recordTelemetry data clock))
  publish : ∀ {u : Uplink}, I u → ∀ http {io}, C io → I (u.publish http io)

theorem agrees_of_queue {u : Uplink} (h : u.Agrees) {storage : StorageManager}
    (hqueue : storage.files .remoteNdjson = u.storage.files .remoteNdjson) : Uplink.Agrees { u with storage } where
  refines :=
    { queue_ok := by
        have hok := h.refines.queue_ok
        rw [QueueOk] at hok ⊢
        exact hqueue ▸ hok
      queued := by
        have hqueued := h.refines.queued
        rw [queueItems] at hqueued ⊢
        exact hqueue ▸ hqueued
      conserved := h.refines.conserved }
  conserved := h.conserved
  batches := h.batches
  accepted := h.accepted

theorem agrees_invariant : QueueInvariant Uplink.Agrees (· = .ok) where
  beside := agrees_of_queue
  sample h data clock := Uplink.agrees_step h _
  publish := by
    rintro u h http _ rfl
    rw [Uplink.publish_ok]
    exact Uplink.agrees_step h _

theorem lined_invariant : QueueInvariant Uplink.Lined fun io => io.println = fun _ => none where
  beside h _ hqueue := h.congr hqueue rfl rfl
  sample h data clock := Uplink.lined_sample h data clock
  publish h http _ hwhole := Uplink.lined_publish h http hwhole

theorem recordEvent_other (s : StorageManager) (event : Bytes) (data : Option BatteryData) (uptime : UInt32)
    {path : Path} (hp : path ≠ .eventsNdjson) (hprev : path ≠ .previous .eventsNdjson) :
    (s.recordEvent event data uptime).files path = s.files path := by
  rw [StorageManager.recordEvent]
  split
  · rfl
  · exact StorageManager.appendLine_other hp hprev

/-! ## The samples -/

theorem appended_requests (u : Uplink) (requests : List (Bytes × UInt32)) :
    (requests.foldl (fun u request => recordEvent u request.1 none request.2) u).outbox = u.outbox := by
  induction requests generalizing u with
  | nil => rfl
  | cons request requests ih => exact ih _

theorem appended_step (u : Uplink) (op : Op) :
    (u.step op).outbox.appended = u.outbox.appended ++ sampleOf u.storage op := by
  cases op with
  | recordTelemetry data clock =>
    rw [Uplink.step, sampleEffects, sampleOf]
    split
    · split <;> rfl
    · exact (List.append_nil _).symm
  | publishNextBatch http =>
    rw [Uplink.step, sampleEffects, sampleOf]
    split <;> exact (List.append_nil _).symm

theorem outbox_handle (g : Firmware) (io : LoopIo) : (g.handle io).outbox = g.uplink.outbox := by
  unfold handle
  dsimp only
  split
  · exact appended_requests g.uplink io.requests
  · exact appended_requests g.uplink io.requests

/-- A turn records a sample of what is published then, or none, and may post a batch. -/
theorem uplink_loop (g : Firmware) (io : LoopIo) :
    let sample := Op.recordTelemetry (g.loop config io).battery.battery.data io.clock
    (g.loop config io).uplink = (g.handle io).step sample ∨
      (g.loop config io).uplink = ((g.handle io).step sample).publish io.remote.http io.remote.acknowledge := by
  intro sample
  have huplink : (g.loop config io).uplink =
      if (g.remoteSync.loop config ((g.handle io).step sample).storage io.remote).2.isSome then
        ((g.handle io).step sample).publish io.remote.http io.remote.acknowledge
      else (g.handle io).step sample := rfl
  rw [huplink]
  split
  · exact .inr rfl
  · exact .inl rfl

theorem appended_loop (g : Firmware) (io : LoopIo) : (g.loop config io).uplink.outbox.appended =
    g.uplink.outbox.appended ++
      sampleOf (g.handle io).storage (.recordTelemetry (g.loop config io).battery.battery.data io.clock) := by
  rw [← outbox_handle g io, ← appended_step]
  rcases uplink_loop config g io with heq | heq
  · rw [heq]
  · rw [heq, Uplink.publish, Uplink.appended_publish]

theorem mem_appended_loop {g : Firmware} {io : LoopIo} {x : Sample} (h : x ∈ (g.loop config io).uplink.outbox.appended) :
    x ∈ g.uplink.outbox.appended ∨
      x.data = (g.loop config io).battery.battery.data ∧ x.data.valid = true := by
  rw [appended_loop] at h
  rcases List.mem_append.1 h with hpast | hnew
  · exact .inl hpast
  · rw [sampleOf] at hnew
    split at hnew
    · next htakes =>
      rw [List.mem_singleton] at hnew
      rw [StorageManager.takesSample, Bool.and_eq_true, Bool.and_eq_true] at htakes
      rw [hnew]
      exact .inr ⟨rfl, htakes.1.2⟩
    · cases hnew

namespace QueueInvariant

variable {I : Uplink → Prop} {C : StorageManager.AckIo → Prop}

/-- Events are recorded beside the queue. -/
theorem recordEvent (hI : QueueInvariant I C) {u : Uplink} (h : I u) (event : Bytes) (data : Option BatteryData)
    (uptime : UInt32) : I (Firmware.recordEvent u event data uptime) :=
  hI.beside h (recordEvent_other _ _ _ _ (by decide) (by decide))

theorem handle (hI : QueueInvariant I C) {g : Firmware} (h : I g.uplink) (io : LoopIo) : I (g.handle io) := by
  have hrequests : ∀ requests : List (Bytes × UInt32),
      I (requests.foldl (fun u request => Firmware.recordEvent u request.1 none request.2) g.uplink) := by
    intro requests
    induction requests using List.reverseRecOn with
    | nil => exact h
    | append_singleton requests request ih =>
      rw [List.foldl_concat]
      exact hI.recordEvent ih _ _ _
  unfold Firmware.handle
  dsimp only
  split
  · exact hI.recordEvent (hrequests io.requests) _ _ _
  · exact hrequests io.requests

theorem loop (hI : QueueInvariant I C) {g : Firmware} (h : I g.uplink) {io : LoopIo} (hack : C io.remote.acknowledge) :
    I (g.loop config io).uplink := by
  have hsampled := hI.sample (hI.handle h io) (g.loop config io).battery.battery.data io.clock
  rcases uplink_loop config g io with heq | heq
  · rw [heq]
    exact hsampled
  · rw [heq]
    exact hI.publish hsampled io.remote.http hack

/-- The files as they are found keep the queue. -/
theorem setup (hI : QueueInvariant I C) {u : Uplink} (h : I u) (io : SetupIo) : I (Firmware.setup u io).uplink := by
  refine hI.recordEvent (hI.beside h ?_) _ _ _
  rw [StorageManager.begin]
  split
  · rfl
  · split
    · rfl
    · change u.storage.files.write .telemetryCsv (println StorageManager.telemetryHeader) .remoteNdjson = _
      rw [Files.write_other _ _ (by decide)]

end QueueInvariant

/-! ## Sessions -/

/-- Every acknowledgement of these sessions ends like this. -/
def Acknowledged (C : StorageManager.AckIo → Prop) (sessions : List Session) : Prop :=
  ∀ s ∈ sessions, ∀ io, .loop io ∈ s.events → C io.remote.acknowledge

theorem QueueInvariant.events {I : Uplink → Prop} {C : StorageManager.AckIo → Prop} (hI : QueueInvariant I C)
    {g : Firmware} (h : I g.uplink) (es : List Event) (hack : ∀ io, .loop io ∈ es → C io.remote.acknowledge) :
    I (Runs.run (step config) g es).uplink := by
  induction es generalizing g with
  | nil => exact h
  | cons e es ih =>
    have hlater := fun io hio => hack io (List.mem_cons_of_mem e hio)
    cases e with
    | loop io => exact ih (hI.loop config h (hack io List.mem_cons_self)) hlater
    | host event => exact ih h hlater

theorem QueueInvariant.sessions {I : Uplink → Prop} {C : StorageManager.AckIo → Prop} (hI : QueueInvariant I C)
    {u : Uplink} (h : I u) {sessions : List Session} (hack : Acknowledged C sessions) :
    I (Runs.run (session config) u sessions) := by
  induction sessions generalizing u with
  | nil => exact h
  | cons s sessions ih =>
    obtain ⟨hs, hsessions⟩ := List.forall_mem_cons.1 hack
    exact ih (hI.events config (hI.setup h s.setup) s.events hs) hsessions

/-- The operations of the provider in a session. -/
def providerOps (io : SetupIo) (es : List Event) : List LiTimeBLEProvider.Op :=
  BatteryLoop.firmwareOps io.scanner io.scan (es.map Event.battery)

/-- A valid record, made of the readings of notifications that arrived in the session. -/
def ReadIn (io : SetupIo) (es : List Event) (data : BatteryData) : Prop :=
  data.valid = true ∧ LiTimeBLEProvider.Notified (providerOps io es) data

def Session.Read (s : Session) (data : BatteryData) : Prop := ReadIn s.setup s.events data

theorem readIn_mono {io : SetupIo} {es : List Event} {data : BatteryData} (h : ReadIn io es data) (e : Event) :
    ReadIn io (es ++ [e]) data := by
  have hops : providerOps io (es ++ [e]) = providerOps io es ++
      (Runs.run BatteryLoop.step (BatteryLoop.setup io.scanner io.scan) (es.map Event.battery)).runOps [e.battery] := by
    rw [providerOps, providerOps, BatteryLoop.firmwareOps, BatteryLoop.firmwareOps, List.map_append,
      BatteryLoop.runOps_append, List.cons_append, List.append_assoc]
    rfl
  rw [ReadIn, hops]
  exact ⟨h.1, h.2.append _⟩

theorem read_published {u : Uplink} {io : SetupIo} {es : List Event}
    (hvalid : (Runs.run (step config) (setup u io) es).battery.battery.data.valid = true) :
    ReadIn io es (Runs.run (step config) (setup u io) es).battery.battery.data := by
  rw [battery_run] at hvalid ⊢
  exact ⟨hvalid, (LiTimeBLEProvider.firmware_reading io.scanner io.scan (es.map Event.battery)).notified hvalid⟩

/-- The samples that the session has added are readings of it. -/
def Sourced (u : Uplink) (io : SetupIo) (g : Firmware) (past : List Event) : Prop :=
  ∀ x ∈ g.uplink.outbox.appended, x ∈ u.outbox.appended ∨ ReadIn io past x.data

theorem sourced_run (u : Uplink) (io : SetupIo) (es : List Event) :
    Sourced u io (Runs.run (step config) (setup u io) es) es := by
  have hstart : Sourced u io (setup u io) [] := fun x hx => .inl hx
  refine Runs.run_history (I := Sourced u io) (C := fun _ _ => True) hstart ?_
    (Runs.along_true (fun _ _ => trivial) _ es)
  intro past e hpast _
  have hold : ∀ x ∈ (Runs.run (step config) (setup u io) past).uplink.outbox.appended,
      x ∈ u.outbox.appended ∨ ReadIn io (past ++ [e]) x.data :=
    fun x hx => (hpast x hx).imp_right fun hread => readIn_mono hread e
  cases e with
  | host event => exact hold
  | loop turn =>
    intro x hx
    rcases mem_appended_loop config hx with hpublished | ⟨hdata, hvalid⟩
    · exact hold x hpublished
    · have hlast : Runs.run (step config) (setup u io) (past ++ [.loop turn]) = _ := Runs.run_concat _ _ _
      have hpublished : x.data = (Runs.run (step config) (setup u io) (past ++ [.loop turn])).battery.battery.data :=
        hlast ▸ hdata
      rw [hpublished] at hvalid ⊢
      exact .inr (read_published config hvalid)

theorem sourced_sessions (u : Uplink) (sessions : List Session) :
    ∀ x ∈ (Runs.run (session config) u sessions).outbox.appended,
      x ∈ u.outbox.appended ∨ ∃ s ∈ sessions, s.Read x.data := by
  induction sessions generalizing u with
  | nil => exact fun x hx => .inl hx
  | cons s sessions ih =>
    intro x hx
    rcases ih (session config u s) x hx with hfirst | ⟨t, ht, htread⟩
    · exact (sourced_run config u s.setup s.events x hfirst).imp_right fun hs => ⟨s, List.mem_cons_self, hs⟩
    · exact .inr ⟨t, List.mem_cons_of_mem _ ht, htread⟩

/-- Whatever the gateway hears, however its battery, its network, its POSTs and its
acknowledgements behave and however often its power is lost, if there was no queue
file at first: every sample recorded is made of the readings of notifications that
arrived in a session, all of one where no notification is decoded between two reads
of a sync. While no `println` of an acknowledgement is cut short, every body posted
reads as samples recorded one after the other; and while all calls of the
acknowledgements succeed, the bodies that the endpoint accepts read as samples in
their order and none twice. -/
theorem accepted_samples_are_readings (files : Files) (h : files .remoteNdjson = none) (sessions : List Session) :
    let u := Runs.run (session config) { storage := { files } } sessions
    (∀ x ∈ u.outbox.appended, ∃ s ∈ sessions, s.Read x.data) ∧
    (Acknowledged (fun io => io.println = fun _ => none) sessions → ∀ post ∈ u.posts, ∃ xs,
      xs <:+: u.outbox.appended ∧ xs ≠ [] ∧ xs.length ≤ 8 ∧ parse post.body = some (.array (xs.map Sample.value))) ∧
    (Acknowledged (· = .ok) sessions → ∃ batches : List (List Sample), batches.flatten.Sublist u.outbox.appended ∧
      (u.posts.filter Post.accepted).map (fun post => parse post.body) =
        batches.map fun xs => some (.array (xs.map Sample.value))) := by
  intro u
  refine ⟨fun x hx => ?_, fun hwhole => ?_, fun hok => ?_⟩
  · exact (sourced_sessions config _ sessions x hx).resolve_left List.not_mem_nil
  · have hlined := lined_invariant.sessions config (@Uplink.lined_start { files } h) hwhole
    exact fun post hpost => Uplink.batch_read (hlined.batches post hpost)
  · exact (agrees_invariant.sessions config (@Uplink.agrees_start { files } h) hok).accepted_read

def exampleConfig : RemoteConfig where
  enableRemoteSync := true
  endpoint := ascii "https://example.invalid/api/v1/ingest"
  token := ascii "token"
  caCert := ascii "certificate"

/-- A battery that is connected at boot and answers its first query. -/
def exampleSetup : SetupIo where
  mount := true
  scanner := true
  uptime := 900
  scan :=
    { now := 1000
      found := some (ascii "c8:47:80:0f:1a:02")
      sync := { update := ⟨2001, 2001, [], true⟩, beforeSync := [.notify 0 Decoding.discharging], now := 2010 } }

/-- A turn, five minutes later, that records a sample and posts it; the endpoint
answers `status`, and the acknowledgement ends like this. -/
def exampleTurn (status : Int) (acknowledge : StorageManager.AckIo) : Event :=
  .loop
    { battery := { sync := { update := ⟨300000, 300000, [], true⟩, now := 300001 }, rescan := 300001, scan := exampleSetup.scan }
      uptime := 300001
      clock := ⟨300002, 300002, 300002, 300002, 0⟩
      remote := ⟨true, 300003, 300003, ⟨true, status⟩, acknowledge⟩ }

def exampleSession (status : Int) (acknowledge : StorageManager.AckIo) : Session where
  setup := exampleSetup
  events := [exampleTurn status acknowledge]
  powered e he := by cases he

/-- The sample of the first session is refused there, and posted again in the second. -/
def exampleSessions : List Session := [exampleSession 500 .ok, exampleSession 200 .ok]

theorem acknowledged_example {C : StorageManager.AckIo → Prop} (h : C .ok) : Acknowledged C exampleSessions := by
  intro s hs io hio
  obtain rfl | rfl : s = exampleSession 500 .ok ∨ s = exampleSession 200 .ok := by simpa [exampleSessions] using hs
  all_goals
    cases List.mem_singleton.1 hio
    exact h

theorem accepted_samples_are_readings_posted :
    let u := Runs.run (session exampleConfig) { storage := {} } exampleSessions
    u.posts.map Post.accepted = [false, true] ∧ u.outbox.appended.length = 2 ∧
    (∃ batches : List (List Sample), batches.flatten.Sublist u.outbox.appended ∧
      (u.posts.filter Post.accepted).map (fun post => parse post.body) =
        batches.map fun xs => some (.array (xs.map Sample.value))) ∧
    ∀ x ∈ u.outbox.appended, ∃ s ∈ exampleSessions, s.Read x.data := by
  intro u
  have hposts : u.posts.map Post.accepted = [false, true] ∧ u.outbox.appended.length = 2 := by decide +kernel
  obtain ⟨hread, -, haccepted⟩ := accepted_samples_are_readings exampleConfig (fun _ => none) rfl exampleSessions
  exact ⟨hposts.1, hposts.2, haccepted (acknowledged_example rfl), hread⟩

/-- Where the copy cannot be opened, the batch is accepted and posted again. -/
example :
    let u := Runs.run (session exampleConfig) { storage := {} }
      [exampleSession 200 { openOutput := false }, exampleSession 200 .ok]
    (u.posts.map fun post => (post.accepted, post.body.length)) = [(true, 151), (true, 301)] := by
  decide +kernel

end Firmware

end LiTimeGateway
