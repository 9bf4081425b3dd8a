import LiTimeGateway.Ble.LinkTheorems
import LiTimeGateway.Lib.Throttle
import LiTimeGateway.RemoteSync
/-!
# The throttles over reboots

A sample is taken at most once a minute, a sync attempted at most once in five
minutes, a query written at most once a second. Each throttle subtracts a stored
reading of the uptime from a fresh one and then stores a third, read later; the
uptime shows modulo 2^32, and a reboot starts it and the stored readings at zero.

A `World` has the true time beside the firmware, and the logs of what was let
through. What an operation leaves undone when the power fails shows only in the
files, which a reboot leaves in any state.
-/

namespace LiTimeGateway.Throttles

open Lib.Runs Lib.Throttle StorageManager

/-- A query the battery acknowledged. A connection is a client object of one boot. -/
structure Write where
  boot : Nat
  client : ClientId
  writtenAt : Nat
  deriving DecidableEq

structure World where
  storage : StorageManager
  remoteSync : RemoteSync := {}
  bms : LiTimeNimBLEClient := {}
  /-- When the uptime was zero, and the time of the last clock read. -/
  bootAt : Nat
  now : Nat := bootAt
  boots : Nat := 0
  /-- The times stored to `lastSampleAt` and to `lastAttemptAt`. -/
  samples : List Nat := []
  attempts : List Nat := []
  writes : List Write := []

/-! ## Operations -/

/-- The clock reads of one `recordTelemetry`. A read that is not made counts as
made together with the one before it, here and below. -/
structure SampleTimes where
  check : Nat
  stored : Nat
  csv : Nat
  json : Nat
  now : Int

inductive Op where
  | reboot (bootAt : Nat) (files : Files)
  | beginStorage (mount : Bool)
  | beginRemoteSync
  | recordEvent (event : Bytes) (data : Option BatteryData) (readAt : Nat)
  | recordTelemetry (data : BatteryData) (times : SampleTimes)
  | remoteLoop (connected : Bool) (check stored : Nat) (http : Http) (acknowledge : AckIo)
  | connect (address : Bytes) (io : ConnectIo)
  /-- The query is written between the two reads. -/
  | update (check writtenAt stored : Nat) (whileWriting : List HostEvent) (written : Bool)
  | disconnect
  | host (event : HostEvent)

/-- What `millis()` returns at a time. -/
def World.uptime (w : World) (time : Nat) : UInt32 := millis (time - w.bootAt)

def World.clock (w : World) (times : SampleTimes) : SampleClock where
  check := w.uptime times.check
  stored := w.uptime times.stored
  csv := w.uptime times.csv
  json := w.uptime times.json
  now := times.now

variable (config : RemoteConfig)

def World.step (w : World) : Op → World
  | .reboot bootAt files =>
    { storage := { files }, bootAt, boots := w.boots + 1
      samples := w.samples, attempts := w.attempts, writes := w.writes }
  | .beginStorage mount => { w with storage := (w.storage.begin mount).1 }
  | .beginRemoteSync => { w with remoteSync := w.remoteSync.begin }
  | .recordEvent event data readAt =>
    { w with storage := w.storage.recordEvent event data (w.uptime readAt), now := readAt }
  | .recordTelemetry data times =>
    { w with
      storage := w.storage.recordTelemetry data (w.clock times)
      now := times.json
      samples := w.samples ++ if w.storage.takesSample data (w.clock times) then [times.stored] else [] }
  | .remoteLoop connected check stored http acknowledge =>
    let io : RemoteLoopIo := ⟨connected, w.uptime check, w.uptime stored, http, acknowledge⟩
    let (remoteSync, published) := w.remoteSync.loop config w.storage io
    { w with
      storage := (published.map Published.storage).getD w.storage
      remoteSync
      now := stored
      attempts := w.attempts ++ if published.isSome then [stored] else [] }
  | .connect address io => { w with bms := (w.bms.connect address io).1 }
  | .update check writtenAt stored whileWriting written =>
    let io : UpdateIo := ⟨w.uptime check, w.uptime stored, whileWriting, written⟩
    { w with
      bms := w.bms.update io
      now := stored
      writes := w.writes ++
        if w.bms.queries io && written then (w.bms.client.map (⟨w.boots, ·, writtenAt⟩)).toList else [] }
  | .disconnect => { w with bms := w.bms.disconnect }
  | .host event => { w with bms := w.bms.onHost event }

/-- The clock reads come in order, and after those before them. -/
def Ordered (w : World) : Op → Prop
  | .reboot bootAt _ => w.now ≤ bootAt
  | .recordEvent _ _ readAt => w.now ≤ readAt
  | .recordTelemetry _ times =>
    w.now ≤ times.check ∧ times.check ≤ times.stored ∧ times.stored ≤ times.csv ∧ times.csv ≤ times.json
  | .remoteLoop _ check stored _ _ => w.now ≤ check ∧ check ≤ stored
  | .update check writtenAt stored _ _ => w.now ≤ check ∧ check ≤ writtenAt ∧ writtenAt ≤ stored
  | .beginStorage _ | .beginRemoteSync | .connect _ _ | .disconnect | .host _ => True

/-- Two queries of one connection are more than a second apart. -/
def WritesSpaced (writes : List Write) : Prop :=
  writes.Pairwise fun a b => a.boot = b.boot ∧ a.client = b.client → a.writtenAt + 1000 < b.writtenAt

/-- Two samples are a minute apart, two attempts five minutes. -/
structure World.Throttled (w : World) : Prop where
  samples : Spaced 60000 w.samples
  attempts : Spaced 300000 w.attempts
  writes : WritesSpaced w.writes

/-! ## What the stored readings remember -/

/-- The queries written in the present connection. -/
def World.connectionWrites (w : World) : List Nat :=
  (w.writes.filter fun x => x.boot = w.boots ∧ w.bms.client = some x.client).map Write.writtenAt

structure World.Kept (w : World) : Prop where
  booted : w.bootAt ≤ w.now
  sampled : Remembers w.storage.lastSampleAt w.bootAt w.now w.samples
  attempted : Remembers w.remoteSync.lastAttemptAt w.bootAt w.now w.attempts
  queried : Remembers w.bms.lastQuery w.bootAt w.now w.connectionWrites
  written : ∀ x ∈ w.writes, x.writtenAt ≤ w.now
  /-- A client object that is yet to be created has written nothing. -/
  client_lt : ∀ id, w.bms.client = some id → id < w.bms.created
  writes_lt : ∀ x ∈ w.writes, x.boot ≤ w.boots ∧ (x.boot = w.boots → x.client < w.bms.created)
  samples_spaced : Spaced 60000 w.samples
  attempts_spaced : Spaced 300000 w.attempts
  writes_spaced : WritesSpaced w.writes

/-! ## The stored readings through one call -/

theorem begin_lastSampleAt (s : StorageManager) (mount : Bool) : (s.begin mount).1.lastSampleAt = s.lastSampleAt := by
  unfold begin
  split
  · rfl
  · split <;> rfl

theorem recordEvent_lastSampleAt (s : StorageManager) (event : Bytes) (data : Option BatteryData) (uptime : UInt32) :
    (s.recordEvent event data uptime).lastSampleAt = s.lastSampleAt := by
  unfold recordEvent
  split <;> rfl

theorem publishNextBatch_lastSampleAt (s : StorageManager) (http : Http) (io : AckIo) :
    (RemoteSync.publishNextBatch s http io).storage.lastSampleAt = s.lastSampleAt := by
  have hack : ∀ itemCount, (s.acknowledgeRemoteBatch itemCount io).1.lastSampleAt = s.lastSampleAt := by
    intro itemCount
    unfold acknowledgeRemoteBatch
    split <;> rfl
  unfold RemoteSync.publishNextBatch
  dsimp only
  split
  · rfl
  split
  · rfl
  split
  · exact hack _
  · rfl

theorem recordTelemetry_lastSampleAt (s : StorageManager) (data : BatteryData) (clock : SampleClock) :
    (s.recordTelemetry data clock).lastSampleAt =
      if s.takesSample data clock then clock.stored else s.lastSampleAt := by
  unfold recordTelemetry
  cases s.takesSample data clock <;> rfl

/-- What the query throttle reads of a client. -/
def querying (s : LiTimeNimBLEClient) : Option ClientId × Nat × UInt32 := (s.client, s.created, s.lastQuery)

theorem querying_onHost (s : LiTimeNimBLEClient) (event : HostEvent) : querying (s.onHost event) = querying s := by
  cases event with
  | onConnect id => rw [LiTimeNimBLEClient.onHost]; split <;> rfl
  | onDisconnect id => rw [LiTimeNimBLEClient.onHost]; split <;> rfl
  | notify id data => rfl

theorem querying_onHosts (s : LiTimeNimBLEClient) (events : List HostEvent) :
    querying (s.onHosts events) = querying s := by
  induction events generalizing s with
  | nil => rfl
  | cons event events ih => exact (ih (s.onHost event)).trans (querying_onHost s event)

/-- The client is the one before, or none, or a new one whose queries start at zero. -/
inductive Reconnected (s t : LiTimeNimBLEClient) : Prop where
  | same (h : querying t = querying s)
  | none (hclient : t.client = .none) (hcreated : s.created ≤ t.created) (hlast : t.lastQuery = s.lastQuery)
  | fresh (hclient : t.client = some s.created) (hcreated : t.created = s.created + 1) (hlast : t.lastQuery = 0)

theorem Reconnected.cleared {s t : LiTimeNimBLEClient} (hcreated : t.created = s.created + 1)
    (hlast : t.lastQuery = s.lastQuery) : Reconnected s t.clearConnection :=
  .none rfl (by rw [LiTimeNimBLEClient.clearConnection, hcreated]; exact Nat.le_succ _) hlast

theorem querying_eq {s t : LiTimeNimBLEClient} (h : querying t = querying s) :
    t.client = s.client ∧ t.created = s.created ∧ t.lastQuery = s.lastQuery := by
  obtain ⟨hclient, hrest⟩ := Prod.mk.inj h
  exact ⟨hclient, Prod.mk.inj hrest⟩

theorem reconnected_discover {s t : LiTimeNimBLEClient} (hclient : t.client = some s.created)
    (hcreated : t.created = s.created + 1) (hlast : t.lastQuery = s.lastQuery) (io : ConnectIo) :
    Reconnected s (t.discover io).1 := by
  obtain ⟨-, hcreated1, hlast1⟩ := querying_eq (querying_onHosts t io.whileDiscovering)
  obtain ⟨hclient2, hcreated2, hlast2⟩ := querying_eq
    ((querying_onHosts ((t.onHosts io.whileDiscovering).find io) io.whileSubscribing).trans
      (querying_onHosts t io.whileDiscovering))
  rw [LiTimeNimBLEClient.discover]
  split
  · exact .cleared (hcreated1.trans hcreated) (hlast1.trans hlast)
  split
  · exact .cleared (hcreated1.trans hcreated) (hlast1.trans hlast)
  split
  · exact .cleared (hcreated2.trans hcreated) (hlast2.trans hlast)
  · exact .fresh (hclient2.trans hclient) (hcreated2.trans hcreated) rfl

theorem reconnected_connect (s : LiTimeNimBLEClient) (address : Bytes) (io : ConnectIo) :
    Reconnected s (s.connect address io).1 := by
  obtain ⟨hclient, hcreated, hlast⟩ := querying_eq (querying_onHosts (s.replace address).create io.whileLinking)
  rw [LiTimeNimBLEClient.connect]
  split
  · exact .same rfl
  split
  · exact .same rfl
  split
  · exact .same rfl
  split
  · exact .none rfl (Nat.le_refl _) rfl
  split
  · exact .cleared hcreated hlast
  · have hlinked : ((s.replace address).create.onHosts io.whileLinking).linkUp.client = some s.created ∧
        ((s.replace address).create.onHosts io.whileLinking).linkUp.created = s.created + 1 ∧
        ((s.replace address).create.onHosts io.whileLinking).linkUp.lastQuery = s.lastQuery := by
      unfold LiTimeNimBLEClient.linkUp
      split <;> exact ⟨hclient, hcreated, hlast⟩
    exact reconnected_discover hlinked.1 hlinked.2.1 hlinked.2.2 io

theorem querying_update (s : LiTimeNimBLEClient) (io : UpdateIo) :
    querying (s.update io) =
      (s.client, s.created, if s.queries io && io.written then io.stored else s.lastQuery) := by
  obtain ⟨hclient, hcreated, hlast⟩ := querying_eq (querying_onHosts s.beginWrite io.whileWriting)
  unfold LiTimeNimBLEClient.update
  cases hc : s.isConnected with
  | false =>
    have hheld : s.queries io = false := by rw [LiTimeNimBLEClient.queries, hc, Bool.false_and]
    rw [hheld]
    rfl
  | true =>
    cases hq : s.queries io with
    | false => rfl
    | true =>
      cases hw : io.written with
      | false => exact Prod.ext hclient (Prod.ext hcreated hlast)
      | true => exact Prod.ext hclient (Prod.ext hcreated rfl)

/-! ## One step -/

/-- Time goes by. -/
theorem World.Kept.later {w : World} (h : w.Kept) (later : Nat) (hlater : w.now ≤ later) :
    World.Kept { w with now := later } where
  booted := Nat.le_trans h.booted hlater
  sampled := h.sampled.later hlater
  attempted := h.attempted.later hlater
  queried := h.queried.later hlater
  written x hx := Nat.le_trans (h.written x hx) hlater
  client_lt := h.client_lt
  writes_lt := h.writes_lt
  samples_spaced := h.samples_spaced
  attempts_spaced := h.attempts_spaced
  writes_spaced := h.writes_spaced

theorem World.Kept.storage {w : World} (h : w.Kept) {storage : StorageManager}
    (hlast : storage.lastSampleAt = w.storage.lastSampleAt) : World.Kept { w with storage } where
  booted := h.booted
  sampled := by
    rw [hlast]
    exact h.sampled
  attempted := h.attempted
  queried := h.queried
  written := h.written
  client_lt := h.client_lt
  writes_lt := h.writes_lt
  samples_spaced := h.samples_spaced
  attempts_spaced := h.attempts_spaced
  writes_spaced := h.writes_spaced

/-- A connection that is taken up anew has no queries. -/
theorem World.Kept.bms {w : World} (h : w.Kept) {bms : LiTimeNimBLEClient} (hbms : Reconnected w.bms bms) :
    World.Kept { w with bms } := by
  refine ⟨h.booted, h.sampled, h.attempted, ?_, h.written, ?_, ?_, h.samples_spaced, h.attempts_spaced,
    h.writes_spaced⟩
  · cases hbms with
    | same hsame =>
      obtain ⟨hclient, -, hlast⟩ := querying_eq hsame
      unfold connectionWrites
      rw [hclient, hlast]
      exact h.queried
    | none hclient hcreated hlast =>
      rw [hlast]
      refine h.queried.subset ?_
      simp [connectionWrites, hclient]
    | fresh hclient hcreated hlast =>
      rw [hlast]
      refine remembers_boot h.booted ?_
      intro a ha
      simp only [connectionWrites, hclient, List.mem_map, List.mem_filter, decide_eq_true_eq, Option.some.injEq] at ha
      obtain ⟨x, ⟨hx, hboot, hid⟩, -⟩ := ha
      have := (h.writes_lt x hx).2 hboot
      exact absurd hid (Nat.ne_of_gt this)
  · intro id hid
    cases hbms with
    | same hsame =>
      obtain ⟨hclient, hcreated, -⟩ := querying_eq hsame
      rw [hcreated]
      exact h.client_lt id (hclient ▸ hid)
    | none hclient hcreated hlast =>
      rw [hclient] at hid
      cases hid
    | fresh hclient hcreated hlast =>
      obtain rfl : w.bms.created = id := Option.some.inj (hclient.symm.trans hid)
      rw [hcreated]
      exact Nat.lt_succ_self _
  · have hcreated : w.bms.created ≤ bms.created := by
      cases hbms with
      | same hsame => exact Nat.le_of_eq (querying_eq hsame).2.1.symm
      | none hclient hcreated hlast => exact hcreated
      | fresh hclient hcreated hlast => rw [hcreated]; exact Nat.le_succ _
    intro x hx
    obtain ⟨hboots, hlt⟩ := h.writes_lt x hx
    exact ⟨hboots, fun hboot => Nat.lt_of_lt_of_le (hlt hboot) hcreated⟩

variable {config}

theorem kept_reboot {w : World} (h : w.Kept) {bootAt : Nat} (hboot : w.now ≤ bootAt) (files : Files) :
    (w.step config (.reboot bootAt files)).Kept where
  booted := Nat.le_refl _
  sampled := remembers_boot (Nat.le_refl _) fun a ha => Nat.le_trans (h.sampled.le_now a ha) hboot
  attempted := remembers_boot (Nat.le_refl _) fun a ha => Nat.le_trans (h.attempted.le_now a ha) hboot
  queried := remembers_boot (Nat.le_refl _) (by simp [World.connectionWrites, World.step])
  written x hx := Nat.le_trans (h.written x hx) hboot
  client_lt _ hid := nomatch hid
  writes_lt x hx := by
    have hle := (h.writes_lt x hx).1
    refine ⟨Nat.le_succ_of_le hle, fun hnow => ?_⟩
    dsimp only [World.step] at hnow
    omega
  samples_spaced := h.samples_spaced
  attempts_spaced := h.attempts_spaced
  writes_spaced := h.writes_spaced

theorem kept_recordTelemetry {w : World} (h : w.Kept) {data : BatteryData} {times : SampleTimes}
    (hop : Ordered w (.recordTelemetry data times)) : (w.step config (.recordTelemetry data times)).Kept := by
  obtain ⟨hcheck, hstored, hcsv, hjson⟩ := hop
  have hlast := recordTelemetry_lastSampleAt w.storage data (w.clock times)
  cases htakes : w.storage.takesSample data (w.clock times) with
  | false =>
    rw [htakes, if_neg Bool.false_ne_true] at hlast
    have hkept := (h.later times.json (by omega)).storage hlast
    simpa [World.step, htakes] using hkept
  | true =>
    rw [htakes, if_pos rfl] at hlast
    have hpass : ¬ millis (times.check - w.bootAt) - w.storage.lastSampleAt < TELEMETRY_SAMPLE_INTERVAL_MS := by
      rw [takesSample, Bool.and_eq_true, Bool.not_eq_true', decide_eq_false_iff_not] at htakes
      exact htakes.2
    obtain ⟨hspaced, hremembers⟩ := h.sampled.passed h.booted hcheck hstored hpass h.samples_spaced
    have hlater := h.later times.json (by omega)
    refine ⟨hlater.booted, ?_, hlater.attempted, hlater.queried, hlater.written, h.client_lt, h.writes_lt, ?_,
      h.attempts_spaced, h.writes_spaced⟩
    · simp only [World.step, htakes, if_true, hlast]
      exact hremembers.later (by omega)
    · simp only [World.step, htakes, if_true]
      exact hspaced

theorem kept_remoteLoop {w : World} (h : w.Kept) {connected : Bool} {check stored : Nat} {http : Http}
    {acknowledge : AckIo} (hop : Ordered w (.remoteLoop connected check stored http acknowledge)) :
    (w.step config (.remoteLoop connected check stored http acknowledge)).Kept := by
  obtain ⟨hcheck, hstored⟩ := hop
  have hlater := h.later stored (by omega)
  cases hattempts : w.remoteSync.attempts config ⟨connected, w.uptime check, w.uptime stored, http, acknowledge⟩ with
  | false =>
    simpa [World.step, RemoteSync.loop_held hattempts] using hlater
  | true =>
    have hpass : ¬ millis (check - w.bootAt) - w.remoteSync.lastAttemptAt < REMOTE_SYNC_INTERVAL_MS := by
      rw [RemoteSync.attempts, Bool.and_eq_true, Bool.not_eq_true', decide_eq_false_iff_not] at hattempts
      exact hattempts.2
    obtain ⟨hspaced, hremembers⟩ := h.attempted.passed h.booted hcheck hstored hpass h.attempts_spaced
    have hstorage := hlater.storage (publishNextBatch_lastSampleAt w.storage http acknowledge)
    simp only [World.step, RemoteSync.loop_attempts hattempts, Option.map_some, Option.getD_some, Option.isSome_some,
      if_true]
    exact ⟨hlater.booted, hstorage.sampled, hremembers, hlater.queried, hlater.written, h.client_lt, h.writes_lt,
      h.samples_spaced, hspaced, h.writes_spaced⟩

/-- A query that is due comes more than a second after those of its connection. -/
theorem due_writes {w : World} (h : w.Kept) {check : Nat} (hcheck : w.now ≤ check) {io : UpdateIo}
    (hio : io.check = w.uptime check) (hdue : w.bms.queries io = true) :
    ∀ a ∈ w.connectionWrites, a + 1000 < check := by
  have hpass : ¬ millis (check - w.bootAt) - w.bms.lastQuery < 1001 := by
    rw [LiTimeNimBLEClient.queries, Bool.and_eq_true, decide_eq_true_eq, hio, World.uptime] at hdue
    have hlt := UInt32.lt_iff_toNat_lt.1 hdue.2
    rw [UInt32.lt_iff_toNat_lt]
    have h1000 : (1000 : UInt32).toNat = 1000 := rfl
    have h1001 : (1001 : UInt32).toNat = 1001 := rfl
    omega
  have hle := h.queried.interval_le hcheck hpass
  intro a ha
  have := hle a ha
  have h1001 : (1001 : UInt32).toNat = 1001 := rfl
  omega

theorem kept_written {w : World} (h : w.Kept) {check writtenAt stored : Nat} (hcheck : w.now ≤ check)
    (hwritten : check ≤ writtenAt) (hstored : writtenAt ≤ stored) (hdue : ∀ a ∈ w.connectionWrites, a + 1000 < check)
    {id : ClientId} (hclient : w.bms.client = some id) {bms : LiTimeNimBLEClient}
    (hafter : querying bms = (w.bms.client, w.bms.created, w.uptime stored)) :
    World.Kept { w with bms, now := stored, writes := w.writes ++ [⟨w.boots, id, writtenAt⟩] } := by
  obtain ⟨hclient', hrest⟩ := Prod.mk.inj hafter
  obtain ⟨hcreated', hlast'⟩ := Prod.mk.inj hrest
  have hlater := h.later stored (by omega)
  have hwrittenAt : ∀ x ∈ w.writes ++ [⟨w.boots, id, writtenAt⟩], x.writtenAt ≤ stored := by
    intro x hx
    rcases List.mem_append.1 hx with hx | hx
    · exact hlater.written x hx
    · rw [List.mem_singleton] at hx
      rw [hx]
      exact hstored
  refine ⟨hlater.booted, hlater.sampled, hlater.attempted, ?_, hwrittenAt, ?_, ?_, h.samples_spaced, h.attempts_spaced,
    ?_⟩
  · dsimp only
    rw [hlast']
    refine remembers_read hlater.booted (Nat.le_refl _) ?_
    intro a ha
    obtain ⟨x, hx, rfl⟩ := List.mem_map.1 ha
    exact hwrittenAt x (List.mem_filter.1 hx).1
  · dsimp only
    rw [hclient', hcreated']
    exact h.client_lt
  · dsimp only
    rw [hcreated']
    intro x hx
    rcases List.mem_append.1 hx with hx | hx
    · exact h.writes_lt x hx
    · rw [List.mem_singleton] at hx
      rw [hx]
      exact ⟨Nat.le_refl _, fun _ => h.client_lt id hclient⟩
  · refine List.pairwise_append.2 ⟨h.writes_spaced, List.pairwise_singleton _ _, ?_⟩
    rintro a ha b hb ⟨hboot, hid⟩
    rw [List.mem_singleton] at hb
    rw [hb] at hboot hid ⊢
    have hmem : a.writtenAt ∈ w.connectionWrites := by
      refine List.mem_map.2 ⟨a, List.mem_filter.2 ⟨ha, ?_⟩, rfl⟩
      rw [decide_eq_true_eq, hclient, hid]
      exact ⟨hboot, rfl⟩
    exact Nat.lt_of_lt_of_le (hdue _ hmem) hwritten

theorem kept_update {w : World} (h : w.Kept) {check writtenAt stored : Nat} {whileWriting : List HostEvent}
    {written : Bool} (hop : Ordered w (.update check writtenAt stored whileWriting written)) :
    (w.step config (.update check writtenAt stored whileWriting written)).Kept := by
  obtain ⟨hcheck, hwritten, hstored⟩ := hop
  have hafter := querying_update w.bms ⟨w.uptime check, w.uptime stored, whileWriting, written⟩
  have hlater := h.later stored (by omega)
  by_cases hwrites : w.bms.queries ⟨w.uptime check, w.uptime stored, whileWriting, written⟩ = true ∧ written = true
  · obtain ⟨hdue, rfl⟩ := hwrites
    have hconnected : w.bms.isConnected = true := by
      rw [LiTimeNimBLEClient.queries, Bool.and_eq_true] at hdue
      exact hdue.1
    obtain ⟨id, hclient⟩ : ∃ id, w.bms.client = some id := by
      rw [LiTimeNimBLEClient.isConnected, Bool.and_eq_true, Option.any_eq_true] at hconnected
      obtain ⟨-, id, hid, -⟩ := hconnected
      exact ⟨id, hid⟩
    rw [hdue, Bool.true_and, if_pos rfl] at hafter
    have hkept := kept_written h hcheck hwritten hstored (due_writes h hcheck rfl hdue) hclient hafter
    simpa [World.step, hdue, hclient] using hkept
  · have hheld : (w.bms.queries ⟨w.uptime check, w.uptime stored, whileWriting, written⟩ && written) = false := by
      rw [Bool.and_eq_false_iff]
      by_cases hw : written = true
      · exact .inl (Bool.eq_false_iff.2 fun hq => hwrites ⟨hq, hw⟩)
      · exact .inr (Bool.eq_false_iff.2 hw)
    dsimp only at hafter
    rw [hheld, if_neg Bool.false_ne_true] at hafter
    have hkept := hlater.bms (.same hafter)
    simpa [World.step, hheld] using hkept

/-! ## Runs -/

theorem kept_step {w : World} (h : w.Kept) {op : Op} (hop : Ordered w op) : (w.step config op).Kept := by
  cases op with
  | reboot bootAt files => exact kept_reboot h hop files
  | beginStorage mount => exact h.storage (begin_lastSampleAt _ _)
  | beginRemoteSync =>
    exact ⟨h.booted, h.sampled, h.attempted, h.queried, h.written, h.client_lt, h.writes_lt, h.samples_spaced,
      h.attempts_spaced, h.writes_spaced⟩
  | recordEvent event data readAt => exact (h.later readAt hop).storage (recordEvent_lastSampleAt _ _ _ _)
  | recordTelemetry data times => exact kept_recordTelemetry h hop
  | remoteLoop connected check stored http acknowledge => exact kept_remoteLoop h hop
  | connect address io => exact h.bms (reconnected_connect _ _ _)
  | update check writtenAt stored whileWriting written => exact kept_update h hop
  | disconnect => exact h.bms (.none rfl (Nat.le_refl _) rfl)
  | host event => exact h.bms (.same (querying_onHost _ _))

/-- The gateway as it is powered on, with the files it finds. -/
def World.start (files : Files) (bootAt : Nat) : World := { storage := { files }, bootAt }

theorem kept_start (files : Files) (bootAt : Nat) : (World.start files bootAt).Kept where
  booted := Nat.le_refl _
  sampled := remembers_boot (Nat.le_refl _) (List.forall_mem_nil _)
  attempted := remembers_boot (Nat.le_refl _) (List.forall_mem_nil _)
  queried := remembers_boot (Nat.le_refl _) (List.forall_mem_nil _)
  written := List.forall_mem_nil _
  client_lt _ hid := nomatch hid
  writes_lt := List.forall_mem_nil _
  samples_spaced := List.Pairwise.nil
  attempts_spaced := List.Pairwise.nil
  writes_spaced := List.Pairwise.nil

variable (config)

/-- Whatever the firmware does, however often its clock wraps and the gateway reboots. -/
theorem throttles_hold (files : Files) (bootAt : Nat) (ops : List Op)
    (h : Along (World.step config) Ordered (World.start files bootAt) ops) :
    Throughout (World.step config) World.Throttled (World.start files bootAt) ops := by
  have hstep : ∀ w op, World.Kept w → Ordered w op → World.Kept (w.step config op) := fun _ _ hw hop => kept_step hw hop
  have hthrottled : ∀ w, World.Kept w → World.Throttled w := fun _ hw =>
    ⟨hw.samples_spaced, hw.attempts_spaced, hw.writes_spaced⟩
  exact throughout_of_along hstep hthrottled (kept_start files bootAt) h

/-- The uptime wraps while a query is written, and starts again at a reboot. -/
theorem throttles_hold_wrapped :
    Throughout (World.step ⟨true, ascii "https://host", ascii "token", ascii "ca"⟩) World.Throttled
      (World.start (fun _ => none) 0)
      [.beginStorage true, .beginRemoteSync, .recordTelemetry { valid := true } ⟨60000, 60001, 60002, 60003, 0⟩,
        .remoteLoop true 300000 300001 ⟨true, 200⟩ .ok, .connect (ascii "c8:47:80:0f:1a:02") {},
        .update 4294967290 4294967294 4294967300 [] true, .update 4294968301 4294968302 4294968303 [] true,
        .reboot 4294968400 (fun _ => none), .beginStorage true,
        .recordTelemetry { valid := true } ⟨4295028400, 4295028401, 4295028402, 4295028403, 0⟩] :=
  throttles_hold _ _ _ _ (by simp [Along, Ordered, World.step, World.start])

end LiTimeGateway.Throttles
