import LiTimeGateway.Ble.FreshData
import LiTimeGateway.Ble.Superseded
/-!
# Valid data of a battery that is not connected

`LiveOnly` is what the serializer, `recordTelemetry` and the events rely on:
published data that is valid is of a battery that is connected. `syncData`
computes the two flags from different sources, the link and the last reading,
and a `connect` that fails clears only one of them.

Events come between any two steps, also between two reads of one sync.
-/

namespace LiTimeGateway.LiTimeBLEProvider

open Lib

/-! ## The law -/

/-- Valid data is of a connected battery. -/
def LiveOnly (s : LiTimeBLEProvider) : Prop := s.data.valid = true → s.data.connected = true

/-- A sync of this client reads a positive voltage and then a cell. -/
def holdsReading (bms : LiTimeNimBLEClient) (io : SyncIo) : Bool :=
  0 < (atRead bms io .voltage).currentData.totalVoltage && !(atRead bms io .cells).currentData.cellVoltages.isEmpty

/-- When the sync comes the client is still connected, or holds no reading to publish. -/
def syncsLive (bms : LiTimeNimBLEClient) (io : SyncIo) : Bool :=
  (atSync bms io).isConnected || !holdsReading (atSync bms io) io

/-- A `connect` fails only where nothing valid is published, and no connection is
lost between its check and the sync while a reading is held. -/
def Steady (s : LiTimeBLEProvider) : Op → Prop
  | .connect macAddress io sync =>
    if s.bms.connects macAddress io then syncsLive (s.bms.connect macAddress io).1 sync = true
    else s.data.valid = false
  | .update sync => s.bms.isConnected = true → syncsLive s.bms sync = true
  | _ => True

theorem liveOnly_sync (s : LiTimeBLEProvider) (io : SyncIo) :
    (s.updateAndSync io).LiveOnly ↔ syncsLive s.bms io = true := by
  have hvalid : (s.updateAndSync io).data.valid = holdsReading (atSync s.bms io) io := published_valid _ io.now
  have hconnected : (s.updateAndSync io).data.connected = (atSync s.bms io).isConnected := rfl
  rw [LiveOnly, hvalid, hconnected, syncsLive, Bool.or_eq_true, Bool.not_eq_true', or_comm]
  cases holdsReading (atSync s.bms io) io <;> simp

theorem liveOnly_step {s : LiTimeBLEProvider} (h : s.LiveOnly) (op : Op) : (s.step op).LiveOnly ↔ s.Steady op := by
  cases op with
  | begin => exact iff_of_true nofun trivial
  | connect macAddress io sync =>
    have hresult := s.bms.connect_result macAddress io
    rw [Steady, step, connect]
    cases hok : s.bms.connects macAddress io with
    | false =>
      rw [hok] at hresult
      simp [LiveOnly, hresult]
    | true =>
      rw [hok] at hresult
      simp only [hresult, Bool.not_true, Bool.false_eq_true, if_false, if_true]
      exact liveOnly_sync _ sync
  | update sync =>
    rw [Steady, step, update]
    cases hc : s.bms.isConnected with
    | false => simp [LiveOnly]
    | true =>
      simp only [Bool.not_true, Bool.false_eq_true, if_false, true_implies]
      exact liveOnly_sync s sync
  | host event => exact iff_of_true h trivial

/-- Published data is valid only of a connected battery, throughout a run,
exactly when every operation of it is steady. -/
theorem liveOnly_iff (ops : List Op) : Runs.Throughout step LiveOnly {} ops ↔ Runs.Along step Steady {} ops := by
  have hstart : LiveOnly {} := fun hvalid => absurd hvalid Bool.false_ne_true
  exact Runs.throughout_iff_of_step (P := LiveOnly) (fun _ op h => liveOnly_step h op) hstart ops

/-! ## Where nothing goes wrong -/

section Quiet

open LiTimeNimBLEClient

/-- No link ends among these events, its own or another client's. -/
def NoneEnds (events : List HostEvent) : Prop := ∀ id, .onDisconnect id ∉ events

theorem noneEnds_append {es fs : List HostEvent} : NoneEnds (es ++ fs) ↔ NoneEnds es ∧ NoneEnds fs := by
  simp only [NoneEnds, List.mem_append, not_or, forall_and]

theorem onHosts_linkIsUp {bms : LiTimeNimBLEClient} (h : bms.linkIsUp = true) {events : List HostEvent}
    (hquiet : NoneEnds events) : (bms.onHosts events).linkIsUp = true := by
  induction events generalizing bms with
  | nil => exact h
  | cons e events ih =>
    have hnext : (bms.onHost e).linkIsUp = true := by
      cases e with
      | onConnect id => exact (onConnect_linkIsUp bms id).trans h
      | onDisconnect id => exact absurd List.mem_cons_self (hquiet id)
      | notify id data => exact h
    exact ih hnext fun id hid => hquiet id (List.mem_cons_of_mem e hid)

/-- Only the end of a link ends a connection. -/
theorem onHosts_isConnected {bms : LiTimeNimBLEClient} (h : bms.isConnected = true) {events : List HostEvent}
    (hquiet : NoneEnds events) : (bms.onHosts events).isConnected = true := by
  induction events generalizing bms with
  | nil => exact h
  | cons e events ih =>
    have hnext : (bms.onHost e).isConnected = true := by
      cases e with
      | onConnect id =>
        rw [isConnected_eq, Bool.and_eq_true] at h
        rw [isConnected_eq, onConnect_linkIsUp, onConnect_connected, h.1, h.2, Bool.true_or, Bool.and_self]
      | onDisconnect id => exact absurd List.mem_cons_self (hquiet id)
      | notify id data => exact h
    exact ih hnext fun id hid => hquiet id (List.mem_cons_of_mem e hid)

theorem discover_isConnected {bms : LiTimeNimBLEClient} (hup : bms.linkIsUp = true) {io : ConnectIo}
    (hquiet : NoneEnds (discoverEvents io)) (h : (bms.discover io).2 = true) :
    (bms.discover io).1.isConnected = true := by
  obtain ⟨hdiscovering, hsubscribing⟩ := noneEnds_append.1 hquiet
  have hfound : ((bms.onHosts io.whileDiscovering).find io).linkIsUp = true := onHosts_linkIsUp hup hdiscovering
  unfold discover at h ⊢
  dsimp only at h ⊢
  split at h
  · cases h
  split at h
  · cases h
  split at h
  · cases h
  · next h1 h2 h3 =>
    rw [if_neg h1, if_neg h2, if_neg h3]
    have hall : (io.service && io.writeFound && io.notifyFound && io.canNotify) = true := by
      simp_all
    rw [if_pos hall] at hsubscribing
    exact onHosts_linkIsUp hfound hsubscribing

/-- A `connect` that succeeds leaves a connection, if no link ends meanwhile. -/
theorem connect_isConnected {bms : LiTimeNimBLEClient} {address : Bytes} {io : ConnectIo}
    (hquiet : NoneEnds (bms.connectEvents address io)) (h : (bms.connect address io).2 = true) :
    (bms.connect address io).1.isConnected = true := by
  unfold LiTimeNimBLEClient.connect connectEvents at *
  dsimp only at h ⊢
  split at h
  · cases h
  split at h
  · cases h
  split at h
  · next h1 h2 h3 =>
    rw [if_neg h1, if_neg h2, if_pos h3]
    rw [connectedTo, Bool.and_eq_true] at h3
    exact h3.1
  split at h
  · cases h
  split at h
  · cases h
  · next h1 h2 h3 h4 h5 =>
    rw [if_neg h1, if_neg h2, if_neg h3, if_neg h4, if_neg h5]
    have hevents : NoneEnds (io.whileLinking ++ discoverEvents io) := by simp_all
    have hclient : ((bms.replace address).create.onHosts io.whileLinking).client = some bms.created := onHosts_client _ _
    have hup : ((bms.replace address).create.onHosts io.whileLinking).linkUp.linkIsUp = true := by
      rw [linkIsUp, linkUp, hclient]
      simp
    exact discover_isConnected hup (noneEnds_append.1 hevents).2 h

/-- A connected client is still connected at the sync if its query write succeeds
and no link ends on the way. -/
theorem syncsLive_of_quiet {bms : LiTimeNimBLEClient} (h : bms.isConnected = true) {io : SyncIo}
    (hwritten : io.update.written = true)
    (hquiet : NoneEnds (io.beforeUpdate ++ io.update.whileWriting ++ io.beforeSync)) : syncsLive bms io = true := by
  rw [noneEnds_append, noneEnds_append] at hquiet
  obtain ⟨⟨hbefore, hwhile⟩, hsync⟩ := hquiet
  have hchecked := onHosts_isConnected h hbefore
  have hupdated : ((bms.onHosts io.beforeUpdate).update io.update).isConnected = true := by
    rw [LiTimeNimBLEClient.update, hchecked, Bool.not_true, if_neg Bool.false_ne_true]
    split
    · have hbegun : (bms.onHosts io.beforeUpdate).beginWrite.isConnected = true := hchecked
      rw [hwritten, Bool.not_true, if_neg Bool.false_ne_true]
      exact onHosts_isConnected hbegun hwhile
    · exact hchecked
  rw [syncsLive, atSync, onHosts_isConnected hupdated hsync, Bool.true_or]

/-- Until the sync of the step no link ends, and its query write, if one is due,
succeeds; and a `connect` fails only where nothing valid is published. -/
def Quiet (s : LiTimeBLEProvider) : Op → Prop
  | .connect macAddress io sync =>
    if s.bms.connects macAddress io then
      sync.update.written = true ∧ NoneEnds (s.bms.connectEvents macAddress io) ∧
        NoneEnds (sync.beforeUpdate ++ sync.update.whileWriting ++ sync.beforeSync)
    else s.data.valid = false
  | .update sync =>
    sync.update.written = true ∧ NoneEnds (sync.beforeUpdate ++ sync.update.whileWriting ++ sync.beforeSync)
  | _ => True

theorem Quiet.steady {s : LiTimeBLEProvider} {op : Op} (h : s.Quiet op) : s.Steady op := by
  cases op with
  | begin => trivial
  | connect macAddress io sync =>
    have hresult := s.bms.connect_result macAddress io
    rw [Quiet] at h
    rw [Steady]
    split at h
    · next hok =>
      obtain ⟨hwritten, hconnecting, hquiet⟩ := h
      rw [if_pos hok]
      exact syncsLive_of_quiet (connect_isConnected hconnecting (hresult.trans hok)) hwritten hquiet
    · next hok => rwa [if_neg hok]
  | update sync => exact fun hconnected => syncsLive_of_quiet hconnected h.1 h.2
  | host event => trivial

/-- Where no query write fails and no link ends within an operation, valid data is
of a connected battery throughout; links may end between the operations. -/
theorem liveOnly_of_quiet {ops : List Op} (h : Runs.Along step Quiet {} ops) : Runs.Throughout step LiveOnly {} ops := by
  have hstart : LiveOnly {} := fun hvalid => absurd hvalid Bool.false_ne_true
  exact Runs.throughout_of_along (I := LiveOnly) (fun _ op hs hop => (liveOnly_step hs op).2 hop.steady)
    (fun _ hs => hs) hstart h

end Quiet

/-- A query write fails while a reading is held: what `recordTelemetry` then
stores is the reading of a battery that is not connected. -/
theorem failed_write_publishes_dead_reading :
    ¬ Runs.Throughout step LiveOnly {}
      [.begin, connecting (ascii "c8:47:80:0f:1a:02") [.notify 0 notification] 1001,
        .update { update := ⟨3000, 3000, [], false⟩, now := 3010 }] := by
  intro h
  exact absurd (h.last (by decide +kernel)) (by decide +kernel)

end LiTimeGateway.LiTimeBLEProvider
