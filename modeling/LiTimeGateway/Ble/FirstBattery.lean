import LiTimeGateway.Ble.Discovery
/-!
# The battery that is connected

The firmware connects to the first battery of a scan, and its client keeps a
client object only together with the address that it was created for. So
whatever is heard, the address of a connected client was announced in a scan.
-/

namespace LiTimeGateway

open Lib

/-! ## The client's address -/

namespace LiTimeNimBLEClient

/-- The client object is kept only with its address. -/
def Keeps (s s' : LiTimeNimBLEClient) : Prop :=
  s'.client.isSome → s.client.isSome ∧ s'.deviceAddress = s.deviceAddress

theorem Keeps.of_eq {s s' : LiTimeNimBLEClient} (hclient : s'.client = s.client)
    (haddress : s'.deviceAddress = s.deviceAddress) : Keeps s s' := fun h => ⟨hclient ▸ h, haddress⟩

theorem Keeps.trans {s t u : LiTimeNimBLEClient} (h : Keeps s t) (h' : Keeps t u) : Keeps s u := by
  intro hsome
  obtain ⟨ht, haddress⟩ := h' hsome
  obtain ⟨hs, haddress'⟩ := h ht
  exact ⟨hs, haddress.trans haddress'⟩

theorem keeps_clearConnection (s : LiTimeNimBLEClient) : Keeps s s.clearConnection := fun h => by cases h

theorem keeps_onHost (s : LiTimeNimBLEClient) (e : HostEvent) : Keeps s (s.onHost e) := by
  cases e with
  | onConnect id => rw [onHost]; split <;> exact .of_eq rfl rfl
  | onDisconnect id => rw [onHost]; split <;> exact .of_eq rfl rfl
  | notify id data => exact .of_eq rfl rfl

theorem keeps_onHosts (s : LiTimeNimBLEClient) (es : List HostEvent) : Keeps s (s.onHosts es) := by
  induction es generalizing s with
  | nil => exact .of_eq rfl rfl
  | cons e es ih => exact (keeps_onHost s e).trans (ih (s.onHost e))

theorem keeps_linkUp (s : LiTimeNimBLEClient) : Keeps s s.linkUp := by
  unfold linkUp
  split <;> exact .of_eq rfl rfl

theorem keeps_discover (s : LiTimeNimBLEClient) (io : ConnectIo) : Keeps s (s.discover io).1 := by
  have hfound : Keeps s ((s.onHosts io.whileDiscovering).find io) :=
    (keeps_onHosts s io.whileDiscovering).trans (.of_eq rfl rfl)
  have hsubscribed := hfound.trans (keeps_onHosts _ io.whileSubscribing)
  rw [discover]
  dsimp only
  split
  · exact (keeps_onHosts s io.whileDiscovering).trans (keeps_clearConnection _)
  · split
    · exact hfound.trans (keeps_clearConnection _)
    · split
      · exact hsubscribed.trans (keeps_clearConnection _)
      · exact hsubscribed.trans (.of_eq rfl rfl)

/-- What `connect` leaves: the client it had, or one for this address. -/
theorem connect_client (s : LiTimeNimBLEClient) (address : Bytes) (io : ConnectIo) :
    Keeps s (s.connect address io).1 ∨
      ((s.connect address io).1.client.isSome → (s.connect address io).1.deviceAddress = address) := by
  have hcreated := keeps_onHosts (s.replace address).create io.whileLinking
  rw [connect]
  dsimp only
  split
  · exact .inl (.of_eq rfl rfl)
  · split
    · exact .inl (.of_eq rfl rfl)
    · split
      · exact .inl (.of_eq rfl rfl)
      · split
        · exact .inr fun _ => rfl
        · split
          · exact .inr fun h => ((hcreated.trans (keeps_clearConnection _)) h).2
          · exact .inr fun h => (((hcreated.trans (keeps_linkUp _)).trans (keeps_discover _ io)) h).2

theorem keeps_update (s : LiTimeNimBLEClient) (io : UpdateIo) : Keeps s (s.update io) := by
  have hwriting : Keeps s (s.beginWrite.onHosts io.whileWriting) :=
    (show Keeps s s.beginWrite from .of_eq rfl rfl).trans (keeps_onHosts _ io.whileWriting)
  rw [update]
  dsimp only
  split
  · exact .of_eq rfl rfl
  · split
    · split
      · exact hwriting.trans (.of_eq rfl rfl)
      · exact hwriting.trans (.of_eq rfl rfl)
    · exact .of_eq rfl rfl

end LiTimeNimBLEClient

namespace LiTimeBLEProvider

open LiTimeNimBLEClient

theorem keeps_updateAndSync (s : LiTimeBLEProvider) (io : SyncIo) : Keeps s.bms (s.updateAndSync io).bms :=
  (((keeps_onHosts s.bms io.beforeUpdate).trans (keeps_update _ io.update)).trans (keeps_onHosts _ io.beforeSync)).trans
    (keeps_onHosts _ io.amid)

theorem connect_client (s : LiTimeBLEProvider) (macAddress : Bytes) (io : ConnectIo) (sync : SyncIo) :
    Keeps s.bms (s.connect macAddress io sync).1.bms ∨
      ((s.connect macAddress io sync).1.bms.client.isSome →
        (s.connect macAddress io sync).1.bms.deviceAddress = macAddress) := by
  have hsynced : Keeps (s.bms.connect macAddress io).1 (s.connect macAddress io sync).1.bms := by
    rw [connect]
    dsimp only
    split
    · exact .of_eq rfl rfl
    · exact keeps_updateAndSync _ sync
  rcases s.bms.connect_client macAddress io with hkeeps | haddress
  · exact .inl (hkeeps.trans hsynced)
  · refine .inr fun hsome => ?_
    obtain ⟨hclient, hsame⟩ := hsynced hsome
    exact hsame.trans (haddress hclient)

theorem keeps_run_host (s : LiTimeBLEProvider) (events : List HostEvent) :
    Keeps s.bms (Runs.run step s (events.map .host)).bms := by
  induction events generalizing s with
  | nil => exact .of_eq rfl rfl
  | cons e events ih => exact (keeps_onHost s.bms e).trans (ih _)

theorem keeps_update (s : LiTimeBLEProvider) (io : SyncIo) : Keeps s.bms (s.update io).bms := by
  rw [update]
  split
  · exact .of_eq rfl rfl
  · exact keeps_updateAndSync s io

end LiTimeBLEProvider

/-! ## Scans on the air -/

open LiTimeScanner

theorem announced_firstFound {reports : List Report} {address : Bytes} (h : firstFound reports = some address) :
    Announced reports address := by
  rw [firstFound, scan_eq, Option.bind_some, Option.map_eq_some_iff] at h
  obtain ⟨b, hb, rfl⟩ := h
  obtain ⟨a, last, hlast, haddress, hannounces⟩ := listed_heard (List.mem_of_mem_head? hb)
  exact ⟨a, last, b, hlast, haddress, hannounces.macAddress_eq, hannounces⟩

/-- The scan finds what these reports say. -/
def ScanIo.hearing (io : ScanIo) (reports : List Report) : ScanIo := { io with found := firstFound reports }

namespace BatteryLoop

/-- A step, whose scan hears the reports. -/
def onAir : Event × List Report → Event
  | (.pass io, reports) => .pass { io with scan := io.scan.hearing reports }
  | (.host event, _) => .host event

/-- What the scan of a step hears, if the step scans. -/
def scanOf (g : BatteryLoop) : Event × List Report → List (List Report)
  | (.pass io, reports) => if g.rescans io then [reports] else []
  | (.host _, _) => []

def scansOf (g : BatteryLoop) : List (Event × List Report) → List (List Report)
  | [] => []
  | e :: es => g.scanOf e ++ (g.step (onAir e)).scansOf es

/-- The client object is for an address that was announced in one of the scans. -/
def Found (g : BatteryLoop) (scans : List (List Report)) : Prop :=
  g.battery.bms.client.isSome → ∃ reports ∈ scans, Announced reports g.battery.bms.deviceAddress

theorem Found.of_keeps {g g' : BatteryLoop} {scans : List (List Report)} (h : g.Found scans)
    (hkeeps : g.battery.bms.Keeps g'.battery.bms) (more : List (List Report)) : g'.Found (scans ++ more) := by
  intro hsome
  obtain ⟨hclient, haddress⟩ := hkeeps hsome
  obtain ⟨reports, hmem, hannounced⟩ := h hclient
  exact ⟨reports, List.mem_append_left _ hmem, haddress ▸ hannounced⟩

theorem found_attempt {g : BatteryLoop} {scans : List (List Report)} (h : g.Found scans) (io : ScanIo)
    (reports : List Report) : (g.attemptBatteryConnection (io.hearing reports)).Found (scans ++ [reports]) := by
  have hscanning := LiTimeBLEProvider.keeps_run_host g.battery io.whileScanning
  have hsplit : (g.attemptBatteryConnection (io.hearing reports)).battery =
      Runs.run LiTimeBLEProvider.step (Runs.run LiTimeBLEProvider.step g.battery (io.whileScanning.map .host))
        ((firstFound reports).map fun address => LiTimeBLEProvider.Op.connect address io.connect io.sync).toList := by
    rw [← Runs.run_append]
    rfl
  cases hfirst : firstFound reports with
  | none =>
    rw [hfirst] at hsplit
    exact h.of_keeps (hsplit ▸ hscanning) [reports]
  | some address =>
    rw [hfirst] at hsplit
    rcases LiTimeBLEProvider.connect_client (Runs.run LiTimeBLEProvider.step g.battery (io.whileScanning.map .host))
      address io.connect io.sync with hkeeps | haddress
    · exact h.of_keeps (hsplit ▸ hscanning.trans hkeeps) [reports]
    · intro hsome
      rw [hsplit] at hsome ⊢
      have hannounced := announced_firstFound hfirst
      rw [← haddress hsome] at hannounced
      exact ⟨reports, List.mem_append_right _ List.mem_cons_self, hannounced⟩

theorem found_step {g : BatteryLoop} {scans : List (List Report)} (h : g.Found scans) (e : Event × List Report) :
    (g.step (onAir e)).Found (scans ++ g.scanOf e) := by
  obtain ⟨e, reports⟩ := e
  cases e with
  | host event => exact h.of_keeps (LiTimeNimBLEClient.keeps_onHost g.battery.bms event) []
  | pass io =>
    have hupdated := (LiTimeBLEProvider.keeps_update g.battery io.sync).trans
      (LiTimeBLEProvider.keeps_run_host _ io.afterUpdate)
    have hrescans : g.rescans { io with scan := io.scan.hearing reports } = g.rescans io := rfl
    rw [onAir, step, pass, scanOf]
    dsimp only
    rw [hrescans]
    split
    · have hfound : BatteryLoop.Found _ scans := fun hsome => by
        simpa using @Found.of_keeps g { g with battery := _ } scans h hupdated [] hsome
      exact found_attempt hfound io.scan reports
    · exact h.of_keeps hupdated []

theorem found_run {g : BatteryLoop} {scans : List (List Report)} (h : g.Found scans) (es : List (Event × List Report)) :
    (Runs.run step g (es.map onAir)).Found (scans ++ g.scansOf es) := by
  induction es generalizing g scans with
  | nil => exact (List.append_nil scans).symm ▸ h
  | cons e es ih =>
    rw [List.map_cons, Runs.run_cons, scansOf, ← List.append_assoc]
    exact ih (found_step h e)

/-- In every run of the firmware, whatever its scans hear, a connected client is
connected to an address that a device announced as a battery in one of them. -/
theorem connected_to_announced (scanner : Bool) (io : ScanIo) (reports : List Report) (es : List (Event × List Report))
    (h : (Runs.run step (setup scanner (io.hearing reports)) (es.map onAir)).battery.bms.isConnected = true) :
    ∃ heard ∈ (if scanner then [reports] else []) ++ (setup scanner (io.hearing reports)).scansOf es,
      Announced heard (Runs.run step (setup scanner (io.hearing reports)) (es.map onAir)).battery.bms.deviceAddress := by
  have hclient : (Runs.run step (setup scanner (io.hearing reports)) (es.map onAir)).battery.bms.client.isSome := by
    rw [LiTimeNimBLEClient.isConnected, Bool.and_eq_true, Option.any_eq_true_iff_get] at h
    exact h.2.1
  have hboot : Found { battery := LiTimeBLEProvider.begin {} } [] := fun hsome => by cases hsome
  refine found_run ?_ es hclient
  cases scanner with
  | false => exact hboot
  | true => exact found_attempt hboot io reports

/-- The first scan finds a battery, and connecting to it goes well. -/
theorem connected_to_announced_at_boot :
    let io : ScanIo := { now := 0, sync := { update := { check := 0, stored := 0 }, now := 0 } }
    (setup true (io.hearing exampleReports)).battery.bms.isConnected = true ∧
      ∃ heard ∈ [exampleReports], Announced heard (setup true (io.hearing exampleReports)).battery.bms.deviceAddress := by
  intro io
  have hconnected : (setup true (io.hearing exampleReports)).battery.bms.isConnected = true := by decide +kernel
  exact ⟨hconnected, connected_to_announced true io exampleReports [] hconnected⟩

end BatteryLoop

end LiTimeGateway
