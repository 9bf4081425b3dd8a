import LiTimeGateway.Ble.LiTimeNimBLEClient
/-!
# Links held by a client that is not connected

`Released` is the contract: when `isConnected()` is false, no link is up, so the
battery advertises again. Two steps break it. A query write that fails while
the link stays up drops only the flag, and so does the late `onDisconnect` of a
client that was replaced. In runs without them the flag is set whenever a link is
up (`Held`), and the contract holds throughout.
-/

namespace LiTimeGateway.LiTimeNimBLEClient

open Lib

/-- A client that is not connected has no link left that is neither down nor terminating. -/
def Released (s : LiTimeNimBLEClient) : Prop := s.isConnected = false → ∀ id, s.links id ≠ .up

/-- Only the client's own link is up, and the flag says so. -/
def Held (s : LiTimeNimBLEClient) : Prop := ∀ id, s.links id = .up → s.client = some id ∧ s.connected = true

theorem Held.released {s : LiTimeNimBLEClient} (h : Held s) : Released s := by
  intro hc id hup
  obtain ⟨hclient, hflag⟩ := h id hup
  simp [isConnected, hclient, hflag, hup] at hc

theorem held_of_noneUp {s : LiTimeNimBLEClient} (h : ∀ id, s.links id ≠ .up) : Held s := by
  intro id hup
  exact absurd hup (h id)

/-! ## The NimBLE task -/

/-- The end of a replaced client's link, while the present link is up. -/
def staleDrop (s : LiTimeNimBLEClient) : HostEvent → Bool
  | .onDisconnect id =>
    s.client.any fun current => id ≠ current && s.links id ≠ .down && s.links current = .up
  | _ => false

theorem onHost_client (s : LiTimeNimBLEClient) (e : HostEvent) : (s.onHost e).client = s.client := by
  cases e with
  | onConnect id => rw [onHost]; split <;> rfl
  | onDisconnect id => rw [onHost]; split <;> rfl
  | notify id data => rfl

theorem onDisconnect_links (s : LiTimeNimBLEClient) (id : ClientId) :
    (s.onHost (.onDisconnect id)).links = Function.update s.links id .down := by
  rw [onHost]
  split
  · next h => rw [← h, Function.update_eq_self]
  · rfl

/-- No event brings a link up. -/
theorem onHost_up {s : LiTimeNimBLEClient} {e : HostEvent} {id : ClientId} (h : (s.onHost e).links id = .up) :
    s.links id = .up := by
  cases e with
  | onConnect other =>
    rw [onHost] at h
    split at h <;> exact h
  | onDisconnect other =>
    rw [onDisconnect_links] at h
    by_cases hid : id = other
    · simp [hid] at h
    · rwa [Function.update_of_ne hid] at h
  | notify id data => exact h

theorem onHosts_client (s : LiTimeNimBLEClient) (es : List HostEvent) : (s.onHosts es).client = s.client := by
  induction es generalizing s with
  | nil => rfl
  | cons e es ih => exact (ih (s.onHost e)).trans (onHost_client s e)

theorem onHosts_up {s : LiTimeNimBLEClient} {es : List HostEvent} {id : ClientId} (h : (s.onHosts es).links id = .up) :
    s.links id = .up := by
  induction es generalizing s with
  | nil => exact h
  | cons e es ih => exact onHost_up (ih h)

/-- A link whose end was delivered is no longer up. -/
theorem onHosts_dropped {s : LiTimeNimBLEClient} {es : List HostEvent} {id : ClientId} (h : .onDisconnect id ∈ es) :
    (s.onHosts es).links id ≠ .up := by
  intro hup
  induction es generalizing s with
  | nil => cases h
  | cons e es ih =>
    rcases List.mem_cons.1 h with rfl | h
    · have hlink := onHosts_up (s := s.onHost (.onDisconnect id)) hup
      rw [onDisconnect_links, Function.update_self] at hlink
      cases hlink
    · exact ih h hup

theorem Held.onHost {s : LiTimeNimBLEClient} (h : Held s) {e : HostEvent} (he : staleDrop s e = false) :
    Held (s.onHost e) := by
  intro id hup
  have hbefore := onHost_up hup
  obtain ⟨hclient, hflag⟩ := h id hbefore
  refine ⟨(onHost_client s e).trans hclient, ?_⟩
  cases e with
  | onConnect other =>
    rw [LiTimeNimBLEClient.onHost]
    split
    · exact hflag
    · rfl
  | onDisconnect other =>
    -- The end of another client's link is a stale drop, and the end of this one takes it down.
    by_cases hid : other = id
    · rw [onDisconnect_links, hid, Function.update_self] at hup
      cases hup
    · rw [LiTimeNimBLEClient.onHost]
      split
      · exact hflag
      · next hlink => simp [staleDrop, hclient, hid, hlink, hbefore] at he
  | notify id data => exact hflag

/-! ## The operations -/

theorem terminate_up {links : ClientId → Link} {client : Option ClientId} {id : ClientId}
    (h : terminate links client id = .up) : links id = .up ∧ client ≠ some id := by
  cases client with
  | none => exact ⟨h, nofun⟩
  | some c =>
    simp only [terminate] at h
    split at h
    · by_cases hid : id = c
      · simp [hid] at h
      · rw [Function.update_of_ne hid] at h
        exact ⟨h, fun he => hid (Option.some.inj he).symm⟩
    · next hc => exact ⟨h, fun he => hc (Option.some.inj he ▸ h)⟩

/-- Whatever the exit, clearing the connection leaves no link up. -/
theorem clearConnection_released {s : LiTimeNimBLEClient} (h : ∀ id, s.links id = .up → s.client = some id) (id : ClientId) :
    s.clearConnection.links id ≠ .up := by
  intro hup
  obtain ⟨hlink, hne⟩ := terminate_up hup
  exact hne (h id hlink)

theorem disconnect_released {s : LiTimeNimBLEClient} (h : ∀ id, s.links id = .up → s.client = some id) (id : ClientId) :
    s.disconnect.links id ≠ .up :=
  clearConnection_released (s := { s with links := terminate s.links s.client })
    (fun id hup => h id (terminate_up hup).1) id

theorem onHosts_own {s : LiTimeNimBLEClient} (h : ∀ id, s.links id = .up → s.client = some id)
    (es : List HostEvent) (id : ClientId) (hup : (s.onHosts es).links id = .up) : (s.onHosts es).client = some id :=
  (onHosts_client s es).trans (h id (onHosts_up hup))

theorem held_discover {s : LiTimeNimBLEClient} (h : ∀ id, s.links id = .up → s.client = some id) (io : ConnectIo) :
    Held (s.discover io).1 := by
  have hdiscovered := onHosts_own h io.whileDiscovering
  have hsubscribed := onHosts_own (s := (s.onHosts io.whileDiscovering).find io) hdiscovered io.whileSubscribing
  rw [discover]
  split
  · exact held_of_noneUp (clearConnection_released hdiscovered)
  split
  · exact held_of_noneUp (clearConnection_released hdiscovered)
  split
  · exact held_of_noneUp (clearConnection_released hsubscribed)
  · exact fun id hup => ⟨hsubscribed id hup, rfl⟩

theorem linkUp_own {s : LiTimeNimBLEClient} (h : ∀ id, s.links id ≠ .up) (id : ClientId)
    (hup : s.linkUp.links id = .up) : s.linkUp.client = some id := by
  unfold linkUp at hup ⊢
  split at hup
  · exact absurd hup (h id)
  · next c hc =>
    by_cases hid : id = c
    · rw [hid, ← hc]
    · exact absurd ((Function.update_of_ne hid _ _).symm.trans hup) (h id)

/-- Every exit of `connect` keeps the contract, whatever happens inside it. -/
theorem Held.connect {s : LiTimeNimBLEClient} (h : Held s) (address : Bytes) (io : ConnectIo) :
    Held (s.connect address io).1 := by
  have hnone := disconnect_released fun id hup => (h id hup).1
  have hlinking : ∀ id, ((s.replace address).create.onHosts io.whileLinking).links id ≠ .up := fun id hup =>
    hnone id (onHosts_up (s := (s.replace address).create) hup)
  rw [LiTimeNimBLEClient.connect]
  split
  · exact h
  split
  · exact h
  split
  · exact h
  split
  · exact held_of_noneUp hnone
  split
  · exact held_of_noneUp (clearConnection_released fun id hup => absurd hup (hlinking id))
  · exact held_discover (linkUp_own hlinking) io

/-- A step that does not drop the flag of a live link: a failing query write
comes with the end of the link, and no replaced client's link ends meanwhile. -/
def keepsFlag (s : LiTimeNimBLEClient) : Op → Bool
  | .connect _ _ => true
  | .disconnect => true
  | .host e => !staleDrop s e
  | .update io => !s.queries io ||
    decide (Runs.Along onHost (fun s e => staleDrop s e = false) s.beginWrite io.whileWriting) &&
      (io.written || s.client.any fun current => .onDisconnect current ∈ io.whileWriting)

theorem Held.onHosts {s : LiTimeNimBLEClient} (h : Held s) {es : List HostEvent}
    (he : Runs.Along LiTimeNimBLEClient.onHost (fun s e => staleDrop s e = false) s es) : Held (s.onHosts es) :=
  Runs.run_inv (fun _ _ hs hd => hs.onHost hd) h he

theorem Held.update {s : LiTimeNimBLEClient} (h : Held s) {io : UpdateIo} (hk : keepsFlag s (.update io) = true) :
    Held (s.update io) := by
  rw [LiTimeNimBLEClient.update]
  split
  · next hc => exact held_of_noneUp (h.released (by simpa using hc))
  split
  · next hq =>
    rw [keepsFlag, hq, Bool.not_true, Bool.false_or, Bool.and_eq_true, decide_eq_true_eq, Bool.or_eq_true,
      Option.any_eq_true] at hk
    obtain ⟨hstale, hend⟩ := hk
    have hheld := Held.onHosts (s := s.beginWrite) h hstale
    split
    · -- The write has failed, so the end of the link was delivered.
      next hw =>
      obtain ⟨current, hclient, hdrop⟩ := hend.resolve_left (by simpa using hw)
      apply held_of_noneUp
      intro id hup
      have hown := (onHosts_client s.beginWrite _).symm.trans (hheld id hup).1
      obtain rfl : current = id := Option.some.inj (hclient.symm.trans hown)
      exact onHosts_dropped (by simpa using hdrop) hup
    · exact hheld
  · exact h

theorem Held.step {s : LiTimeNimBLEClient} (h : Held s) (op : Op) (hk : keepsFlag s op = true) :
    Held (s.step op) := by
  cases op with
  | connect address io => exact h.connect address io
  | update io => exact h.update hk
  | disconnect => exact held_of_noneUp (disconnect_released fun id hup => (h id hup).1)
  | host e => exact h.onHost (by simpa [keepsFlag] using hk)

theorem held_start : Held {} := held_of_noneUp fun _ => nofun

/-! ## Runs -/

/-- In every run without a step that drops the flag of a live link, a client
that is not connected holds no link, in every state between two operations. -/
theorem released_along (ops : List Op) (h : Runs.Along step (fun s op => keepsFlag s op = true) {} ops) :
    Runs.Throughout step Released {} ops :=
  Runs.throughout_of_along (fun _ op hs hk => hs.step op hk) (fun _ hs => hs.released) held_start h

/-- Two batteries, the first one's link ending before the second connects, and a
query write that fails as the link drops. -/
theorem released_along_drop : Runs.Throughout step Released {}
    [.connect (ascii "c8:47:80:0f:1a:02") {}, .update ⟨2000, 2010, [.notify 0 []], true⟩, .disconnect,
      .host (.onDisconnect 0), .connect (ascii "c8:47:80:0f:1b:77") {},
      .update ⟨9000, 9010, [.onDisconnect 1], false⟩] :=
  released_along _ (by decide)

/-- A query write fails and the link stays up; a replaced client's link ends
late. Either way a link is held that the flag denies. -/
theorem failed_write_holds_link :
    ¬ Released (Runs.run step {} [.connect (ascii "c8:47:80:0f:1a:02") {}, .update ⟨2000, 2010, [], false⟩]) ∧
      ¬ Released (Runs.run step {}
        [.connect (ascii "c8:47:80:0f:1a:02") {}, .connect (ascii "c8:47:80:0f:1b:77") {}, .host (.onDisconnect 0)]) :=
  ⟨fun h => h (by decide) 0 (by decide), fun h => h (by decide) 1 (by decide)⟩

end LiTimeGateway.LiTimeNimBLEClient
