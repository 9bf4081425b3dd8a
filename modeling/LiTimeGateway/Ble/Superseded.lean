import LiTimeGateway.Ble.LinkTheorems
/-!
# Callbacks of superseded clients

`connected` belongs to the wrapper, and every client object writes it. `Kept` is
the promise of a `connect` that returned true: `isConnected()` stays true until
the link drops, a query write fails, or `connect` or `disconnect` is called.
`Unchanged` is what is asked of a callback of a client that was replaced. Both
hold throughout exactly when no such callback finds the present link up and the
flag the other way round.
-/

namespace LiTimeGateway.LiTimeNimBLEClient

open Lib

/-- The link of the client object held is up. -/
def linkIsUp (s : LiTimeNimBLEClient) : Bool := s.client.any fun id => s.links id = .up

theorem isConnected_eq (s : LiTimeNimBLEClient) : s.isConnected = (s.connected && s.linkIsUp) := rfl

/-- The callback comes from another client object than the one held. -/
def superseded (s : LiTimeNimBLEClient) : HostEvent → Bool
  | .onConnect id => s.client ≠ some id
  | .onDisconnect id => s.client ≠ some id
  | .notify id _ => s.client ≠ some id

/-- A superseded client's event leaves `isConnected()` as it was. -/
def Unchanged (s : LiTimeNimBLEClient) (e : HostEvent) : Prop :=
  s.superseded e = true → (s.onHost e).isConnected = s.isConnected

/-- A superseded client, not yet down, calls back while the present link is up,
and the flag is not what the callback sets it to. -/
def flips (s : LiTimeNimBLEClient) : HostEvent → Bool
  | .onConnect id => s.linkIsUp && s.client ≠ some id && s.links id ≠ .down && !s.connected
  | .onDisconnect id => s.linkIsUp && s.client ≠ some id && s.links id ≠ .down && s.connected
  | .notify _ _ => false

/-- `C` holds of every event delivered during the operation, in the state that finds it. -/
def During (C : LiTimeNimBLEClient → HostEvent → Prop) (s : LiTimeNimBLEClient) : Op → Prop
  | .connect address io =>
    (address.isEmpty || !io.begun || s.connectedTo address || !io.created) = false →
      let linking := (s.replace address).create
      Runs.Along onHost C linking io.whileLinking ∧
        (io.linked = true →
          let discovering := (linking.onHosts io.whileLinking).linkUp
          Runs.Along onHost C discovering io.whileDiscovering ∧
            ((io.service && io.writeFound && io.notifyFound && io.canNotify) = true →
              Runs.Along onHost C ((discovering.onHosts io.whileDiscovering).find io) io.whileSubscribing))
  | .update io => s.queries io = true → Runs.Along onHost C s.beginWrite io.whileWriting
  | .disconnect => True
  | .host e => C s e

/-! ## Runs -/

/-- The client, and whether the promise of its last `connect` still stands. -/
structure Watched where
  client : LiTimeNimBLEClient := {}
  intact : Bool := false

/-- What the operation, apart from the link, leaves of the promise. -/
def promises (w : Watched) : Op → Bool
  | .connect address io => (w.client.connect address io).2
  | .update io => w.intact && (!w.client.queries io || io.written)
  | .disconnect => false
  | .host _ => w.intact

def Watched.step (w : Watched) (op : Op) : Watched where
  client := w.client.step op
  intact := promises w op && (w.client.step op).linkIsUp

def Watched.Kept (w : Watched) : Prop := w.intact = true → w.client.isConnected = true

/-! ## One callback -/

theorem onDisconnect_linkIsUp {s : LiTimeNimBLEClient} {id : ClientId} (h : s.client ≠ some id) :
    (s.onHost (.onDisconnect id)).linkIsUp = s.linkIsUp := by
  rw [linkIsUp, linkIsUp, onHost_client, onDisconnect_links]
  cases hc : s.client with
  | none => rfl
  | some current =>
    have hne : current ≠ id := fun he => h (he ▸ hc)
    rw [Option.any_some, Option.any_some, Function.update_of_ne hne]

theorem onConnect_linkIsUp (s : LiTimeNimBLEClient) (id : ClientId) :
    (s.onHost (.onConnect id)).linkIsUp = s.linkIsUp := by
  rw [onHost]
  split <;> rfl

theorem onConnect_connected (s : LiTimeNimBLEClient) (id : ClientId) :
    (s.onHost (.onConnect id)).connected = (s.connected || decide (s.links id ≠ .down)) := by
  rw [onHost]
  split
  · next h => simp [h]
  · next h => simp [h]

theorem onDisconnect_connected (s : LiTimeNimBLEClient) (id : ClientId) :
    (s.onHost (.onDisconnect id)).connected = (s.connected && decide (s.links id = .down)) := by
  rw [onHost]
  split
  · next h => simp [h]
  · next h => simp [h]

theorem unchanged_iff (s : LiTimeNimBLEClient) (e : HostEvent) : Unchanged s e ↔ s.flips e = false := by
  unfold Unchanged
  cases e with
  | onConnect id =>
    rw [isConnected_eq, isConnected_eq, onConnect_linkIsUp, onConnect_connected, superseded, flips]
    cases s.linkIsUp <;> cases s.connected <;> simp
  | onDisconnect id =>
    by_cases hown : s.client = some id
    · simp [superseded, flips, hown]
    · rw [isConnected_eq, isConnected_eq, onDisconnect_linkIsUp hown, onDisconnect_connected, superseded, flips]
      cases s.linkIsUp <;> cases s.connected <;> simp [hown]
  | notify id data => exact ⟨fun _ => rfl, fun _ _ => rfl⟩

/-! ## One operation -/

theorem during_congr {C D : LiTimeNimBLEClient → HostEvent → Prop} (h : ∀ s e, C s e ↔ D s e) (s : LiTimeNimBLEClient)
    (op : Op) : During C s op ↔ During D s op := by
  cases op with
  | connect address io =>
    simp only [During, Runs.along_congr h]
  | update io => exact imp_congr_right fun _ => Runs.along_congr h _ _
  | disconnect => exact Iff.rfl
  | host e => exact h s e

/-- Where the flag says so whenever the link is up, it still does after a callback that flips nothing. -/
theorem onHost_flag {s : LiTimeNimBLEClient} (h : s.linkIsUp = true → s.connected = true) {e : HostEvent}
    (he : s.flips e = false) : (s.onHost e).linkIsUp = true → (s.onHost e).connected = true := by
  intro hup
  cases e with
  | onConnect id =>
    rw [onConnect_linkIsUp] at hup
    rw [onConnect_connected, h hup, Bool.true_or]
  | onDisconnect id =>
    by_cases hown : s.client = some id
    · -- The end of the client's own link takes it down.
      rw [linkIsUp, onHost_client, onDisconnect_links, hown, Option.any_some, Function.update_self] at hup
      cases hup
    · rw [onDisconnect_linkIsUp hown] at hup
      rw [onDisconnect_connected, h hup, Bool.true_and]
      simpa [flips, hup, h hup, hown] using he
  | notify id data => exact h hup

theorem discover_connected (s : LiTimeNimBLEClient) (io : ConnectIo) :
    (s.discover io).2 = true → (s.discover io).1.connected = true := by
  rw [discover]
  split
  · exact fun h => absurd h Bool.false_ne_true
  split
  · exact fun h => absurd h Bool.false_ne_true
  split
  · exact fun h => absurd h Bool.false_ne_true
  · exact fun _ => rfl

/-- A `connect` that returns true leaves the flag set. -/
theorem connect_connected (s : LiTimeNimBLEClient) (address : Bytes) (io : ConnectIo) :
    (s.connect address io).2 = true → (s.connect address io).1.connected = true := by
  rw [connect]
  split
  · exact fun h => absurd h Bool.false_ne_true
  split
  · exact fun h => absurd h Bool.false_ne_true
  split
  · next hc =>
    intro _
    rw [connectedTo, isConnected_eq] at hc
    simp only [Bool.and_eq_true] at hc
    exact hc.1.1
  split
  · exact fun h => absurd h Bool.false_ne_true
  split
  · exact fun h => absurd h Bool.false_ne_true
  · exact discover_connected _ io

theorem update_kept {s : LiTimeNimBLEClient} {io : UpdateIo} (hconnected : s.isConnected = true)
    (hwrite : s.queries io = false ∨ io.written = true)
    (hop : During (fun s e => s.flips e = false) s (.update io)) (hup : (s.update io).linkIsUp = true) :
    (s.update io).connected = true := by
  have hflag : s.connected = true := ((Bool.and_eq_true _ _).mp hconnected).1
  rw [update, hconnected, Bool.not_true, if_neg Bool.false_ne_true] at hup ⊢
  cases hq : s.queries io with
  | false =>
    rw [if_neg Bool.false_ne_true]
    exact hflag
  | true =>
    have hwritten : io.written = true := hwrite.resolve_left (by rw [hq]; exact Bool.noConfusion)
    have hstays : (s.beginWrite.onHosts io.whileWriting).linkIsUp = true →
        (s.beginWrite.onHosts io.whileWriting).connected = true :=
      Runs.run_inv (I := fun t => t.linkIsUp = true → t.connected = true) (fun _ _ ht he => onHost_flag ht he)
        (fun _ => hflag) (hop hq)
    simp only [hq, hwritten, if_true, Bool.not_true, Bool.false_eq_true, if_false] at hup ⊢
    exact hstays hup

theorem Watched.Kept.step {w : Watched} (h : w.Kept) {op : Op}
    (hop : During (fun s e => s.flips e = false) w.client op) : (w.step op).Kept := by
  intro hintact
  obtain ⟨hpromises, hup⟩ := (Bool.and_eq_true _ _).mp hintact
  have hflag : (w.client.step op).connected = true := by
    cases op with
    | connect address io => exact connect_connected w.client address io hpromises
    | update io =>
      obtain ⟨hstands, hwrite⟩ := (Bool.and_eq_true _ _).mp hpromises
      exact update_kept (h hstands) (by simpa using hwrite) hop hup
    | disconnect => cases hpromises
    | host e =>
      have hconnected := h hpromises
      rw [isConnected_eq, Bool.and_eq_true] at hconnected
      exact onHost_flag (fun _ => hconnected.1) hop hup
  exact (Bool.and_eq_true _ _).mpr ⟨hflag, hup⟩

/-! ## Whole runs -/

/-- In every run: the promise of each `connect` is kept and no superseded client
changes `isConnected()`, exactly when no callback of one flips the flag under a
link that is up. -/
theorem superseded_harmless_iff (ops : List Op) :
    Runs.Throughout Watched.step Watched.Kept {} ops ∧
        Runs.Along Watched.step (fun w op => During Unchanged w.client op) {} ops ↔
      Runs.Along Watched.step (fun w op => During (fun s e => s.flips e = false) w.client op) {} ops := by
  have hsame : Runs.Along Watched.step (fun w op => During Unchanged w.client op) {} ops ↔
      Runs.Along Watched.step (fun w op => During (fun s e => s.flips e = false) w.client op) {} ops :=
    Runs.along_congr (fun (w : Watched) (op : Op) => during_congr unchanged_iff w.client op) {} ops
  constructor
  · exact fun h => hsame.1 h.2
  · intro h
    refine ⟨?_, hsame.2 h⟩
    exact Runs.throughout_of_along (fun _ _ hw hop => hw.step hop) (fun _ hw => hw) nofun h

/-- The first client's link ends after the second has connected: the live link looks dead. -/
theorem late_disconnect_unseats :
    let ops : List Op := [.connect (ascii "c8:47:80:0f:1a:02") {}, .connect (ascii "c8:47:80:0f:1b:77") {},
      .host (.onDisconnect 0)]
    ¬ (Runs.Throughout Watched.step Watched.Kept {} ops ∧
      Runs.Along Watched.step (fun w op => During Unchanged w.client op) {} ops) := by
  intro ops h
  have hlast : (Runs.run Watched.step {} ops).Kept := h.1.last
  exact absurd (hlast (by decide)) (by decide)

end LiTimeGateway.LiTimeNimBLEClient
