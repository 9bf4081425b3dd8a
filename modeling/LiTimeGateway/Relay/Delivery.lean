import LiTimeGateway.Relay.BatteryRelay
/-!
# Delivery to every recipient

What a socket is owed: the text of every message from a socket of the other role
that is processed while it is open, unless its own `send` throws. The loop of
`webSocketMessage` stops at the first `send` that throws, so the sockets listed
behind it lose the message. Everyone gets what they are owed exactly when no
recipient whose `send` throws is listed before one whose does not.
-/

namespace LiTimeGateway.BatteryRelay

open Lib

/-! ## What is owed and what arrives -/

/-- The recipient is open and of the other role, and its `send` does not throw. -/
def owes (relay : BatteryRelay) (sender recipient : Nat) (io : SendIo) : Bool :=
  match relay.roleOf sender with
  | none => false
  | some .device => relay.isOpenAs .browser recipient && !io.throws recipient
  | some .browser => relay.isOpenAs .device recipient && !io.throws recipient

/-- The world, and the texts each socket is owed, in the order of the messages. -/
structure Owing where
  world : World := {}
  owed : Nat → List JsString := fun _ => []

def Owing.step (env : Env) (decode : Bytes → JsString) (w : Owing) (event : Event) : Owing where
  world := w.world.step env decode event
  owed :=
    match event with
    | .message sender message io => fun recipient =>
      w.owed recipient ++ if owes w.world.relay sender recipient io then [Message.asText decode message] else []
    | _ => w.owed

/-- The texts a socket has received, in order. -/
def received (deliveries : List Delivery) (recipient : Nat) : List JsString :=
  (deliveries.filter fun d => d.recipient = recipient).map Delivery.text

/-- Every socket has received exactly what it is owed, in order. -/
def Owing.Complete (w : Owing) : Prop := ∀ recipient, received w.world.deliveries recipient = w.owed recipient

/-- No recipient whose `send` throws is listed before one whose does not. -/
def Unbroken (w : Owing) : Event → Prop
  | .message sender _ io =>
    (w.world.relay.recipients io sender).Pairwise fun a b => io.throws a = true → io.throws b = true
  | _ => True

/-! ## One message -/

theorem owes_iff {relay : BatteryRelay} {sender recipient : Nat} {io : SendIo} :
    owes relay sender recipient io = true ↔
      recipient ∈ relay.recipients io sender ∧ io.throws recipient = false := by
  unfold owes recipients
  split <;> simp_all [mem_getWebSockets]

/-- A loop that stops at the first failure reaches everyone who would not fail
exactly when no failure stands before one of them. -/
theorem reached_iff {α : Type*} (fails : α → Bool) {l : List α} (hn : l.Nodup) :
    (∀ a ∈ l, fails a = false → a ∈ l.takeWhile (!fails ·)) ↔
      l.Pairwise fun a b => fails a = true → fails b = true := by
  induction l with
  | nil => simp
  | cons a l ih =>
    obtain ⟨hnew, hn⟩ := List.nodup_cons.1 hn
    rw [List.pairwise_cons, ← ih hn]
    cases h : fails a with
    | false =>
      have hhead : (a :: l).takeWhile (!fails ·) = a :: l.takeWhile (!fails ·) := by simp [h]
      rw [hhead, List.forall_mem_cons]
      simp only [List.mem_cons_self, implies_true, true_and, Bool.false_eq_true, false_implies]
      refine forall₂_congr fun b hb => ?_
      have hne : b ≠ a := fun he => hnew (he ▸ hb)
      simp [hne]
    | true =>
      -- Nobody behind the failure is reached, so all of them have to fail.
      have hhead : (a :: l).takeWhile (!fails ·) = [] := by simp [h]
      rw [hhead, List.forall_mem_cons]
      simp only [h, List.not_mem_nil, imp_false, true_and, true_implies, Bool.not_eq_false]
      refine (and_iff_left_of_imp ?_).symm
      intro hall b hb hreached
      rw [hall b hb] at hreached
      cases hreached

theorem received_append (ds es : List Delivery) (recipient : Nat) :
    received (ds ++ es) recipient = received ds recipient ++ received es recipient := by
  rw [received, List.filter_append, List.map_append]
  rfl

/-- One text sent to each of these sockets. -/
theorem received_sent (sender : Nat) (text : JsString) {ids : List Nat} (hn : ids.Nodup) (recipient : Nat) :
    received (ids.map fun id => ⟨sender, id, text⟩) recipient = if recipient ∈ ids then [text] else [] := by
  induction ids with
  | nil => rfl
  | cons id ids ih =>
    obtain ⟨hnew, hn⟩ := List.nodup_cons.1 hn
    have hrest := ih hn
    rw [received] at hrest ⊢
    by_cases h : id = recipient
    · subst h
      rw [if_neg hnew] at hrest
      simp [hrest]
    · simp [h, Ne.symm h, hrest]

theorem nodup_recipients (relay : BatteryRelay) (io : SendIo) (sender : Nat) : (relay.recipients io sender).Nodup := by
  unfold recipients
  split
  · exact nodup_getWebSockets relay io .browser
  · exact nodup_getWebSockets relay io .device
  · exact List.nodup_nil

variable {env : Env} {decode : Bytes → JsString}

/-- What a message adds to what a socket has received. -/
theorem received_message (w : World) (sender : Nat) (message : Message) (io : SendIo) (recipient : Nat) :
    received (w.step env decode (.message sender message io)).deliveries recipient =
      received w.deliveries recipient ++
        if recipient ∈ (w.relay.recipients io sender).takeWhile (!io.throws ·) then [Message.asText decode message]
        else [] := by
  have hn := (List.takeWhile_sublist (!io.throws ·)).nodup (nodup_recipients w.relay io sender)
  rw [World.step, received_append, webSocketMessage_eq, sendEach_eq, List.map_map]
  exact congrArg _ (received_sent sender (Message.asText decode message) hn recipient)

theorem complete_step {w : Owing} (h : w.Complete) (event : Event) :
    (w.step env decode event).Complete ↔ Unbroken w event := by
  cases event with
  | request request => exact iff_of_true h trivial
  | close webSocket => exact iff_of_true h trivial
  | message sender message io =>
    rw [Unbroken, ← reached_iff io.throws (nodup_recipients w.world.relay io sender), Owing.Complete]
    constructor
    · intro hcomplete recipient hlisted hsends
      have hone := hcomplete recipient
      simp only [Owing.step, received_message, h recipient,
        owes_iff.2 ⟨hlisted, hsends⟩, if_true, List.append_cancel_left_eq] at hone
      by_contra hmissed
      simp [if_neg hmissed] at hone
    · intro hreached recipient
      simp only [Owing.step, received_message, h recipient, List.append_cancel_left_eq]
      congr 1
      rw [eq_iff_iff, owes_iff]
      constructor
      · intro hmem
        have hlisted := (List.takeWhile_sublist _).subset hmem
        exact ⟨hlisted, by simpa using List.mem_takeWhile_imp hmem⟩
      · exact fun howed => hreached recipient howed.1 howed.2

/-- In every run every socket receives what it is owed, once and in order,
exactly when each message meets its recipients in such an order. -/
theorem complete_iff (env : Env) (decode : Bytes → JsString) (events : List Event) :
    Runs.Throughout (Owing.step env decode) Owing.Complete {} events ↔
      Runs.Along (Owing.step env decode) Unbroken {} events := by
  have hstart : Owing.Complete {} := fun _ => rfl
  exact Runs.throughout_iff_of_step (P := Owing.Complete) (fun _ event h => complete_step h event) hstart events

/-- The first of two dashboards is closing, and the second one loses the status. -/
theorem closing_browser_costs_another :
    ¬ ∃ decode : Bytes → JsString, Runs.Throughout (Owing.step { DEVICE_TOKEN := some (js "t") } decode) Owing.Complete {}
      [.request ⟨js "/browser", [(js "upgrade", js "websocket")]⟩,
        .request ⟨js "/browser", [(js "upgrade", js "websocket")]⟩,
        .request ⟨js "/device", [(js "upgrade", js "websocket"), (js "authorization", js "Bearer t")]⟩,
        .message 2 (.text (js "\x7b\x7d")) { throws := fun id => id = 0 }] := by
  rintro ⟨decode, h⟩
  have hlast : ([] : List JsString) = [js "\x7b\x7d"] := h.last 1
  cases hlast

end LiTimeGateway.BatteryRelay
