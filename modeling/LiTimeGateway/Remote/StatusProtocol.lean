import LiTimeGateway.Relay.Delivery
import LiTimeGateway.Relay.DeviceSecret
import LiTimeGateway.Remote.RemoteDashboard
/-!
# Gateway, relay and browsers

The three parties of the remote dashboard with the texts between them. The
gateway opens one WebSocket at a time to the relay, which takes every opening
for a new device; frames of an older one can still arrive. Browsers write to
the relay what they like. Restarts, lost connections and the steps of the
battery come in any order.

`Honest` is what the bearer token is for: nobody but the gateway opens a device
socket or writes to one.
-/

namespace LiTimeGateway

open Lib Lib.Runs BatteryRelay

def GATEWAY_REMOTE_DASHBOARD_PATH : JsString := js "/device"

/-- The build's host and token, the relay's secret, and its text decoder. -/
structure Deployment where
  host : Bytes
  token : Bytes
  env : Env
  decode : Bytes → JsString

/-- The upgrade request of the gateway's WebSocket, with its extra header. -/
def Deployment.upgrade (d : Deployment) : Request where
  pathname := GATEWAY_REMOTE_DASHBOARD_PATH
  headers :=
    [(js "Upgrade", js "websocket"), (js "Authorization", js "Bearer " ++ d.token.map fun b => UInt16.ofNat b.toNat)]

structure StatusSystem where
  gateway : BatteryLoop := {}
  world : World := {}
  /-- The relay's socket of the gateway's connection. -/
  link : Option Nat := none
  /-- The frames on their way to the gateway, and to each socket of the relay. -/
  inbox : List Bytes := []
  outbox : Nat → List Bytes := fun _ => []
  /-- The answer read a cell that is not there. -/
  crashed : Bool := false
  /-- An account: the frames the gateway has sent, each with its socket. -/
  sent : List (Nat × Bytes) := []

namespace StatusSystem

inductive Event where
  /-- The gateway boots, and its connection is gone. -/
  | restart (scanner : Bool) (io : ScanIo)
  | battery (event : BatteryLoop.Event)
  /-- A request of anyone but the gateway. -/
  | request (request : Request)
  | connect
  | disconnect
  /-- A socket that is not the gateway's writes to the relay. -/
  | message (sender : Nat) (message : Message) (io : SendIo)
  | close (webSocket : Nat)
  | gatewayReceives
  | relayReceives (webSocket : Nat) (io : SendIo)
  /-- What is on its way to the socket is lost. -/
  | lose (webSocket : Nat)

/-- The relay receives a message, and passes it on. -/
def relays (d : Deployment) (s : StatusSystem) (sender : Nat) (message : Message) (io : SendIo) : StatusSystem :=
  let passed := s.world.relay.webSocketMessage d.decode sender message io
  { s with
    world := s.world.step d.env d.decode (.message sender message io)
    inbox := s.inbox ++ (passed.filter fun sent => some sent.1 = s.link).map fun sent => ConfigureRequest.utf8 sent.2 }

/-- `sendTXT` for each answer. -/
def send (s : StatusSystem) (webSocket : Nat) (answers : List Bytes) : StatusSystem :=
  { s with
    outbox := Function.update s.outbox webSocket (s.outbox webSocket ++ answers)
    sent := s.sent ++ answers.map (webSocket, ·) }

def step (d : Deployment) (s : StatusSystem) : Event → StatusSystem
  | .restart scanner io => { s with gateway := BatteryLoop.setup scanner io, link := none, inbox := [] }
  | .battery event => { s with gateway := s.gateway.step event }
  | .request request => { s with world := s.world.step d.env d.decode (.request request) }
  | .connect =>
    if (RemoteDashboard.configuredWith d.host d.token).configured then
      { s with
        world := s.world.step d.env d.decode (.request d.upgrade)
        link :=
          if (workerFetch d.env s.world.relay d.upgrade).2 = .webSocket then some s.world.relay.sockets.length else none
        inbox := [] }
    else s
  | .disconnect => { s with link := none, inbox := [] }
  | .message sender message io => s.relays d sender message io
  | .close webSocket =>
    { s with
      world := s.world.step d.env d.decode (.close webSocket)
      outbox := Function.update s.outbox webSocket [] }
  | .gatewayReceives =>
    match s.link, s.inbox with
    | some webSocket, payload :: rest =>
      match (RemoteDashboard.configuredWith d.host d.token).handleWebSocketEvent s.gateway.battery.data .text payload with
      | none => { s with crashed := true }
      | some answers => { s with inbox := rest }.send webSocket answers
    | _, _ => s
  | .relayReceives webSocket io =>
    match s.outbox webSocket with
    | [] => s
    | frame :: rest =>
      { s with outbox := Function.update s.outbox webSocket rest }.relays d webSocket (.text (d.decode frame)) io
  | .lose webSocket => { s with outbox := Function.update s.outbox webSocket [] }

/-- Only the gateway holds the secret: others open no device socket, and write to none. -/
def Honest (d : Deployment) (s : StatusSystem) : Event → Prop
  | .request request => request.header (js "Authorization") ≠ some d.env.bearer
  | .message sender _ _ => s.world.relay.roleOf sender ≠ some .device
  | _ => True

/-! ## What is known of a run -/

def start (scanner : Bool) (io : ScanIo) : StatusSystem := { gateway := BatteryLoop.setup scanner io }

/-- What this socket has received from that one, in order. -/
def receivedFrom (s : StatusSystem) (sender recipient : Nat) : List JsString :=
  received (s.world.deliveries.filter fun delivery => delivery.sender = sender) recipient

/-- The frames sent over a socket. -/
def sentOn (s : StatusSystem) (webSocket : Nat) : List Bytes := (s.sent.filter fun p => p.1 = webSocket).map Prod.snd

/-- The event is a text that asks for a status. -/
def asksStatus (d : Deployment) : Event → Bool
  | .message _ message _ => RemoteDashboard.asks (ConfigureRequest.utf8 (Message.asText d.decode message))
  | _ => false

/-- The document of the battery at some moment up to now. -/
def Told (d : Deployment) (s₀ : StatusSystem) (past : List Event) (frame : Bytes) : Prop :=
  ∃ earlier, earlier <+: past ∧ frame = RemoteDashboard.statusText (run (step d) s₀ earlier).gateway.battery.data

structure Sound (d : Deployment) (s₀ s : StatusSystem) (past : List Event) : Prop where
  alive : s.crashed = false
  firmware : ∃ scanner io es, s.gateway = run BatteryLoop.step (BatteryLoop.setup scanner io) es
  link_device : ∀ id, s.link = some id → s.world.relay.roleOf id = some .device
  outbox_device : ∀ id, s.outbox id ≠ [] → s.world.relay.roleOf id = some .device
  inOrder : ∀ id browser, s.world.relay.roleOf browser ≠ some .device →
    (s.receivedFrom id browser ++ (s.outbox id).map d.decode).Sublist ((s.sentOn id).map d.decode)
  told : ∀ p ∈ s.sent, Told d s₀ past p.2
  solicited : s.sent.length + s.inbox.countP RemoteDashboard.asks ≤ past.countP (asksStatus d)

/-! ## One message -/

variable {d : Deployment} {s₀ s : StatusSystem} {past : List Event}

theorem receivedFrom_relays (sender : Nat) (message : Message) (io : SendIo) (id recipient : Nat) :
    (s.relays d sender message io).receivedFrom id recipient = s.receivedFrom id recipient ++
      if sender = id ∧ recipient ∈ (s.world.relay.recipients io sender).takeWhile (!io.throws ·) then
        [Message.asText d.decode message]
      else [] := by
  have hn := (List.takeWhile_sublist (!io.throws ·)).nodup (nodup_recipients s.world.relay io sender)
  have hdeliveries : (s.relays d sender message io).world.deliveries = s.world.deliveries ++
      ((s.world.relay.recipients io sender).takeWhile (!io.throws ·)).map
        fun recipient => ⟨sender, recipient, Message.asText d.decode message⟩ := by
    rw [relays, World.step, webSocketMessage_eq, sendEach_eq, List.map_map]
    rfl
  rw [receivedFrom, hdeliveries, List.filter_append, received_append, receivedFrom]
  congr 1
  by_cases hsender : sender = id
  · have hall : ∀ delivery ∈ ((s.world.relay.recipients io sender).takeWhile (!io.throws ·)).map
        fun recipient => (⟨sender, recipient, Message.asText d.decode message⟩ : Delivery),
        decide (delivery.sender = id) = true := by
      intro delivery hd
      obtain ⟨_, -, rfl⟩ := List.mem_map.1 hd
      exact decide_eq_true hsender
    rw [List.filter_eq_self.2 hall, received_sent sender _ hn]
    simp [hsender]
  · have hnone : ∀ delivery ∈ ((s.world.relay.recipients io sender).takeWhile (!io.throws ·)).map
        fun recipient => (⟨sender, recipient, Message.asText d.decode message⟩ : Delivery),
        ¬ decide (delivery.sender = id) = true := by
      intro delivery hd
      obtain ⟨_, -, rfl⟩ := List.mem_map.1 hd
      exact fun h => hsender (of_decide_eq_true h)
    rw [List.filter_eq_nil_iff.2 hnone, if_neg fun h => hsender h.1]
    rfl

/-- What is passed on to the gateway: the text, once, or nothing. -/
theorem inbox_relays (sender : Nat) (message : Message) (io : SendIo) :
    (s.relays d sender message io).inbox = s.inbox ++
      if ∃ id ∈ (s.world.relay.recipients io sender).takeWhile (!io.throws ·), s.link = some id then
        [ConfigureRequest.utf8 (Message.asText d.decode message)]
      else [] := by
  have hn := (List.takeWhile_sublist (!io.throws ·)).nodup (nodup_recipients s.world.relay io sender)
  rw [relays, webSocketMessage_eq, sendEach_eq]
  dsimp only
  congr 1
  generalize (s.world.relay.recipients io sender).takeWhile (!io.throws ·) = ids at hn
  cases s.link with
  | none => simp
  | some link =>
    have hreceived := congrArg (List.map ConfigureRequest.utf8) (received_sent sender (Message.asText d.decode message) hn link)
    rw [received, List.filter_map, List.map_map, List.map_map] at hreceived
    rw [List.filter_map, List.map_map]
    simp only [Option.some.injEq, exists_eq_right', Function.comp_def] at hreceived ⊢
    rw [hreceived]
    split <;> rfl

/-- Nobody in the sender's role gets the message. -/
theorem not_passed {relay : BatteryRelay} {sender recipient : Nat} {role : Role} {io : SendIo}
    (hsender : relay.roleOf sender = some role)
    (h : recipient ∈ (relay.recipients io sender).takeWhile (!io.throws ·)) : relay.roleOf recipient ≠ some role := by
  have hlisted := (List.takeWhile_sublist _).subset h
  rw [recipients, hsender] at hlisted
  cases role with
  | browser => rw [roleOf_of_isOpenAs (mem_getWebSockets.1 hlisted)]; simp
  | device => rw [roleOf_of_isOpenAs (mem_getWebSockets.1 hlisted)]; simp

/-! ## One step -/

theorem Sound.later (h : Sound d s₀ s past) (e : Event) : Sound d s₀ s (past ++ [e]) := by
  refine ⟨h.alive, h.firmware, h.link_device, h.outbox_device, h.inOrder, ?_, ?_⟩
  · intro p hp
    obtain ⟨earlier, hprefix, hframe⟩ := h.told p hp
    exact ⟨earlier, hprefix.trans (List.prefix_append past [e]), hframe⟩
  · have hsolicited := h.solicited
    rw [List.countP_append]
    omega

theorem Sound.gateway (h : Sound d s₀ s past) {gateway : BatteryLoop}
    (hfirmware : ∃ scanner io es, gateway = run BatteryLoop.step (BatteryLoop.setup scanner io) es) :
    Sound d s₀ { s with gateway } past :=
  ⟨h.alive, hfirmware, h.link_device, h.outbox_device, h.inOrder, h.told, h.solicited⟩

theorem Sound.unlink (h : Sound d s₀ s past) : Sound d s₀ { s with link := none, inbox := [] } past := by
  refine ⟨h.alive, h.firmware, nofun, h.outbox_device, h.inOrder, h.told, ?_⟩
  rw [List.countP_nil]
  exact (Nat.le_add_right _ _).trans h.solicited

/-- The relay accepts or closes a socket; none of them changes its role. -/
theorem Sound.relay (h : Sound d s₀ s past) {relay : BatteryRelay} (hextends : Extends s.world.relay relay) :
    Sound d s₀ { s with world := { s.world with relay } } past :=
  ⟨h.alive, h.firmware, fun id hid => hextends.roleOf (h.link_device id hid),
    fun id hid => hextends.roleOf (h.outbox_device id hid),
    fun id browser hb => h.inOrder id browser fun hdevice => hb (hextends.roleOf hdevice), h.told, h.solicited⟩

theorem Sound.lost (h : Sound d s₀ s past) (webSocket : Nat) :
    Sound d s₀ { s with outbox := Function.update s.outbox webSocket [] } past := by
  have hfewer : ∀ id, (Function.update s.outbox webSocket [] id).Sublist (s.outbox id) := by
    intro id
    by_cases hsame : id = webSocket
    · rw [hsame, Function.update_self]
      exact List.nil_sublist _
    · rw [Function.update_of_ne hsame]
  refine ⟨h.alive, h.firmware, h.link_device, fun id hid => h.outbox_device id ?_, fun id browser hb => ?_, h.told,
    h.solicited⟩
  · intro hnil
    exact hid (List.sublist_nil.1 (hnil ▸ hfewer id))
  · exact (((hfewer id).map d.decode).append_left _).trans (h.inOrder id browser hb)

theorem extends_workerFetch (env : Env) (relay : BatteryRelay) (request : Request) :
    Extends relay (workerFetch env relay request).1 := by
  rcases workerFetch_cases env relay request with hsame | ⟨role, hopened, -⟩
  · rw [hsame]
    exact fun _ socket h => ⟨socket, h, rfl, rfl⟩
  · rw [hopened]
    exact extends_append relay _

/-- The socket the relay opens for the gateway is a device's. -/
theorem roleOf_upgrade {relay : BatteryRelay} (h : (workerFetch d.env relay d.upgrade).2 = .webSocket) :
    (workerFetch d.env relay d.upgrade).1.roleOf relay.sockets.length = some .device := by
  have hpath : d.upgrade.pathname = js "/device" := rfl
  have hbrowser : js "/device" ≠ js "/browser" := by decide
  unfold workerFetch at h ⊢
  rw [if_pos hpath] at h ⊢
  split at h
  · cases h
  · next hauthorized =>
    rw [if_neg hauthorized]
    unfold fetch at h ⊢
    split at h
    · cases h
    · split at h
      · cases h
      · next hupgrade =>
        simp only [hupgrade, if_false, hpath, hbrowser, roleOf, List.getElem?_concat_length, Option.map_some]

theorem Sound.connect (h : Sound d s₀ s past) : Sound d s₀ (s.step d .connect) past := by
  rw [step]
  split
  · have hopened := (h.unlink).relay (extends_workerFetch d.env s.world.relay d.upgrade)
    refine ⟨hopened.alive, hopened.firmware, ?_, hopened.outbox_device, hopened.inOrder, hopened.told, hopened.solicited⟩
    intro id hid
    dsimp only at hid
    split at hid
    · next haccepted =>
      obtain rfl := Option.some.inj hid
      exact roleOf_upgrade haccepted
    · cases hid
  · exact h

/-- A browser writes: the gateway gets at most one question, and no browser gets anything. -/
theorem Sound.message (h : Sound d s₀ s past) {sender : Nat} {message : Message} {io : SendIo}
    (hsender : s.world.relay.roleOf sender ≠ some .device) :
    Sound d s₀ (s.relays d sender message io) (past ++ [.message sender message io]) := by
  refine ⟨h.alive, h.firmware, h.link_device, h.outbox_device, ?_, (h.later _).told, ?_⟩
  · intro id browser hb
    have hmissed : browser ∉ (s.world.relay.recipients io sender).takeWhile (!io.throws ·) := by
      intro hmem
      have hlisted := (List.takeWhile_sublist _).subset hmem
      unfold recipients at hlisted
      split at hlisted
      · next hrole => exact hsender hrole
      · exact hb (roleOf_of_isOpenAs (mem_getWebSockets.1 hlisted))
      · cases hlisted
    rw [receivedFrom_relays, if_neg fun hboth => hmissed hboth.2, List.append_nil]
    exact h.inOrder id browser hb
  · have hsolicited := h.solicited
    rw [inbox_relays, List.countP_append, List.countP_append, List.countP_singleton, asksStatus]
    have hone : (if ∃ id ∈ (s.world.relay.recipients io sender).takeWhile (!io.throws ·), s.link = some id then
        [ConfigureRequest.utf8 (Message.asText d.decode message)] else []).countP RemoteDashboard.asks ≤
        if RemoteDashboard.asks (ConfigureRequest.utf8 (Message.asText d.decode message)) = true then 1 else 0 := by
      split
      · rw [List.countP_singleton]
      · exact Nat.zero_le _
    have hsent : (s.relays d sender message io).sent = s.sent := rfl
    rw [hsent]
    omega

theorem sentOn_send (s : StatusSystem) (webSocket : Nat) (answers : List Bytes) (id : Nat) :
    (s.send webSocket answers).sentOn id = s.sentOn id ++ if id = webSocket then answers else [] := by
  rw [send, sentOn, List.filter_append, List.map_append, sentOn]
  by_cases hsame : id = webSocket
  · have hall : (answers.map (webSocket, ·)).filter (fun p => p.1 = id) = answers.map (webSocket, ·) :=
      List.filter_eq_self.2 (by simp [hsame])
    rw [hall, if_pos hsame, List.map_map]
    exact congrArg _ (List.map_id _)
  · have hnone : (answers.map (webSocket, ·)).filter (fun p => p.1 = id) = [] :=
      List.filter_eq_nil_iff.2 (by simp [Ne.symm hsame])
    rw [hnone, if_neg hsame]
    rfl

/-- The gateway answers a question with the document it publishes now. -/
theorem Sound.gatewayReceives (h : Sound d s₀ s past) (hs : s = run (step d) s₀ past) :
    Sound d s₀ (s.step d .gatewayReceives) past := by
  obtain ⟨scanner, io, es, hgateway⟩ := h.firmware
  have hcount : s.gateway.battery.data.cellCount ≤ MAX_BATTERY_CELLS := hgateway ▸ cellCount_firmware scanner io es
  rw [step]
  split
  · next webSocket payload rest hlink hinbox =>
    rw [RemoteDashboard.handleWebSocketEvent_text hcount]
    dsimp only
    generalize hanswers : (if RemoteDashboard.asks payload = true then
      [RemoteDashboard.statusText s.gateway.battery.data] else []) = answers
    have hlength : answers.length + rest.countP RemoteDashboard.asks ≤ s.inbox.countP RemoteDashboard.asks := by
      rw [hinbox, List.countP_cons, ← hanswers]
      split <;> simp [Nat.add_comm]
    have htold : ∀ frame ∈ answers, Told d s₀ past frame := by
      intro frame hframe
      rw [← hanswers] at hframe
      split at hframe
      · exact ⟨past, List.prefix_refl past, by rw [List.mem_singleton.1 hframe, hs]⟩
      · cases hframe
    refine ⟨h.alive, h.firmware, h.link_device, ?_, ?_, ?_, ?_⟩
    · intro id hid
      by_cases hsame : id = webSocket
      · exact hsame ▸ h.link_device webSocket hlink
      · exact h.outbox_device id (by simpa [send, Function.update_of_ne hsame] using hid)
    · intro id browser hb
      have hold : (s.receivedFrom id browser ++ (s.outbox id).map d.decode).Sublist ((s.sentOn id).map d.decode) :=
        h.inOrder id browser hb
      rw [sentOn_send]
      by_cases hsame : id = webSocket
      · subst hsame
        simp only [send, Function.update_self, if_true, List.map_append, ← List.append_assoc]
        exact hold.append_right _
      · simp only [send, Function.update_of_ne hsame, if_neg hsame, List.append_nil]
        exact hold
    · intro p hp
      rcases List.mem_append.1 hp with hp | hp
      · exact h.told p hp
      · obtain ⟨frame, hframe, rfl⟩ := List.mem_map.1 hp
        exact htold frame hframe
    · have hsolicited := h.solicited
      simp only [send, List.length_append, List.length_map]
      omega
  · exact h

/-- A frame of the gateway arrives at the relay: every browser the relay reaches gets it. -/
theorem Sound.relayReceives (h : Sound d s₀ s past) (webSocket : Nat) (io : SendIo) :
    Sound d s₀ (s.step d (.relayReceives webSocket io)) past := by
  rw [step]
  split
  · exact h
  · next frame rest hframes =>
    have hdevice : s.world.relay.roleOf webSocket = some .device := h.outbox_device webSocket (by rw [hframes]; simp)
    refine ⟨h.alive, h.firmware, h.link_device, ?_, ?_, h.told, ?_⟩
    · intro id hid
      by_cases hsame : id = webSocket
      · exact hsame ▸ hdevice
      · exact h.outbox_device id (by simpa [relays, Function.update_of_ne hsame] using hid)
    · intro id browser hb
      have hold := h.inOrder id browser hb
      rw [receivedFrom_relays]
      by_cases hsame : id = webSocket
      · -- What the browser gets now was the head of what is on its way.
        subst hsame
        rw [hframes] at hold
        simp only [relays, Function.update_self]
        refine List.Sublist.trans ?_ hold
        rw [List.append_assoc]
        refine List.Sublist.append_left ?_ _
        split
        · exact List.Sublist.refl _
        · exact List.sublist_append_right [d.decode frame] (rest.map d.decode)
      · rw [if_neg fun hboth => hsame hboth.1.symm, List.append_nil]
        simp only [relays, Function.update_of_ne hsame]
        exact hold
    · -- The question's way is the other one: the gateway's socket is a device's too.
      have hmissed : ¬ ∃ id ∈ (s.world.relay.recipients io webSocket).takeWhile (!io.throws ·), s.link = some id := by
        rintro ⟨id, hid, hlink⟩
        exact not_passed hdevice hid (h.link_device id hlink)
      rw [inbox_relays, if_neg hmissed, List.append_nil]
      exact h.solicited

theorem sound_step (h : Sound d s₀ s past) (hs : s = run (step d) s₀ past) (e : Event) (honest : s.Honest d e) :
    Sound d s₀ (s.step d e) (past ++ [e]) := by
  cases e with
  | restart scanner io => exact ((h.gateway ⟨scanner, io, [], rfl⟩).unlink).later _
  | battery event =>
    obtain ⟨scanner, io, es, hgateway⟩ := h.firmware
    refine (h.gateway ⟨scanner, io, es ++ [event], ?_⟩).later _
    rw [run_concat, hgateway]
  | request request => exact (h.relay (extends_workerFetch d.env s.world.relay request)).later _
  | connect => exact h.connect.later _
  | disconnect => exact h.unlink.later _
  | message sender message io => exact h.message honest
  | close webSocket => exact ((h.relay (extends_close s.world.relay webSocket)).lost webSocket).later _
  | gatewayReceives => exact (h.gatewayReceives hs).later _
  | relayReceives webSocket io => exact (h.relayReceives webSocket io).later _
  | lose webSocket => exact (h.lost webSocket).later _

/-! ## Whole runs -/

theorem sound_start (d : Deployment) (scanner : Bool) (io : ScanIo) :
    Sound d (start scanner io) (start scanner io) [] where
  alive := rfl
  firmware := ⟨scanner, io, [], rfl⟩
  link_device := nofun
  outbox_device := fun _ h => absurd rfl h
  inOrder := fun _ _ _ => List.Sublist.refl _
  told := nofun
  solicited := Nat.le_refl _

theorem sound_run {scanner : Bool} {io : ScanIo} {events : List Event}
    (honest : Along (step d) (Honest d) (start scanner io) events) :
    Sound d (start scanner io) (run (step d) (start scanner io) events) events :=
  run_history (I := Sound d (start scanner io)) (sound_start d scanner io)
    (fun _ e h he => sound_step h rfl e he) honest

/-- A gateway whose token is the relay's secret. -/
def matching : Deployment where
  host := ascii "dashboard.example.invalid"
  token := ascii "t"
  env := { DEVICE_TOKEN := some (js "t") }
  decode bytes := bytes.map fun b => UInt16.ofNat b.toNat

/-- A boot without a scanner. -/
def quietScan : ScanIo := { now := 0, sync := { update := ⟨0, 0, [], false⟩, now := 0 } }

/-- A browser and the gateway connect, and the browser asks. -/
def exchange : List Event :=
  [.request ⟨js "/browser", [(js "upgrade", js "websocket")]⟩, .connect,
    .message 0 (.text (js "\x7b\"type\":\"get_status\"\x7d")) {}, .gatewayReceives, .relayReceives 1 {}]

theorem exchange_honest : Along (step matching) (Honest matching) (start false quietScan) exchange := by
  refine ⟨?_, trivial, ?_, trivial, trivial, trivial⟩
  · simp only [Honest]
    decide +kernel
  · simp only [Honest]
    decide +kernel

/-- Whatever is lost, restarted, closed or asked, and in whatever order: a
browser receives only documents that the gateway's battery had at some moment of
the run, and no question crashes the gateway. -/
theorem shown_statuses_published (d : Deployment) (scanner : Bool) (io : ScanIo) (events : List Event)
    (honest : Along (step d) (Honest d) (start scanner io) events) :
    let s := run (step d) (start scanner io) events
    s.crashed = false ∧
    ∀ delivery ∈ s.world.deliveries, s.world.relay.roleOf delivery.recipient ≠ some .device →
      ∃ earlier, earlier <+: events ∧ delivery.text =
        d.decode (RemoteDashboard.statusText (run (step d) (start scanner io) earlier).gateway.battery.data) := by
  have hsound := sound_run honest
  refine ⟨hsound.alive, fun delivery hmem hbrowser => ?_⟩
  have hreceived : delivery.text ∈
      (run (step d) (start scanner io) events).receivedFrom delivery.sender delivery.recipient := by
    refine List.mem_map.2 ⟨delivery, ?_, rfl⟩
    simp [hmem]
  have hsent := (hsound.inOrder delivery.sender delivery.recipient hbrowser).subset (List.mem_append_left _ hreceived)
  obtain ⟨frame, hframe, htext⟩ := List.mem_map.1 hsent
  obtain ⟨p, hp, rfl⟩ := List.mem_map.1 hframe
  obtain ⟨earlier, hprefix, htold⟩ := hsound.told p (List.mem_of_mem_filter hp)
  exact ⟨earlier, hprefix, by rw [← htext, htold]⟩

theorem shown_statuses_published_exchange :
    let s := run (step matching) (start false quietScan) exchange
    ∃ delivery ∈ s.world.deliveries, delivery.recipient = 0 ∧ ∃ earlier, earlier <+: exchange ∧ delivery.text =
      matching.decode (RemoteDashboard.statusText
        (run (step matching) (start false quietScan) earlier).gateway.battery.data) := by
  intro s
  have hbrowser : s.world.relay.roleOf 0 ≠ some .device := by decide +kernel
  have hsome : s.world.deliveries.any (fun delivery => delivery.recipient = 0) = true := by decide +kernel
  obtain ⟨delivery, hmem, hrecipient⟩ := List.any_eq_true.1 hsome
  have hzero := of_decide_eq_true hrecipient
  exact ⟨delivery, hmem, hzero,
    (shown_statuses_published matching false quietScan exchange exchange_honest).2 delivery hmem (hzero ▸ hbrowser)⟩

/-- Over each connection a browser receives the gateway's answers in their order
and none of them twice, and there is a question of its own for every answer. -/
theorem answers_in_order_on_request (d : Deployment) (scanner : Bool) (io : ScanIo) (events : List Event)
    (honest : Along (step d) (Honest d) (start scanner io) events) :
    let s := run (step d) (start scanner io) events
    (∀ webSocket browser, s.world.relay.roleOf browser ≠ some .device →
      (s.receivedFrom webSocket browser).Sublist ((s.sentOn webSocket).map d.decode)) ∧
    s.sent.length + s.inbox.countP RemoteDashboard.asks ≤ events.countP (asksStatus d) := by
  have hsound := sound_run honest
  refine ⟨fun webSocket browser hb => ?_, hsound.solicited⟩
  exact (List.sublist_append_left _ _).trans (hsound.inOrder webSocket browser hb)

theorem answers_in_order_on_request_exchange :
    let s := run (step matching) (start false quietScan) exchange
    (s.receivedFrom 1 0).length = 1 ∧ (s.receivedFrom 1 0).Sublist ((s.sentOn 1).map matching.decode) ∧
      s.sent.length + s.inbox.countP RemoteDashboard.asks ≤ 1 := by
  obtain ⟨horder, hasked⟩ := answers_in_order_on_request matching false quietScan exchange exchange_honest
  refine ⟨by decide +kernel, horder 1 0 (by decide +kernel), ?_⟩
  have hone : exchange.countP (asksStatus matching) = 1 := by decide +kernel
  exact hone ▸ hasked

/-! ## A connection that stays -/

/-- The gateway answers all the questions that are on their way. -/
theorem drain_inbox {s : StatusSystem} {webSocket : Nat} (hcount : s.gateway.battery.data.cellCount ≤ MAX_BATTERY_CELLS)
    (hlink : s.link = some webSocket) {inbox : List Bytes} (hinbox : s.inbox = inbox) :
    let t := run (step d) s (List.replicate inbox.length .gatewayReceives)
    t.world = s.world ∧ t.outbox webSocket = s.outbox webSocket ++
      List.replicate (inbox.countP RemoteDashboard.asks) (RemoteDashboard.statusText s.gateway.battery.data) := by
  induction inbox generalizing s with
  | nil => exact ⟨rfl, (List.append_nil _).symm⟩
  | cons payload rest ih =>
    have hstep : s.step d .gatewayReceives = { s with inbox := rest }.send webSocket
        (if RemoteDashboard.asks payload then [RemoteDashboard.statusText s.gateway.battery.data] else []) := by
      simp only [step, hlink, hinbox, RemoteDashboard.handleWebSocketEvent_text hcount]
    rw [List.length_cons, List.replicate_succ, run_cons, hstep]
    obtain ⟨hworld, houtbox⟩ := ih (s := { s with inbox := rest }.send webSocket
      (if RemoteDashboard.asks payload then [RemoteDashboard.statusText s.gateway.battery.data] else [])) hcount hlink rfl
    refine ⟨hworld, houtbox.trans ?_⟩
    rw [List.countP_cons]
    cases RemoteDashboard.asks payload with
    | false => simp [send]
    | true => simp [send, List.replicate_succ]

/-- The relay passes on what is on its way to a socket. -/
theorem drain_outbox {s : StatusSystem} {webSocket browser : Nat} {io : SendIo} (hsends : ∀ id, io.throws id = false)
    (hdevice : s.world.relay.roleOf webSocket = some .device) (hopen : s.world.relay.isOpenAs .browser browser = true)
    {frames : List Bytes} (houtbox : s.outbox webSocket = frames) :
    (run (step d) s (List.replicate frames.length (.relayReceives webSocket io))).receivedFrom webSocket browser =
      s.receivedFrom webSocket browser ++ frames.map d.decode := by
  induction frames generalizing s with
  | nil => exact (List.append_nil _).symm
  | cons frame rest ih =>
    have hstep : s.step d (.relayReceives webSocket io) =
        { s with outbox := Function.update s.outbox webSocket rest }.relays d webSocket (.text (d.decode frame)) io := by
      rw [step, houtbox]
    have hreached : browser ∈ (s.world.relay.recipients io webSocket).takeWhile (!io.throws ·) := by
      rw [List.takeWhile_eq_self_iff.2 (by simp [hsends]), recipients, hdevice]
      exact mem_getWebSockets.2 hopen
    rw [List.length_cons, List.replicate_succ, run_cons, hstep]
    have hrest := ih (s := { s with outbox := Function.update s.outbox webSocket rest }.relays d webSocket
      (.text (d.decode frame)) io) hdevice hopen (Function.update_self ..)
    rw [hrest, receivedFrom_relays, if_pos ⟨rfl, hreached⟩, List.map_cons, List.append_assoc]
    rfl

/-- A question that reaches the relay while the gateway's connection stands, and no
send throws: once gateway and relay have worked off what is on its way, every open
browser has received all of that, and for each question the current status. -/
theorem question_reaches_every_browser (d : Deployment) (scanner : Bool) (io : ScanIo) (events : List Event)
    (honest : Along (step d) (Honest d) (start scanner io) events) {webSocket browser : Nat} {text : JsString} {sends : SendIo}
    (hlink : (run (step d) (start scanner io) events).link = some webSocket)
    (hopen : (run (step d) (start scanner io) events).world.relay.isOpenAs .device webSocket = true)
    (hbrowser : (run (step d) (start scanner io) events).world.relay.isOpenAs .browser browser = true)
    (hasks : RemoteDashboard.asks (ConfigureRequest.utf8 text) = true) (hsends : ∀ id, sends.throws id = false) :
    let s := run (step d) (start scanner io) events
    let asked := s.step d (.message browser (.text text) sends)
    let answered := run (step d) asked (List.replicate asked.inbox.length .gatewayReceives)
    let shown := run (step d) answered (List.replicate (answered.outbox webSocket).length (.relayReceives webSocket sends))
    ∀ other, s.world.relay.isOpenAs .browser other = true →
      shown.receivedFrom webSocket other = s.receivedFrom webSocket other ++ (s.outbox webSocket).map d.decode ++
        List.replicate (s.inbox.countP RemoteDashboard.asks + 1)
          (d.decode (RemoteDashboard.statusText s.gateway.battery.data)) := by
  intro s asked answered shown other hother
  obtain ⟨scanner, io, es, hgateway⟩ := (sound_run honest).firmware
  have hcount : s.gateway.battery.data.cellCount ≤ MAX_BATTERY_CELLS := hgateway ▸ cellCount_firmware scanner io es
  have hdevice : s.world.relay.roleOf webSocket = some .device := roleOf_of_isOpenAs hopen
  have hasker : s.world.relay.roleOf browser = some .browser := roleOf_of_isOpenAs hbrowser
  -- The question joins those on their way, and no browser gets it.
  have hasked : asked.inbox = s.inbox ++ [ConfigureRequest.utf8 text] := by
    have hreached : webSocket ∈ (s.world.relay.recipients sends browser).takeWhile (!sends.throws ·) := by
      rw [List.takeWhile_eq_self_iff.2 (by simp [hsends]), recipients, hasker]
      exact mem_getWebSockets.2 hopen
    exact (inbox_relays browser (.text text) sends).trans (by rw [if_pos ⟨webSocket, hreached, hlink⟩]; rfl)
  have hquiet : asked.receivedFrom webSocket other = s.receivedFrom webSocket other := by
    have hne : browser ≠ webSocket := by
      rintro rfl
      rw [hdevice] at hasker
      cases hasker
    exact (receivedFrom_relays browser (.text text) sends webSocket other).trans
      (by rw [if_neg fun hboth => hne hboth.1, List.append_nil])
  obtain ⟨hworld, houtbox⟩ := @drain_inbox d asked webSocket hcount hlink _ rfl
  have hanswered : answered.outbox webSocket = s.outbox webSocket ++
      List.replicate (s.inbox.countP RemoteDashboard.asks + 1) (RemoteDashboard.statusText s.gateway.battery.data) := by
    have hquestions : asked.inbox.countP RemoteDashboard.asks = s.inbox.countP RemoteDashboard.asks + 1 := by
      rw [hasked, List.countP_append, List.countP_singleton, if_pos hasks]
    rw [hquestions] at houtbox
    exact houtbox
  have hrelay : answered.world.relay = s.world.relay := (congrArg World.relay hworld).trans rfl
  calc shown.receivedFrom webSocket other
    _ = answered.receivedFrom webSocket other ++ (answered.outbox webSocket).map d.decode :=
      drain_outbox hsends (hrelay ▸ hdevice) (hrelay ▸ hother) rfl
    _ = asked.receivedFrom webSocket other ++ (answered.outbox webSocket).map d.decode := by
      rw [receivedFrom, hworld]
      rfl
    _ = _ := by
      rw [hquiet, hanswered, List.map_append, List.map_replicate, List.append_assoc]

theorem question_reaches_every_browser_exchange :
    let s := run (step matching) (start false quietScan) exchange
    let asked := s.step matching (.message 0 (.text (js "\x7b\"type\":\"get_status\"\x7d")) {})
    let answered := run (step matching) asked (List.replicate asked.inbox.length .gatewayReceives)
    let shown := run (step matching) answered (List.replicate (answered.outbox 1).length (.relayReceives 1 {}))
    shown.receivedFrom 1 0 = s.receivedFrom 1 0 ++ (s.outbox 1).map matching.decode ++
      List.replicate (s.inbox.countP RemoteDashboard.asks + 1)
        (matching.decode (RemoteDashboard.statusText s.gateway.battery.data)) :=
  question_reaches_every_browser matching false quietScan exchange exchange_honest
    (by decide +kernel) (by decide +kernel) (by decide +kernel) (by decide +kernel) (fun _ => rfl) 0 (by decide +kernel)

end StatusSystem

end LiTimeGateway
