import LiTimeGateway.Relay.BatteryRelay
/-!
# Who can feed the dashboard

`Guarded` is the promise of the bearer token: a device socket was opened with the
configured secret, so what browsers receive was sent by a holder of it, and
what browsers send reaches only holders. Without a `DEVICE_TOKEN` the Worker
compares with the text `Bearer undefined`, which anyone can send; the promise
holds in every run in which nobody does.
-/

namespace LiTimeGateway.BatteryRelay

open Lib Lib.Lines

/-- The socket's upgrade request carried exactly the secret that is configured. -/
def Authorized (env : Env) (relay : BatteryRelay) (id : Nat) : Prop :=
  ∃ socket token, relay.sockets[id]? = some socket ∧ env.DEVICE_TOKEN = some token ∧ token ≠ [] ∧
    socket.request.header (js "Authorization") = some (js "Bearer " ++ token)

structure World.Guarded (env : Env) (w : World) : Prop where
  devices : ∀ id, w.relay.roleOf id = some .device → Authorized env w.relay id
  to_browsers : ∀ d ∈ w.deliveries, w.relay.roleOf d.recipient = some .browser →
    w.relay.roleOf d.sender = some .device ∧ Authorized env w.relay d.sender
  from_browsers : ∀ d ∈ w.deliveries, w.relay.roleOf d.sender = some .browser →
    w.relay.roleOf d.recipient = some .device ∧ Authorized env w.relay d.recipient

def isUpgrade (request : Request) : Bool :=
  (request.header (js "Upgrade")).any fun upgrade => toLowerCase upgrade = js "websocket"

/-- A device upgrade with the rendering of a secret that is not there. -/
def forges (env : Env) : Event → Bool
  | .request request =>
    env.DEVICE_TOKEN.isNone && request.pathname = js "/device" && isUpgrade request &&
      request.header (js "Authorization") = some (js "Bearer undefined")
  | _ => false

/-! ## Requests -/

/-- No header has the value `Bearer `: one value loses its last blank, and several have a comma. -/
theorem header_ne_bearer (request : Request) (name : JsString) : request.header name ≠ some (js "Bearer ") := by
  unfold Request.header
  generalize request.headers.filter _ = headers
  rcases headers with _ | ⟨first, _ | ⟨second, rest⟩⟩
  · simp
  · have hblank : js "Bearer " = js "Bearer" ++ [32] := by decide
    have hstrip := strip_ne_concat isHttpWhitespace (c := 32) rfl first.2 (js "Bearer")
    simpa [List.intercalate_singleton, hblank] using hstrip
  · have hcomma : (44 : UInt16) ∉ js "Bearer " := by decide
    simp only [List.map_cons, List.isEmpty_cons, Bool.false_eq_true, if_false, ne_eq, Option.some.injEq,
      List.intercalate_cons_cons]
    intro h
    rw [← h] at hcomma
    simp [js] at hcomma

theorem fetch_eq (relay : BatteryRelay) (request : Request) :
    (relay.fetch request).1 =
      if isUpgrade request then
        { sockets := relay.sockets ++
            [{ role := if request.pathname = js "/browser" then .browser else .device, request }] }
      else relay := by
  unfold fetch isUpgrade
  cases request.header (js "Upgrade") with
  | none => rfl
  | some upgrade =>
    by_cases h : toLowerCase upgrade = js "websocket"
    · simp [h]
    · simp [h]

/-- What the Worker does with a request: nothing, or it accepts a socket, and a
device only with the token. -/
theorem workerFetch_cases (env : Env) (relay : BatteryRelay) (request : Request) :
    (workerFetch env relay request).1 = relay ∨
      ∃ role, (workerFetch env relay request).1 = { sockets := relay.sockets ++ [{ role, request }] } ∧
        (role = .device → request.pathname = js "/device" ∧ isUpgrade request = true ∧
          request.header (js "Authorization") = some env.bearer) := by
  unfold workerFetch
  split
  · next hdevice =>
    split
    · exact .inl rfl
    · next hauthorized =>
      rw [fetch_eq]
      split
      · next hupgrade => exact .inr ⟨_, rfl, fun _ => ⟨hdevice, hupgrade, not_not.1 hauthorized⟩⟩
      · exact .inl rfl
  split
  · next hbrowser =>
    rw [fetch_eq, hbrowser, if_pos rfl]
    split
    · exact .inr ⟨_, rfl, nofun⟩
    · exact .inl rfl
  · exact .inl rfl

/-- Without a secret, anyone who sends its rendering opens a device socket. -/
theorem workerFetch_forged {env : Env} {request : Request} (h : forges env (.request request) = true)
    (relay : BatteryRelay) :
    env.DEVICE_TOKEN = none ∧
      (workerFetch env relay request).1 = { sockets := relay.sockets ++ [{ role := .device, request }] } := by
  simp only [forges, Bool.and_eq_true, Option.isNone_iff_eq_none, decide_eq_true_eq] at h
  obtain ⟨⟨⟨htoken, hpath⟩, hupgrade⟩, hauthorization⟩ := h
  have hbearer : env.bearer = js "Bearer undefined" := by
    rw [Env.bearer, htoken]
    decide
  have hrole : js "/device" ≠ js "/browser" := by decide
  refine ⟨htoken, ?_⟩
  simp [workerFetch, hpath, hauthorization, hbearer, fetch_eq, hupgrade, hrole]

/-! ## One step -/

/-- Sockets keep their role and their request. -/
def Extends (relay relay' : BatteryRelay) : Prop :=
  ∀ (id : Nat) (socket : Socket), relay.sockets[id]? = some socket →
    ∃ socket' : Socket, relay'.sockets[id]? = some socket' ∧ socket'.role = socket.role ∧
      socket'.request = socket.request

theorem Extends.roleOf {relay relay' : BatteryRelay} (h : Extends relay relay') {id : Nat} {role : Role}
    (hrole : relay.roleOf id = some role) : relay'.roleOf id = some role := by
  obtain ⟨socket, hs, rfl⟩ := Option.map_eq_some_iff.1 hrole
  obtain ⟨socket', hs', hsame, -⟩ := h id socket hs
  rw [BatteryRelay.roleOf, hs', Option.map_some, hsame]

theorem Extends.authorized {env : Env} {relay relay' : BatteryRelay} (h : Extends relay relay') {id : Nat}
    (ha : Authorized env relay id) : Authorized env relay' id := by
  obtain ⟨socket, token, hs, htoken, hne, hheader⟩ := ha
  obtain ⟨socket', hs', -, hsame⟩ := h id socket hs
  exact ⟨socket', token, hs', htoken, hne, hsame ▸ hheader⟩

theorem extends_append (relay : BatteryRelay) (socket : Socket) :
    Extends relay { sockets := relay.sockets ++ [socket] } := by
  intro id old h
  have hlt : id < relay.sockets.length := (List.getElem?_eq_some_iff.1 h).1
  exact ⟨old, (List.getElem?_append_left hlt).trans h, rfl, rfl⟩

theorem extends_close (relay : BatteryRelay) (id : Nat) : Extends relay (relay.close id) := by
  intro other socket h
  rw [close, List.getElem?_modify, h]
  split
  · exact ⟨_, rfl, rfl, rfl⟩
  · exact ⟨_, rfl, rfl, rfl⟩

theorem roleOf_close (relay : BatteryRelay) (id other : Nat) : (relay.close id).roleOf other = relay.roleOf other := by
  rw [roleOf, roleOf, close, List.getElem?_modify]
  cases relay.sockets[other]? with
  | none => rfl
  | some socket => split <;> rfl

/-- Devices are authorized, and a text goes from one role to the other. -/
structure Safe (env : Env) (w : World) : Prop where
  devices : ∀ id, w.relay.roleOf id = some .device → Authorized env w.relay id
  crosses : ∀ d ∈ w.deliveries,
    w.relay.roleOf d.sender = some .device ∧ w.relay.roleOf d.recipient = some .browser ∨
      w.relay.roleOf d.sender = some .browser ∧ w.relay.roleOf d.recipient = some .device

theorem Safe.guarded {env : Env} {w : World} (h : Safe env w) : w.Guarded env where
  devices := h.devices
  to_browsers d hd hb := by
    rcases h.crosses d hd with ⟨hs, -⟩ | ⟨-, hr⟩
    · exact ⟨hs, h.devices _ hs⟩
    · rw [hr] at hb
      cases hb
  from_browsers d hd hb := by
    rcases h.crosses d hd with ⟨hs, -⟩ | ⟨-, hr⟩
    · rw [hs] at hb
      cases hb
    · exact ⟨hr, h.devices _ hr⟩

theorem sent_crosses {relay : BatteryRelay} {decode : Bytes → JsString} {sender : Nat} {message : Message} {io : SendIo}
    {sent : Nat × JsString} (h : sent ∈ relay.webSocketMessage decode sender message io) :
    relay.roleOf sender = some .device ∧ relay.roleOf sent.1 = some .browser ∨
      relay.roleOf sender = some .browser ∧ relay.roleOf sent.1 = some .device := by
  rw [webSocketMessage_eq, sendEach_eq] at h
  obtain ⟨id, hid, rfl⟩ := List.mem_map.1 h
  have hlisted := (List.takeWhile_sublist _).subset hid
  unfold recipients at hlisted
  split at hlisted
  · next hrole => exact .inl ⟨hrole, roleOf_of_isOpenAs (mem_getWebSockets.1 hlisted)⟩
  · next hrole => exact .inr ⟨hrole, roleOf_of_isOpenAs (mem_getWebSockets.1 hlisted)⟩
  · cases hlisted

variable {env : Env} {decode : Bytes → JsString}

/-- The socket a request opens is no device, or its token is the secret. -/
theorem authorized_append {relay : BatteryRelay} {request : Request} {role : Role}
    (hcheck : role = .device → request.pathname = js "/device" ∧ isUpgrade request = true ∧
      request.header (js "Authorization") = some env.bearer)
    (hforges : forges env (.request request) = false) (hdevice : role = .device) :
    Authorized env { sockets := relay.sockets ++ [{ role, request }] } relay.sockets.length := by
  obtain ⟨hpath, hupgrade, hauthorization⟩ := hcheck hdevice
  cases htoken : env.DEVICE_TOKEN with
  | none =>
    -- The rendering of a missing secret is what the condition excludes.
    have hbearer : env.bearer = js "Bearer undefined" := by
      rw [Env.bearer, htoken]
      decide
    rw [hbearer] at hauthorization
    simp [forges, htoken, hpath, hupgrade, hauthorization] at hforges
  | some token =>
    rw [Env.bearer, htoken, Option.getD_some] at hauthorization
    refine ⟨{ role, request }, token, List.getElem?_concat_length, htoken, ?_, hauthorization⟩
    rintro rfl
    rw [List.append_nil] at hauthorization
    exact header_ne_bearer request _ hauthorization

theorem Safe.request {w : World} (h : Safe env w) {request : Request}
    (hforges : forges env (.request request) = false) : Safe env (w.step env decode (.request request)) := by
  rcases workerFetch_cases env w.relay request with hsame | ⟨role, hopened, hcheck⟩
  · rw [World.step, hsame]
    exact h
  · have hextends := extends_append w.relay { role, request }
    rw [World.step, hopened]
    refine ⟨?_, ?_⟩
    · intro id hid
      rcases Nat.lt_trichotomy id w.relay.sockets.length with hlt | rfl | hgt
      · -- An older socket.
        have hold : w.relay.roleOf id = some .device := by
          rw [roleOf, ← hid, roleOf, List.getElem?_append_left hlt]
        exact hextends.authorized (h.devices id hold)
      · have hrole : role = .device := by
          simpa [roleOf] using hid
        exact authorized_append hcheck hforges hrole
      · rw [roleOf, List.getElem?_eq_none (by simp; omega)] at hid
        cases hid
    · intro d hd
      rcases h.crosses d hd with ⟨hs, hr⟩ | ⟨hs, hr⟩
      · exact .inl ⟨hextends.roleOf hs, hextends.roleOf hr⟩
      · exact .inr ⟨hextends.roleOf hs, hextends.roleOf hr⟩

theorem Safe.step {w : World} (h : Safe env w) {event : Event} (hforges : forges env event = false) :
    Safe env (w.step env decode event) := by
  cases event with
  | request request => exact h.request hforges
  | message sender message io =>
    refine ⟨h.devices, ?_⟩
    intro d hd
    rcases List.mem_append.1 hd with hd | hd
    · exact h.crosses d hd
    · obtain ⟨sent, hsent, rfl⟩ := List.mem_map.1 hd
      exact sent_crosses hsent
  | close webSocket =>
    have hextends := extends_close w.relay webSocket
    refine ⟨?_, ?_⟩
    · intro id hid
      rw [World.step, roleOf_close] at hid
      exact hextends.authorized (h.devices id hid)
    · intro d hd
      rw [World.step, roleOf_close, roleOf_close]
      exact h.crosses d hd

/-! ## Whole runs -/

theorem not_guarded_of_forges {w : World} {event : Event} (h : forges env event = true) :
    ¬ (w.step env decode event).Guarded env := by
  intro hguarded
  cases event with
  | request request =>
    obtain ⟨htoken, hopened⟩ := workerFetch_forged h w.relay
    have hdevice : (w.step env decode (.request request)).relay.roleOf w.relay.sockets.length = some .device := by
      rw [World.step, hopened, roleOf, List.getElem?_concat_length]
      rfl
    obtain ⟨-, token, -, hsome, -⟩ := hguarded.devices _ hdevice
    rw [htoken] at hsome
    cases hsome
  | message sender message io => cases h
  | close webSocket => cases h

/-- Whatever the secret, and whoever connects: only its holders feed the
dashboard, exactly when nobody sends the rendering of a secret that is not set. -/
theorem guarded_iff (env : Env) (decode : Bytes → JsString) (events : List Event) :
    Runs.Throughout (World.step env decode) (World.Guarded env) {} events ↔
      ∀ event ∈ events, forges env event = false := by
  have hstart : Safe env {} := by
    refine ⟨fun id hid => ?_, nofun⟩
    rw [roleOf, List.getElem?_nil] at hid
    cases hid
  have halong : Runs.Along (World.step env decode) (fun _ event => forges env event = false) {} events ↔
      ∀ event ∈ events, forges env event = false :=
    Runs.along_iff_forall (A := fun event => forges env event = false) _ events
  rw [← halong]
  refine Runs.throughout_iff_along (I := Safe env) (fun _ h => h.guarded) ?_ ?_ hstart events
  · exact fun w event h hforges => h.step hforges
  · exact fun w event _ hforges => not_guarded_of_forges (Bool.not_eq_false _ ▸ hforges)

/-- What anyone can send. -/
def undefinedRequest : Request where
  pathname := js "/device"
  headers := [(js "upgrade", js "websocket"), (js "authorization", js "Bearer undefined")]

/-- Before the secret is set, a stranger's text reaches the dashboard. -/
theorem undefined_token_feeds_dashboard :
    ¬ ∃ decode : Bytes → JsString, Runs.Throughout (World.step {} decode) (World.Guarded {}) {}
      [.request ⟨js "/browser", [(js "upgrade", js "websocket")]⟩, .request undefinedRequest,
        .message 1 (.text (js "\x7b\x7d")) {}] := by
  rintro ⟨decode, h⟩
  have hlast := h.last.to_browsers ⟨1, 0, js "\x7b\x7d"⟩ List.mem_cons_self rfl
  obtain ⟨-, -, token, -, htoken, -⟩ := hlast
  cases htoken

end LiTimeGateway.BatteryRelay
