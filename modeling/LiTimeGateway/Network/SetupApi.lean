import LiTimeGateway.Network.ConfigureRequest
import LiTimeGateway.Remote.BatteryJson
/-!
# The gateway's web server

`setupRoutes` with all its handlers, between boots. Three routes ask for the
setup password, and only two of them touch what is stored. `authenticate` is the
web server's check of a request's credentials. What the rest of the firmware
does to the storage, the battery and the scan comes in as `elsewhere`; `cut` is a
request during which the power goes between the two writes of `saveWiFi`, or
between the two removes of `forgetWiFi`.
-/

namespace LiTimeGateway.SetupApi

open Lib.Runs

inductive HTTPMethod where
  | GET
  | POST
  | other
  deriving DecidableEq

structure HttpRequest where
  method : HTTPMethod
  uri : Bytes
  authorization : Option Bytes := none
  /-- `server.arg("plain")`. -/
  plain : Bytes := []

inductive HttpReply where
  | requestAuthentication
  | json (status : Nat) (body : Bytes)
  | file (content : Bytes)
  /-- The web files are not there. -/
  | notInstalled
  deriving DecidableEq

structure Server where
  network : GatewayNetwork := {}
  storage : StorageManager := {}
  battery : BatteryData := {}
  scan : Scan := .failed

/-- What a handler reads while it runs: the reads of `/api/status`, `millis()`,
whether a scan starts, and a file if it opens. -/
structure RequestIo where
  status : GatewayNetwork.StatusReads
  storage : GatewayNetwork.StorageReads
  uptime : UInt32
  scanStarts : Bool := true
  file : Option Bytes := none

/-- The routes in the order they are registered. -/
inductive Route where
  | battery
  | status
  | history
  | events
  | startScan
  | scan
  | configure
  | forget
  | index
  | static
  | notFound
  deriving DecidableEq

def route (request : HttpRequest) : Route :=
  let on := fun (uri : String) (method : HTTPMethod) => request.uri = ascii uri ∧ request.method = method
  if on "/api/battery" .GET then .battery
  else if on "/api/status" .GET then .status
  else if on "/api/history" .GET then .history
  else if on "/api/events" .GET then .events
  else if on "/api/wifi/scan" .POST then .startScan
  else if on "/api/wifi/scan" .GET then .scan
  else if on "/api/wifi/configure" .POST then .configure
  else if on "/api/wifi/forget" .POST then .forget
  else if on "/" .GET then .index
  else if on "/style.css" .GET ∨ on "/app.js" .GET then .static
  else .notFound

variable (authenticate : Option Bytes → Bytes → Bytes → Bool)

def Server.authenticated (s : Server) (request : HttpRequest) : Bool :=
  authenticate request.authorization (ascii "admin") (cString s.network.setupKey)

def ofReply : ConfigureRequest.Reply → HttpReply
  | .requestAuthentication => .requestAuthentication
  | .json status body => .json status body

/-- `startScan`; `WiFi.scanNetworks` has deleted the last results. -/
def startScan (scan : Scan) (starts : Bool) : Scan × Bool :=
  match scan with
  | .running => (.running, true)
  | _ => if starts then (.running, true) else (.failed, false)

def notFoundReply : HttpReply := .json 404 (ascii "\x7b\"error\":\"Not found\"\x7d")

/-- The server after a request, and the reply; none if a handler reads out of bounds. -/
def Server.handle (s : Server) (request : HttpRequest) (io : RequestIo) : Server × Option HttpReply :=
  match route request with
  | .battery => (s, (batteryJson s.battery).map (.json 200))
  | .status => (s, some (.json 200 (s.network.apiStatus io.status io.storage)))
  | .history => (s, some (.json 200 (s.storage.historyJson 48)))
  | .events => (s, some (.json 200 (s.storage.eventsJson 32)))
  | .startScan =>
    if !s.authenticated authenticate request then (s, some .requestAuthentication)
    else
      match startScan s.scan io.scanStarts with
      | (scan, false) => ({ s with scan }, some (.json 503 (ascii "\x7b\"error\":\"Unable to start scan\"\x7d")))
      | (scan, true) => ({ s with scan }, some (.json 202 (ascii "\x7b\"state\":\"scanning\"\x7d")))
  | .scan => (s, some (.json 200 (GatewayNetwork.scanJson s.scan)))
  | .configure =>
    let (g, reply) := ConfigureRequest.configure (s.authenticated authenticate request)
      { network := s.network, storage := s.storage } request.plain io.uptime
    ({ s with network := g.network, storage := g.storage }, some (ofReply reply))
  | .forget =>
    if !s.authenticated authenticate request then (s, some .requestAuthentication)
    else
      ({ s with
          network := s.network.forgetWiFi
          storage := s.storage.recordEvent (ascii "wifi_credentials_cleared") none io.uptime },
        some (.json 200 (ascii "\x7b\"ok\":true\x7d")))
  | .index => (s, some (io.file.elim .notInstalled .file))
  | .static => (s, some (io.file.elim notFoundReply .file))
  | .notFound => (s, some notFoundReply)

inductive Event where
  | request (request : HttpRequest) (io : RequestIo)
  | boot (boot : GatewayNetwork.Boot)
  | cut (request : HttpRequest) (boot : GatewayNetwork.Boot)
  | elsewhere (storage : StorageManager) (battery : BatteryData) (scan : Scan)

/-- The check of `saveWiFi`. -/
def refused (ssid password : Bytes) : Bool := ssid.isEmpty || ssid.length > 32 || password.length > 63

/-- What NVS holds when the power goes behind the first write of this request. -/
def Server.cutPreferences (s : Server) (request : HttpRequest) : Preferences :=
  if !s.authenticated authenticate request then s.network.preferences
  else
    match route request with
    | .configure =>
      let ssid := JsonString.jsonString request.plain JsonString.ssidKey
      if refused ssid (JsonString.jsonString request.plain JsonString.passwordKey) then s.network.preferences
      else { s.network.preferences with wifiSsid := some (cString ssid) }
    | .forget => { s.network.preferences with wifiSsid := none }
    | _ => s.network.preferences

/-- The new object's `begin`, over what NVS holds. -/
def boots (preferences : Preferences) (boot : GatewayNetwork.Boot) : GatewayNetwork :=
  ((GatewayNetwork.fresh preferences).begin boot).1

def Server.step (s : Server) : Event → Server
  | .request request io => (s.handle authenticate request io).1
  | .boot boot => { s with network := boots s.network.preferences boot, scan := .failed }
  | .cut request boot => { s with network := boots (s.cutPreferences authenticate request) boot, scan := .failed }
  | .elsewhere storage battery scan => { s with storage, battery, scan }

/-! ## What a request does to what is stored -/

/-- The request writes the stored credentials, or the gateway boots. -/
def Server.matters (s : Server) : Event → Bool
  | .request request _ =>
    s.authenticated authenticate request && (route request = .configure || route request = .forget)
  | .boot _ | .cut _ _ => true
  | .elsewhere _ _ _ => false

/-- The boots of a run, and its requests that write the stored credentials. -/
def Server.writes (s : Server) : List Event → List Event
  | [] => []
  | e :: es => (if s.matters authenticate e then [e] else []) ++ (s.step authenticate e).writes es

/-- A request that is not authenticated for one of the two routes leaves the network as it is. -/
theorem handle_network {s : Server} {request : HttpRequest} (io : RequestIo)
    (h : s.authenticated authenticate request = false ∨ (route request ≠ .configure ∧ route request ≠ .forget)) :
    (s.handle authenticate request io).1.network = s.network := by
  unfold Server.handle
  cases hroute : route request with
  | startScan =>
    dsimp only
    split
    · rfl
    · cases startScan s.scan io.scanStarts with
      | mk scan ok => cases ok <;> rfl
  | configure =>
    have hauth : s.authenticated authenticate request = false := h.resolve_right fun hother => hother.1 hroute
    simp [ConfigureRequest.configure, hauth]
  | forget =>
    have hauth : s.authenticated authenticate request = false := h.resolve_right fun hother => hother.2 hroute
    simp [hauth]
  | battery | status | history | events | scan | index | static | notFound => rfl

/-- The key of this boot is the one NVS holds, and long enough. -/
def Keyed (net : GatewayNetwork) : Prop := net.preferences.setupKey = some net.setupKey ∧ 10 ≤ net.setupKey.length

theorem mem_createSetupKey {random : Fin 12 → UInt32} {b : UInt8} (h : b ∈ GatewayNetwork.createSetupKey random) :
    b ∈ GatewayNetwork.alphabet := by
  obtain ⟨r, -, rfl⟩ := List.mem_map.1 h
  have hlt : r.toNat % GatewayNetwork.alphabet.length < GatewayNetwork.alphabet.length := Nat.mod_lt _ (by decide +kernel)
  rw [List.getD_eq_getElem?_getD, List.getElem?_eq_getElem hlt]
  exact List.getElem_mem hlt

theorem cString_createSetupKey (random : Fin 12 → UInt32) :
    cString (GatewayNetwork.createSetupKey random) = GatewayNetwork.createSetupKey random := by
  have halphabet : ∀ b ∈ GatewayNetwork.alphabet, b ≠ 0 := by decide +kernel
  refine List.takeWhile_eq_self_iff.2 fun b hb => ?_
  simpa using halphabet b (mem_createSetupKey hb)

/-- Connecting tells the station, and changes nothing else. -/
theorem connectSavedNetwork_cases (net : GatewayNetwork) :
    ∃ station, net.connectSavedNetwork = { net with station } := by
  unfold GatewayNetwork.connectSavedNetwork
  split
  · exact ⟨net.station, rfl⟩
  · exact ⟨_, rfl⟩

/-- What a boot makes of what is stored, but for the station. -/
theorem boots_cases (preferences : Preferences) (boot : GatewayNetwork.Boot) : ∃ station, boots preferences boot =
    let stored := preferences.setupKey.getD []
    let setupKey := if stored.length < 10 then GatewayNetwork.createSetupKey boot.random else stored
    { preferences :=
        if stored.length < 10 then { preferences with setupKey := some setupKey } else preferences
      apName := GatewayNetwork.apNameOf boot.chipId
      setupKey
      savedSsid := preferences.wifiSsid.getD []
      station } := by
  unfold boots GatewayNetwork.begin GatewayNetwork.fresh
  by_cases hshort : (preferences.setupKey.getD []).length < 10
  · simp only [if_pos hshort, cString_createSetupKey]
    split
    · exact ⟨none, rfl⟩
    · exact connectSavedNetwork_cases _
  · simp only [if_neg hshort]
    split
    · exact ⟨none, rfl⟩
    · exact connectSavedNetwork_cases _

/-- What a boot does with the key: it takes the stored one, or makes one of twelve letters. -/
theorem boots_key (preferences : Preferences) (boot : GatewayNetwork.Boot) :
    Keyed (boots preferences boot) ∧ (boots preferences boot).setupKey =
      if (preferences.setupKey.getD []).length < 10 then GatewayNetwork.createSetupKey boot.random
      else preferences.setupKey.getD [] := by
  obtain ⟨station, hboots⟩ := boots_cases preferences boot
  rw [hboots]
  dsimp only
  refine ⟨?_, rfl⟩
  split
  · have hlength : (GatewayNetwork.createSetupKey boot.random).length = 12 := by
      rw [GatewayNetwork.createSetupKey, List.length_map, List.length_ofFn]
    exact ⟨rfl, by rw [hlength]; decide⟩
  · next hlong =>
    refine ⟨?_, Nat.le_of_not_lt hlong⟩
    cases hkey : preferences.setupKey with
    | none => simp [hkey] at hlong
    | some key => rfl

/-- Booting again over a key that is long enough keeps it. -/
theorem boots_keyed {net : GatewayNetwork} (h : Keyed net) {preferences : Preferences}
    (hkept : preferences.setupKey = net.preferences.setupKey) (boot : GatewayNetwork.Boot) :
    Keyed (boots preferences boot) ∧ (boots preferences boot).setupKey = net.setupKey := by
  obtain ⟨hkeyed, hkey⟩ := boots_key preferences boot
  rw [hkept, h.1, Option.getD_some, if_neg (Nat.not_lt.2 h.2)] at hkey
  exact ⟨hkeyed, hkey⟩

/-- The network with this pair stored. -/
def storing (net : GatewayNetwork) (ssid password : Bytes) (station : Option (Bytes × Bytes)) : GatewayNetwork :=
  { net with
    preferences := { net.preferences with wifiSsid := some (cString ssid), wifiPass := some (cString password) }
    savedSsid := ssid
    station }

theorem saveWiFi_eq (net : GatewayNetwork) (ssid password : Bytes) : ∃ station, net.saveWiFi ssid password =
    if refused ssid password then (net, .error GatewayNetwork.lengthError)
    else (storing net ssid password station, .ok ()) := by
  obtain ⟨station, hnet⟩ := connectSavedNetwork_cases (storing net ssid password net.station)
  refine ⟨station, ?_⟩
  unfold GatewayNetwork.saveWiFi
  exact ite_congr rfl (fun _ => rfl) fun _ => Prod.ext hnet rfl

/-- What the handler of `/api/wifi/configure` does, but for the station. -/
theorem configure_eq (authenticated : Bool) (g : ConfigureRequest.Gateway) (body : Bytes) (uptime : UInt32) :
    ∃ station, ConfigureRequest.configure authenticated g body uptime =
      let ssid := JsonString.jsonString body JsonString.ssidKey
      let password := JsonString.jsonString body JsonString.passwordKey
      if !authenticated then (g, .requestAuthentication)
      else if refused ssid password then
        (g, .json 400 (ascii "\x7b\"error\":\"" ++ GatewayNetwork.lengthError ++ ascii "\"\x7d"))
      else
        ({ network := storing g.network ssid password station
           storage := g.storage.recordEvent (ascii "wifi_credentials_saved") none uptime },
          .json 202 (ascii "\x7b\"accepted\":true\x7d")) := by
  obtain ⟨station, hsave⟩ := saveWiFi_eq g.network (JsonString.jsonString body JsonString.ssidKey)
    (JsonString.jsonString body JsonString.passwordKey)
  refine ⟨station, ?_⟩
  unfold ConfigureRequest.configure
  rw [hsave]
  dsimp only
  cases refused (JsonString.jsonString body JsonString.ssidKey) (JsonString.jsonString body JsonString.passwordKey) with
  | true => rfl
  | false => rfl

/-- A request writes nothing beside the network's name and password. -/
theorem Server.cutPreferences_key (s : Server) (request : HttpRequest) :
    (s.cutPreferences authenticate request).setupKey = s.network.preferences.setupKey := by
  unfold Server.cutPreferences
  split
  · rfl
  · cases route request with
    | configure =>
      dsimp only
      split
      · rfl
      · rfl
    | forget => rfl
    | _ => rfl

theorem key_step {s : Server} (h : Keyed s.network) (e : Event) :
    Keyed (s.step authenticate e).network ∧ (s.step authenticate e).network.setupKey = s.network.setupKey := by
  cases e with
  | request request io =>
    by_cases hconfigure : route request = .configure
    · obtain ⟨station, heq⟩ := configure_eq (s.authenticated authenticate request)
        { network := s.network, storage := s.storage } request.plain io.uptime
      simp only [Server.step, Server.handle, hconfigure, heq]
      split
      · exact ⟨h, rfl⟩
      · split <;> exact ⟨h, rfl⟩
    by_cases hforget : route request = .forget
    · simp only [Server.step, Server.handle, hforget]
      split
      · exact ⟨h, rfl⟩
      · exact ⟨h, rfl⟩
    rw [Server.step, handle_network authenticate io (.inr ⟨hconfigure, hforget⟩)]
    exact ⟨h, rfl⟩
  | boot boot => exact boots_keyed h rfl boot
  | cut request boot => exact boots_keyed h (s.cutPreferences_key authenticate request) boot
  | elsewhere storage battery scan => exact ⟨h, rfl⟩

/-- The key of the first boot stays the key, through all requests, boots and power
losses, and NVS holds it: the stored one, or a new one of twelve characters of the
alphabet when that was shorter than ten. -/
theorem setup_key_survives (preferences : Preferences) (boot : GatewayNetwork.Boot) (es : List Event) :
    let key := (boots preferences boot).setupKey
    let later := (run (Server.step authenticate) { network := boots preferences boot } es).network
    later.setupKey = key ∧ later.preferences.setupKey = some key ∧ 10 ≤ key.length ∧
      (preferences.setupKey = some key ∨ (preferences.setupKey.getD []).length < 10 ∧ key.length = 12 ∧
        ∀ b ∈ key, b ∈ GatewayNetwork.alphabet) := by
  intro key later
  obtain ⟨hkeyed, hkey⟩ := boots_key preferences boot
  have hrun : Keyed later ∧ later.setupKey = key := by
    refine run_inv (I := fun t : Server => Keyed t.network ∧ t.network.setupKey = key)
      (C := fun _ _ => True) ?_ ⟨hkeyed, rfl⟩ (along_true (fun _ _ => trivial) _ es)
    intro t e ht _
    obtain ⟨hnext, hsame⟩ := key_step authenticate ht.1 e
    exact ⟨hnext, hsame.trans ht.2⟩
  refine ⟨hrun.2, hrun.1.1.trans (congrArg some hrun.2), hkeyed.2, ?_⟩
  have hfirst : key = if (preferences.setupKey.getD []).length < 10 then GatewayNetwork.createSetupKey boot.random
      else preferences.setupKey.getD [] := hkey
  split at hfirst
  · next hshort =>
    rw [hfirst]
    exact .inr ⟨hshort, by rw [GatewayNetwork.createSetupKey, List.length_map, List.length_ofFn],
      fun b => mem_createSetupKey⟩
  · next hlong =>
    rw [hfirst]
    refine .inl ?_
    cases hstored : preferences.setupKey with
    | none => simp [hstored] at hlong
    | some stored => rfl

/-! ## What a client learns -/

/-- The replies of a run, in order. -/
def Server.replies (s : Server) : List Event → List (Option HttpReply)
  | [] => []
  | .request request io :: es =>
    (s.handle authenticate request io).2 :: (s.step authenticate (.request request io)).replies es
  | e :: es => (s.step authenticate e).replies es

def Event.request? : Event → Option HttpRequest
  | .request asked _ => some asked
  | .cut asked _ => some asked
  | _ => none

/-- The two gateways differ in their setup keys and in the password of the station at most. -/
structure Alike (s t : Server) : Prop where
  storage : s.storage = t.storage
  battery : s.battery = t.battery
  scan : s.scan = t.scan
  apName : s.network.apName = t.network.apName
  savedSsid : s.network.savedSsid = t.network.savedSsid
  wifiSsid : s.network.preferences.wifiSsid = t.network.preferences.wifiSsid
  keyed : Keyed s.network
  keyed' : Keyed t.network

theorem Alike.boots {s t : Server} (h : Alike s t) {p q : Preferences} (hssid : p.wifiSsid = q.wifiSsid)
    (hp : p.setupKey = s.network.preferences.setupKey) (hq : q.setupKey = t.network.preferences.setupKey)
    (boot : GatewayNetwork.Boot) :
    Alike { s with network := boots p boot, scan := .failed } { t with network := boots q boot, scan := .failed } := by
  have hs := (boots_keyed h.keyed hp boot).1
  have ht := (boots_keyed h.keyed' hq boot).1
  obtain ⟨_, hbootp⟩ := boots_cases p boot
  obtain ⟨_, hbootq⟩ := boots_cases q boot
  refine ⟨h.storage, h.battery, rfl, ?_, ?_, ?_, hs, ht⟩
  · rw [hbootp, hbootq]
  · rw [hbootp, hbootq]
    exact congrArg (Option.getD · []) hssid
  · rw [hbootp, hbootq]
    dsimp only
    split <;> split <;> exact hssid

/-- The same reply, and the gateways stay alike. -/
theorem Alike.handle {s t : Server} (h : Alike s t) (request : HttpRequest) (io : RequestIo)
    (hauth : s.authenticated authenticate request = t.authenticated authenticate request) :
    (s.handle authenticate request io).2 = (t.handle authenticate request io).2 ∧
      Alike (s.handle authenticate request io).1 (t.handle authenticate request io).1 := by
  unfold Server.handle
  rw [hauth]
  cases hroute : route request with
  | battery => exact ⟨by simp only [h.battery], h⟩
  | status => exact ⟨by simp only [GatewayNetwork.apiStatus, GatewayNetwork.statusJson, h.apName, h.savedSsid], h⟩
  | history => exact ⟨by simp only [h.storage], h⟩
  | events => exact ⟨by simp only [h.storage], h⟩
  | scan => exact ⟨by simp only [h.scan], h⟩
  | startScan =>
    simp only [h.scan]
    split
    · exact ⟨rfl, h⟩
    · cases startScan t.scan io.scanStarts with
      | mk scan ok =>
        cases ok
        · exact ⟨rfl, h.storage, h.battery, rfl, h.apName, h.savedSsid, h.wifiSsid, h.keyed, h.keyed'⟩
        · exact ⟨rfl, h.storage, h.battery, rfl, h.apName, h.savedSsid, h.wifiSsid, h.keyed, h.keyed'⟩
  | configure =>
    obtain ⟨_, hconfigure⟩ := configure_eq (t.authenticated authenticate request)
      { network := s.network, storage := t.storage } request.plain io.uptime
    obtain ⟨_, hconfigure'⟩ := configure_eq (t.authenticated authenticate request)
      { network := t.network, storage := t.storage } request.plain io.uptime
    simp only [h.storage, hconfigure, hconfigure']
    cases t.authenticated authenticate request with
    | false => exact ⟨rfl, rfl, h.battery, h.scan, h.apName, h.savedSsid, h.wifiSsid, h.keyed, h.keyed'⟩
    | true =>
      cases refused (JsonString.jsonString request.plain JsonString.ssidKey)
        (JsonString.jsonString request.plain JsonString.passwordKey) with
      | true => exact ⟨rfl, rfl, h.battery, h.scan, h.apName, h.savedSsid, h.wifiSsid, h.keyed, h.keyed'⟩
      | false => exact ⟨rfl, rfl, h.battery, h.scan, h.apName, rfl, rfl, h.keyed, h.keyed'⟩
  | forget =>
    dsimp only
    split
    · exact ⟨rfl, h⟩
    · exact ⟨rfl, by dsimp only; rw [h.storage], h.battery, h.scan, h.apName, rfl, rfl, h.keyed, h.keyed'⟩
  | index => exact ⟨rfl, h⟩
  | static => exact ⟨rfl, h⟩
  | notFound => exact ⟨rfl, h⟩

theorem Alike.step {s t : Server} (h : Alike s t) (e : Event)
    (hauth : ∀ request ∈ e.request?, s.authenticated authenticate request = t.authenticated authenticate request) :
    Alike (s.step authenticate e) (t.step authenticate e) := by
  cases e with
  | request request io => exact (h.handle authenticate request io (hauth request rfl)).2
  | boot boot => exact h.boots h.wifiSsid rfl rfl boot
  | cut request boot =>
    refine h.boots ?_ (s.cutPreferences_key authenticate request) (t.cutPreferences_key authenticate request) boot
    unfold Server.cutPreferences
    rw [hauth request rfl]
    split
    · exact h.wifiSsid
    · cases route request with
      | configure =>
        dsimp only
        split
        · exact h.wifiSsid
        · rfl
      | forget => rfl
      | _ => exact h.wifiSsid
  | elsewhere storage battery scan =>
    exact ⟨rfl, rfl, rfl, h.apName, h.savedSsid, h.wifiSsid, h.keyed, h.keyed'⟩

/-- Two gateways that differ in the stored Wi-Fi password, in the station's and
in the setup key give the same replies to every run of requests, whatever
happens in between, unless some request's credentials are right for one key and
wrong for the other. -/
theorem replies_keep_secrets {s t : Server} (h : Alike s t) (es : List Event)
    (hauth : ∀ e ∈ es, ∀ request ∈ e.request?,
      s.authenticated authenticate request = t.authenticated authenticate request) :
    s.replies authenticate es = t.replies authenticate es := by
  induction es generalizing s t with
  | nil => rfl
  | cons e es ih =>
    have hs := key_step authenticate h.keyed e
    have ht := key_step authenticate h.keyed' e
    have hnext := h.step authenticate e (hauth e List.mem_cons_self)
    -- The keys are the same after the event, and with them what `authenticate` says.
    have hlater : (s.step authenticate e).replies authenticate es = (t.step authenticate e).replies authenticate es := by
      refine ih hnext fun e' he' request hrequest => ?_
      rw [Server.authenticated, hs.2, Server.authenticated, ht.2]
      exact hauth e' (List.mem_cons_of_mem e he') request hrequest
    cases e with
    | request request io =>
      rw [Server.replies, Server.replies, hlater,
        (h.handle authenticate request io (hauth _ List.mem_cons_self request rfl)).1]
    | boot boot => exact hlater
    | cut request boot => exact hlater
    | elsewhere storage battery scan => exact hlater

/-- A gateway in the network `home`. -/
def atHome (password setupKey : Bytes) : Server where
  network :=
    { preferences := { wifiSsid := some (ascii "home"), wifiPass := some password, setupKey := some setupKey }
      apName := ascii "LiTime-Setup-0A1B2C"
      setupKey
      savedSsid := ascii "home"
      station := some (ascii "home", password) }

/-- The station's state is asked for, and a stranger tries to change the network. -/
def curious : List Event :=
  [.request ⟨.GET, ascii "/api/status", none, []⟩
      { status := ⟨⟨192, 168, 4, 1⟩, true, true, ⟨10, 0, 0, 7⟩, 0⟩, storage := ⟨true, 1024, 0, false⟩, uptime := 5000 },
    .request ⟨.POST, ascii "/api/wifi/configure", none, ascii "\x7b\"ssid\":\"x\",\"password\":\"y\"\x7d"⟩
      { status := ⟨⟨192, 168, 4, 1⟩, true, true, ⟨10, 0, 0, 7⟩, 0⟩, storage := ⟨true, 1024, 0, false⟩, uptime := 6000 }]

/-- No request in `curious` has credentials. -/
theorem replies_keep_secrets_curious :
    let refuses := fun (authorization : Option Bytes) (_ _ : Bytes) => authorization.isSome
    (atHome (ascii "correct horse") (ascii "abcdefghij")).replies refuses curious =
      (atHome (ascii "battery staple") (ascii "ABCDEFGHJK")).replies refuses curious := by
  intro refuses
  refine replies_keep_secrets refuses ⟨rfl, rfl, rfl, rfl, rfl, rfl, ?_, ?_⟩ curious fun _ _ _ _ => rfl
  · exact ⟨rfl, by decide +kernel⟩
  · exact ⟨rfl, by decide +kernel⟩

end LiTimeGateway.SetupApi
