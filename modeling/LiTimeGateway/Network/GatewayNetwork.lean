import LiTimeGateway.JsonValues
/-!
# The gateway's network side

`GatewayNetwork`: the setup access point, the saved station network, and the
documents the setup page reads. What the Wi-Fi stack, the clock and LittleFS
answer while a document is put together comes in as the reads of that document.
-/

namespace LiTimeGateway

structure IPAddress where
  a : UInt8
  b : UInt8
  c : UInt8
  d : UInt8

/-- `IPAddress::toString`. -/
def IPAddress.text (ip : IPAddress) : Bytes :=
  decimal ip.a.toNat ++ ascii "." ++ decimal ip.b.toNat ++ ascii "." ++ decimal ip.c.toNat ++ ascii "." ++
    decimal ip.d.toNat

/-- A `const char*`: what stands before the first NUL. -/
def cString (t : Bytes) : Bytes := t.takeWhile (· ≠ 0)

/-- The keys of the namespace `gateway` in NVS, which stores C strings. -/
structure Preferences where
  wifiSsid : Option Bytes := none
  wifiPass : Option Bytes := none
  setupKey : Option Bytes := none

/-- A network of the last scan; `encryptionType` 0 is `WIFI_AUTH_OPEN`. -/
structure ScanResult where
  ssid : Bytes
  rssi : Int
  encryptionType : Nat

def WIFI_AUTH_OPEN : Nat := 0

/-- `WiFi.scanComplete()`: running, failed (or none was started), or the networks found. -/
inductive Scan where
  | running
  | failed
  | complete (networks : List ScanResult)

def Scan.networks : Scan → List ScanResult
  | .complete networks => networks
  | _ => []

/-- `station` is what `WiFi.begin` was last given, until `WiFi.disconnect`. -/
structure GatewayNetwork where
  preferences : Preferences := {}
  apName : Bytes := []
  setupKey : Bytes := []
  savedSsid : Bytes := []
  station : Option (Bytes × Bytes) := none

namespace GatewayNetwork

/-! ## Starting, saving and forgetting -/

def alphabet : Bytes := ascii "ABCDEFGHJKLMNPQRSTUVWXYZabcdefghijkmnopqrstuvwxyz23456789"

/-- `createSetupKey` from twelve results of `esp_random()`. -/
def createSetupKey (random : Fin 12 → UInt32) : Bytes :=
  (List.ofFn random).map fun r => alphabet.getD (r.toNat % alphabet.length) 0

/-- `n` in `width` upper case hexadecimal digits. -/
def upperHex : (width : Nat) → Nat → Bytes
  | 0, _ => []
  | width + 1, n => upperHex width (n / 16) ++ [ch (Nat.digitChar (n % 16)).toUpper]

def apNameOf (chipId : UInt64) : Bytes :=
  ascii "LiTime-Setup-" ++ upperHex 6 (chipId &&& 0xFFFFFF).toNat

def connectSavedNetwork (net : GatewayNetwork) : GatewayNetwork :=
  if net.savedSsid.isEmpty then net
  else { net with station := some (cString net.savedSsid, cString (net.preferences.wifiPass.getD [])) }

/-- What `begin` reads: the chip's id, `esp_random()`, and whether the access point starts. -/
structure Boot where
  chipId : UInt64
  random : Fin 12 → UInt32
  apStarted : Bool

def begin (net : GatewayNetwork) (boot : Boot) : GatewayNetwork × Bool :=
  let net := { net with savedSsid := net.preferences.wifiSsid.getD [], setupKey := net.preferences.setupKey.getD [] }
  let net :=
    if net.setupKey.length < 10 then
      let setupKey := createSetupKey boot.random
      { net with setupKey, preferences := { net.preferences with setupKey := some (cString setupKey) } }
    else net
  let net := { net with apName := apNameOf boot.chipId }
  if !boot.apStarted then (net, false) else (connectSavedNetwork net, true)

def lengthError : Bytes := ascii "SSID or password length is invalid."

def saveWiFi (net : GatewayNetwork) (ssid password : Bytes) : GatewayNetwork × Except Bytes Unit :=
  if ssid.isEmpty || ssid.length > 32 || password.length > 63 then (net, .error lengthError)
  else
    let preferences :=
      { net.preferences with wifiSsid := some (cString ssid), wifiPass := some (cString password) }
    (connectSavedNetwork { net with preferences, savedSsid := ssid }, .ok ())

def forgetWiFi (net : GatewayNetwork) : GatewayNetwork :=
  { net with
    preferences := { net.preferences with wifiSsid := none, wifiPass := none }, savedSsid := [], station := none }

/-! ## Documents -/

/-- What `statusJson` reads; the station's state is read twice. -/
structure StatusReads where
  softAPIP : IPAddress
  connected : Bool
  connectedAgain : Bool
  localIP : IPAddress
  now : Int

def statusJson (net : GatewayNetwork) (reads : StatusReads) : Bytes :=
  let json := ascii "\x7b\"ap\":\x7b\"ssid\":\"" ++ jsonEscape net.apName ++ ascii "\",\"ip\":\""
  let json := json ++ reads.softAPIP.text
  let json := json ++ ascii "\"\x7d,\"station\":\x7b\"connected\":"
  let json := json ++ boolText reads.connected
  let json := json ++ ascii ",\"ssid\":\"" ++ jsonEscape net.savedSsid ++ ascii "\",\"ip\":\""
  let json := json ++ (if reads.connectedAgain then reads.localIP.text else [])
  let json := json ++ ascii "\"\x7d\x7d"
  -- The last brace goes, and comes back behind the time.
  let json := json.dropLast
  let json := json ++ ascii ",\"time\":"
  let json := json ++ timestampText reads.now
  json ++ ascii "\x7d"

/-- What the handler of `/api/status` reads beside it. -/
structure StorageReads where
  available : Bool
  total : Nat
  used : Nat
  remoteSyncEnabled : Bool

/-- The document `/api/status` sends. -/
def apiStatus (net : GatewayNetwork) (reads : StatusReads) (storage : StorageReads) : Bytes :=
  let json := net.statusJson reads
  let json := json.dropLast
  let json := json ++ ascii ",\"storage\":\x7b\"available\":"
  let json := json ++ boolText storage.available
  let json := json ++ ascii ",\"total\":" ++ decimal storage.total
  let json := json ++ ascii ",\"used\":" ++ decimal storage.used
  let json := json ++ ascii "\x7d,\"remoteSyncEnabled\":"
  let json := json ++ boolText storage.remoteSyncEnabled
  json ++ ascii "\x7d"

/-- The loop of `scanJson`; `i` networks have been written. -/
def scanLoop : List ScanResult → (i : Nat) → (json : Bytes) → Bytes
  | [], _, json => json
  | network :: rest, i, json =>
    let json := if i > 0 then json ++ ascii "," else json
    let json := json ++ ascii "\x7b\"ssid\":\"" ++ jsonEscape network.ssid ++ ascii "\",\"rssi\":"
    let json := json ++ signedDecimal network.rssi
    let json := json ++ ascii ",\"secure\":"
    let json := json ++ (if network.encryptionType = WIFI_AUTH_OPEN then ascii "false" else ascii "true")
    scanLoop rest (i + 1) (json ++ ascii "\x7d")

def scanJson : Scan → Bytes
  | .running => ascii "\x7b\"state\":\"scanning\",\"networks\":[]\x7d"
  | .failed => ascii "\x7b\"state\":\"idle\",\"networks\":[]\x7d"
  | .complete networks =>
    scanLoop networks 0 (ascii "\x7b\"state\":\"complete\",\"networks\":[") ++ ascii "]\x7d"

/-! ## Runs -/

/-- What the sketch calls, in any order: `begin` at every boot, the other two on requests. -/
inductive Op where
  | begin (boot : Boot)
  | saveWiFi (ssid password : Bytes)
  | forgetWiFi

def step (net : GatewayNetwork) : Op → GatewayNetwork
  | .begin boot => (net.begin boot).1
  | .saveWiFi ssid password => (net.saveWiFi ssid password).1
  | .forgetWiFi => net.forgetWiFi

/-- The object before its first `begin`, over what NVS holds. -/
def fresh (preferences : Preferences) : GatewayNetwork := { preferences }

end GatewayNetwork

end LiTimeGateway
