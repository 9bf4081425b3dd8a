import LiTimeGateway.Network.GatewayNetwork
import LiTimeGateway.Lib.Runs
/-!
# Network names in the gateway's documents

`jsonEscape` puts a backslash in front of quotes and backslashes. That is enough
for a name without control characters that is valid UTF-8, and for no other: one
such name makes its whole document unreadable.
-/

namespace LiTimeGateway.GatewayNetwork

open Lib.Json Lib.Join Lib.Runs

/-! ## What a reader takes from the documents -/

/-- The name of the saved network in a status document. -/
def stationSsid (document : Bytes) : Option Bytes := do
  let v ← parse document
  let station ← v.get (ascii "station")
  let ssid ← station.get (ascii "ssid")
  ssid.text

/-- The names in a scan document. -/
def networkSsids (document : Bytes) : Option (List Bytes) := do
  let v ← parse document
  let networks ← v.get (ascii "networks")
  let elements ← networks.elements
  allSome (elements.map fun network => (network.get (ascii "ssid")).bind Value.text)

/-- Each document is JSON and gives back the names that went into it. -/
structure ReadsBack (net : GatewayNetwork) (reads : StatusReads) (storage : StorageReads) (scan : Scan) : Prop where
  status : stationSsid (net.statusJson reads) = some net.savedSsid
  apiStatus : stationSsid (net.apiStatus reads storage) = some net.savedSsid
  scan : networkSsids (scanJson scan) = some (scan.networks.map ScanResult.ssid)

/-! ## The status documents -/

theorem isPlainByte_decimal (n : Nat) : ∀ b ∈ decimal n, isPlainByte b = true :=
  fun b hb => isPlainByte_of_isDigit (isDigit_decimal n b hb)

theorem verbatim_ip (ip : IPAddress) : Verbatim ip.text := by
  have hdot : ∀ b ∈ ascii ".", isPlainByte b = true := by decide
  apply verbatim_of_plain
  simp only [IPAddress.text, List.forall_mem_append]
  exact ⟨⟨⟨⟨⟨⟨isPlainByte_decimal _, hdot⟩, isPlainByte_decimal _⟩, hdot⟩, isPlainByte_decimal _⟩, hdot⟩,
    isPlainByte_decimal _⟩

theorem isPlainByte_upperHex (width n : Nat) : ∀ b ∈ upperHex width n, isPlainByte b = true := by
  induction width generalizing n with
  | zero => simp [upperHex]
  | succ width ih =>
    rw [upperHex, List.forall_mem_append]
    refine ⟨ih _, ?_⟩
    have hall : ∀ d < 16, isPlainByte (ch (Nat.digitChar d).toUpper) = true := by decide
    intro b hb
    rw [List.mem_singleton] at hb
    rw [hb]
    exact hall _ (Nat.mod_lt _ (by decide))

theorem verbatim_apNameOf (chipId : UInt64) : Verbatim (apNameOf chipId) := by
  apply verbatim_of_plain
  rw [apNameOf, List.forall_mem_append]
  exact ⟨by decide, isPlainByte_upperHex _ _⟩

def apMembers (net : GatewayNetwork) (reads : StatusReads) : List Member :=
  [⟨ascii "ssid", some (.string net.apName), quoted net.apName⟩,
   ⟨ascii "ip", some (.string reads.softAPIP.text), quoted reads.softAPIP.text⟩]

def stationIp (reads : StatusReads) : Bytes := if reads.connectedAgain then reads.localIP.text else []

def stationMembers (net : GatewayNetwork) (reads : StatusReads) : List Member :=
  [⟨ascii "connected", some (.bool reads.connected), boolText reads.connected⟩,
   ⟨ascii "ssid", if Clean net.savedSsid then some (.string net.savedSsid) else none,
      quoted (escape net.savedSsid)⟩,
   ⟨ascii "ip", some (.string (stationIp reads)), quoted (stationIp reads)⟩]

def statusMembers (net : GatewayNetwork) (reads : StatusReads) : List Member :=
  [Member.ofObject (ascii "ap") (apMembers net reads), Member.ofObject (ascii "station") (stationMembers net reads),
   ⟨ascii "time", some (timestampValue reads.now), timestampText reads.now⟩]

def storageMembers (storage : StorageReads) : List Member :=
  [⟨ascii "available", some (.bool storage.available), boolText storage.available⟩,
   ⟨ascii "total", some (.number (decimal storage.total)), decimal storage.total⟩,
   ⟨ascii "used", some (.number (decimal storage.used)), decimal storage.used⟩]

def apiMembers (net : GatewayNetwork) (reads : StatusReads) (storage : StorageReads) : List Member :=
  statusMembers net reads ++
    [Member.ofObject (ascii "storage") (storageMembers storage),
     ⟨ascii "remoteSyncEnabled", some (.bool storage.remoteSyncEnabled), boolText storage.remoteSyncEnabled⟩]

theorem statusJson_eq {net : GatewayNetwork} (hap : Verbatim net.apName) (reads : StatusReads) :
    net.statusJson reads = Member.objectOf (statusMembers net reads) := by
  unfold statusJson
  have hclose : ascii "\"\x7d\x7d" = ascii "\"\x7d" ++ [125] := rfl
  dsimp only
  rw [hclose, ← List.append_assoc, List.dropLast_concat, jsonEscape_eq, jsonEscape_eq, hap.1]
  simp only [statusMembers, apMembers, stationMembers, Member.ofObject, Member.objectOf, objectText, memberText, quoted, List.map_cons,
    List.map_nil, List.intercalate_cons_cons, List.intercalate_singleton, List.append_assoc, List.cons_append, List.nil_append]
  rfl

theorem apiStatus_eq {net : GatewayNetwork} (hap : Verbatim net.apName) (reads : StatusReads)
    (storage : StorageReads) :
    net.apiStatus reads storage = Member.objectOf (apiMembers net reads storage) := by
  let status := (statusMembers net reads).map fun m => (m.key, m.text)
  let storageText := Member.objectOf (storageMembers storage)
  have hextend : Member.objectOf (apiMembers net reads storage) =
      (objectText status).dropLast ++ 44 :: (memberText (ascii "storage") storageText ++
        44 :: (memberText (ascii "remoteSyncEnabled") (boolText storage.remoteSyncEnabled) ++ [125])) := by
    have hlist : (apiMembers net reads storage).map (fun m => (m.key, m.text)) =
        status ++ [(ascii "storage", storageText)] ++
          [(ascii "remoteSyncEnabled", boolText storage.remoteSyncEnabled)] := by
      simp [apiMembers, status, storageText, Member.ofObject]
    have hne : status ≠ [] := by simp [status, statusMembers]
    rw [Member.objectOf, hlist, objectText_concat (by simp), objectText_concat hne]
    have hregroup : (objectText status).dropLast ++ 44 :: (memberText (ascii "storage") storageText ++ [125]) =
        ((objectText status).dropLast ++ 44 :: memberText (ascii "storage") storageText) ++ [125] := by simp
    rw [hregroup, List.dropLast_concat, List.append_assoc, List.cons_append]
  rw [hextend]
  unfold apiStatus
  rw [statusJson_eq hap]
  simp only [status, storageText, storageMembers, Member.objectOf, objectText, memberText, quoted, List.map_cons, List.map_nil,
    List.intercalate_cons_cons, List.intercalate_singleton, List.append_assoc, List.cons_append, List.nil_append]
  rfl

theorem written_station (net : GatewayNetwork) (reads : StatusReads) :
    ∀ m ∈ stationMembers net reads, m.Written := by
  have hip : Verbatim (stationIp reads) := by
    unfold stationIp
    split
    · exact verbatim_ip _
    · decide
  simp only [stationMembers, List.forall_mem_cons]
  exact ⟨Member.written_mk (by decide) (scans_boolText _), Member.written_mk (by decide) (scans_string _), Member.written_mk (by decide) (scans_verbatim hip), by simp⟩

theorem written_status {net : GatewayNetwork} (hap : Verbatim net.apName) (reads : StatusReads) :
    ∀ m ∈ statusMembers net reads, m.Written := by
  have hapMembers : ∀ m ∈ apMembers net reads, m.Written := by
    simp only [apMembers, List.forall_mem_cons]
    exact ⟨Member.written_mk (by decide) (scans_verbatim hap), Member.written_mk (by decide) (scans_verbatim (verbatim_ip _)), by simp⟩
  simp only [statusMembers, List.forall_mem_cons]
  exact ⟨Member.written_ofObject (by decide) hapMembers,
    Member.written_ofObject (by decide) (written_station net reads), Member.written_mk (by decide) (scans_timestampText _), by simp⟩

theorem written_api {net : GatewayNetwork} (hap : Verbatim net.apName) (reads : StatusReads)
    (storage : StorageReads) : ∀ m ∈ apiMembers net reads storage, m.Written := by
  have hstorage : ∀ m ∈ storageMembers storage, m.Written := by
    simp only [storageMembers, List.forall_mem_cons]
    exact ⟨Member.written_mk (by decide) (scans_boolText _), Member.written_mk (by decide) (scans_decimal _), Member.written_mk (by decide) (scans_decimal _), by simp⟩
  rw [apiMembers, List.forall_mem_append]
  refine ⟨written_status hap reads, ?_⟩
  simp only [List.forall_mem_cons]
  exact ⟨Member.written_ofObject (by decide) hstorage, Member.written_mk (by decide) (scans_boolText _), by simp⟩

/-- The saved name stands in a member that can be read only when it is clean. -/
theorem stationSsid_statusJson {net : GatewayNetwork} (hap : Verbatim net.apName) (reads : StatusReads) :
    stationSsid (net.statusJson reads) = if Clean net.savedSsid then some net.savedSsid else none := by
  rw [stationSsid, statusJson_eq hap, parse_of_scans (scans_object (written_status hap reads))]
  by_cases hc : Clean net.savedSsid
  · simp only [Member.objectValue, statusMembers, stationMembers, hc, if_true]
    rfl
  · simp only [Member.objectValue, statusMembers, stationMembers, hc, if_false]
    rfl

theorem stationSsid_apiStatus {net : GatewayNetwork} (hap : Verbatim net.apName) (reads : StatusReads)
    (storage : StorageReads) :
    stationSsid (net.apiStatus reads storage) = if Clean net.savedSsid then some net.savedSsid else none := by
  rw [stationSsid, apiStatus_eq hap, parse_of_scans (scans_object (written_api hap reads storage))]
  by_cases hc : Clean net.savedSsid
  · simp only [Member.objectValue, apiMembers, statusMembers, stationMembers, hc, if_true]
    rfl
  · simp only [Member.objectValue, apiMembers, statusMembers, stationMembers, hc, if_false]
    rfl

/-! ## The scan document -/

def networkMembers (network : ScanResult) : List Member :=
  [⟨ascii "ssid", if Clean network.ssid then some (.string network.ssid) else none, quoted (escape network.ssid)⟩,
   ⟨ascii "rssi", some (.number (signedDecimal network.rssi)), signedDecimal network.rssi⟩,
   ⟨ascii "secure", some (.bool (network.encryptionType ≠ WIFI_AUTH_OPEN)),
      boolText (network.encryptionType ≠ WIFI_AUTH_OPEN)⟩]

theorem written_network (network : ScanResult) : ∀ m ∈ networkMembers network, m.Written := by
  simp only [networkMembers, List.forall_mem_cons]
  exact ⟨Member.written_mk (by decide) (scans_string _), Member.written_mk (by decide) (scans_number (isNumber_signedDecimal _)),
    Member.written_mk (by decide) (scans_boolText _), by simp⟩

/-- What one pass of the loop writes behind the comma. -/
theorem networkText_eq (network : ScanResult) :
    ascii "\x7b\"ssid\":\"" ++ jsonEscape network.ssid ++ ascii "\",\"rssi\":" ++ signedDecimal network.rssi ++
        ascii ",\"secure\":" ++
        (if network.encryptionType = WIFI_AUTH_OPEN then ascii "false" else ascii "true") ++ ascii "\x7d" =
      Member.objectOf (networkMembers network) := by
  have hsecure : (if network.encryptionType = WIFI_AUTH_OPEN then ascii "false" else ascii "true") =
      boolText (network.encryptionType ≠ WIFI_AUTH_OPEN) := by
    by_cases h : network.encryptionType = WIFI_AUTH_OPEN <;> simp [boolText, h]
  rw [hsecure, jsonEscape_eq]
  simp only [networkMembers, Member.objectOf, objectText, memberText, quoted, List.map_cons, List.map_nil,
    List.intercalate_cons_cons, List.intercalate_singleton, List.append_assoc, List.cons_append, List.nil_append]
  rfl

/-- The loop behind the networks in `written`. -/
theorem scanLoop_eq (start : Bytes) (networks written : List ScanResult) :
    scanLoop networks written.length
        (start ++ (ascii ",").intercalate (written.map fun n => Member.objectOf (networkMembers n))) =
      start ++ (ascii ",").intercalate ((written ++ networks).map fun n => Member.objectOf (networkMembers n)) := by
  induction networks generalizing written with
  | nil => simp [scanLoop]
  | cons network networks ih =>
    have hnext := ih (written ++ [network])
    rw [List.length_append, List.length_singleton, List.append_assoc, List.singleton_append] at hnext
    have hcount : 0 < written.length ↔ written.map (fun n => Member.objectOf (networkMembers n)) ≠ [] := by
      rw [List.length_pos_iff, ne_eq, ne_eq, List.map_eq_nil_iff]
    rw [← hnext, List.map_append, List.map_singleton, ← append_separated (ascii ",") start hcount, ← networkText_eq,
      scanLoop]
    simp only [List.append_assoc]

def networkItem (network : ScanResult) : Option Value × List UInt8 :=
  (Member.objectValue (networkMembers network), Member.objectOf (networkMembers network))

/-- The members of a scan document that lists these networks. -/
def scanMembers (state : Bytes) (networks : List ScanResult) : List Member :=
  [⟨ascii "state", some (.string state), quoted state⟩,
   ⟨ascii "networks", (allSome ((networks.map networkItem).map (·.1))).map .array,
      arrayText ((networks.map networkItem).map (·.2))⟩]

def scanState : Scan → Bytes
  | .running => ascii "scanning"
  | .failed => ascii "idle"
  | .complete _ => ascii "complete"

theorem scanJson_eq (scan : Scan) : scanJson scan = Member.objectOf (scanMembers (scanState scan) scan.networks) := by
  cases scan with
  | running => rfl
  | failed => rfl
  | complete networks =>
    have hloop := scanLoop_eq (ascii "\x7b\"state\":\"complete\",\"networks\":[") networks []
    rw [List.map_nil, List.intercalate_nil, List.append_nil, List.length_nil, List.nil_append] at hloop
    rw [scanJson, hloop]
    simp only [scanMembers, Scan.networks, networkItem, Member.objectOf, objectText, memberText, arrayText, quoted,
      List.map_cons, List.map_nil, List.map_map, Function.comp_def, List.intercalate_cons_cons, List.intercalate_singleton,
      List.append_assoc, List.cons_append, List.nil_append]
    rfl

theorem written_scan (state : Bytes) (hstate : Verbatim state) (networks : List ScanResult) :
    ∀ m ∈ scanMembers state networks, m.Written := by
  have hitems : ∀ i ∈ networks.map networkItem, Scans i.1 i.2 := by
    intro i hi
    obtain ⟨network, -, rfl⟩ := List.mem_map.1 hi
    exact scans_object (written_network network)
  have hfirst : ∀ i ∈ (networks.map networkItem).head?, Solid i.2 := by
    intro i hi
    obtain ⟨network, -, rfl⟩ := List.mem_map.1 (List.mem_of_mem_head? hi)
    exact solid_object _
  simp only [scanMembers, List.forall_mem_cons]
  exact ⟨Member.written_mk (by decide) (scans_verbatim hstate),
    Member.written_mk (by decide) (scans_array hitems hfirst), by simp⟩

def networkValue (network : ScanResult) : Value :=
  .object [(ascii "ssid", .string network.ssid), (ascii "rssi", .number (signedDecimal network.rssi)),
    (ascii "secure", .bool (network.encryptionType ≠ WIFI_AUTH_OPEN))]

theorem networkItem_read (network : ScanResult) :
    (networkItem network).1 = if Clean network.ssid then some (networkValue network) else none := by
  by_cases hc : Clean network.ssid
  · simp only [networkItem, Member.objectValue, networkMembers, hc, if_true]
    rfl
  · simp only [networkItem, Member.objectValue, networkMembers, hc, if_false]
    rfl

/-- The names come back when every one of them is clean; one that is not takes the document with it. -/
theorem networkSsids_scanJson (scan : Scan) : networkSsids (scanJson scan) =
    if ∀ n ∈ scan.networks, Clean n.ssid then some (scan.networks.map ScanResult.ssid) else none := by
  have hstate : Verbatim (scanState scan) := by
    cases scan with
    | running => decide
    | failed => decide
    | complete networks => exact (by decide : Verbatim (ascii "complete"))
  have hitems : allSome ((scan.networks.map networkItem).map (·.1)) =
      if ∀ n ∈ scan.networks, Clean n.ssid then some (scan.networks.map networkValue) else none := by
    rw [List.map_map, ← allSome_map_ite]
    exact congrArg allSome (List.map_congr_left fun n _ => networkItem_read n)
  rw [networkSsids, scanJson_eq, parse_of_scans (scans_object (written_scan (scanState scan) hstate scan.networks)),
    Member.objectValue, scanMembers, hitems]
  by_cases hc : ∀ n ∈ scan.networks, Clean n.ssid
  · rw [if_pos hc, if_pos hc]
    have hnames : allSome ((scan.networks.map networkValue).map
        fun network => (network.get (ascii "ssid")).bind Value.text) = some (scan.networks.map ScanResult.ssid) := by
      rw [allSome_eq_some, List.map_map, List.map_map]
      exact List.map_congr_left fun n _ => rfl
    exact hnames
  · rw [if_neg hc, if_neg hc]
    rfl

/-! ## Every run -/

theorem connectSavedNetwork_apName (net : GatewayNetwork) : net.connectSavedNetwork.apName = net.apName := by
  unfold connectSavedNetwork
  split <;> rfl

theorem begin_apName (net : GatewayNetwork) (boot : Boot) : (net.begin boot).1.apName = apNameOf boot.chipId := by
  unfold begin
  dsimp only
  split
  · rfl
  · exact connectSavedNetwork_apName _

/-- The access point's name is the generated one, or still empty. -/
theorem apName_verbatim (preferences : Preferences) (ops : List Op) :
    Verbatim (run step (fresh preferences) ops).apName := by
  have hfresh : Verbatim (fresh preferences).apName := (by decide : Verbatim [])
  refine run_inv (I := fun net : GatewayNetwork => Verbatim net.apName) (C := fun _ _ => True) ?_ hfresh
    (along_true (fun _ _ => trivial) _ ops)
  intro net op h _
  cases op with
  | begin boot =>
    rw [step, begin_apName]
    exact verbatim_apNameOf boot.chipId
  | saveWiFi ssid password =>
    rw [step, saveWiFi]
    split
    · exact h
    · rw [connectSavedNetwork_apName]
      exact h
  | forgetWiFi => exact h

/-- Whatever was saved, started and found: the documents give the names back
exactly when the saved name and the names found are valid UTF-8 without control
characters. -/
theorem documents_read_back_iff (preferences : Preferences) (ops : List Op) (reads : StatusReads)
    (storage : StorageReads) (scan : Scan) :
    ReadsBack (run step (fresh preferences) ops) reads storage scan ↔
      Clean (run step (fresh preferences) ops).savedSsid ∧ ∀ n ∈ scan.networks, Clean n.ssid := by
  have hap := apName_verbatim preferences ops
  constructor
  · intro h
    have hstatus := h.status
    have hscan := h.scan
    rw [stationSsid_statusJson hap] at hstatus
    rw [networkSsids_scanJson] at hscan
    constructor
    · by_contra hc
      rw [if_neg hc] at hstatus
      cases hstatus
    · by_contra hc
      rw [if_neg hc] at hscan
      cases hscan
  · rintro ⟨hsaved, hscan⟩
    refine ⟨?_, ?_, ?_⟩
    · rw [stationSsid_statusJson hap, if_pos hsaved]
    · rw [stationSsid_apiStatus hap, if_pos hsaved]
    · rw [networkSsids_scanJson, if_pos hscan]

/-- A request with `"ssid":"a\nb"` is accepted, and the status document is no longer JSON. -/
theorem newline_name_breaks_status :
    ((fresh {}).saveWiFi (ascii "a\nb") (ascii "password")).2 = .ok () ∧ isUtf8 (ascii "a\nb") = true ∧
      parse ((run step (fresh {}) [.saveWiFi (ascii "a\nb") (ascii "password")]).statusJson
        ⟨⟨192, 168, 4, 1⟩, true, true, ⟨192, 168, 1, 20⟩, 1750000000⟩) = none := by
  refine ⟨rfl, by decide, ?_⟩
  have hap := apName_verbatim {} [.saveWiFi (ascii "a\nb") (ascii "password")]
  rw [statusJson_eq hap, parse_of_scans (scans_object (written_status hap _))]
  have hc : ¬ Clean (run step (fresh {}) [.saveWiFi (ascii "a\nb") (ascii "password")]).savedSsid :=
    (by decide : ¬ Clean (ascii "a\nb"))
  simp only [Member.objectValue, statusMembers, stationMembers, hc, if_false]
  rfl

end LiTimeGateway.GatewayNetwork
