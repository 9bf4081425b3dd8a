import LiTimeGateway.Ble.AdvertisementFields
import LiTimeGateway.Ble.BatteryLoop
import LiTimeGateway.Lib.Registry
import Mathlib.Data.List.Nodup
/-!
# Scanning for batteries

While a scan runs, NimBLE keeps one device for each address it hears, with what
it advertises and answers. `LiTimeScanner::scan` then takes the devices that
list the service of the batteries or have a name like theirs, and the firmware
connects to the first of them.
-/

namespace LiTimeGateway

open Lib

/-! ## Addresses -/

/-- `val` has the last byte of the address first. -/
structure NimBLEAddress where
  type : UInt8
  val : Bytes
  length_eq : val.length = 6
  deriving DecidableEq

def NimBLEAddress.toString (a : NimBLEAddress) : Bytes := List.intercalate (ascii ":") (a.val.reverse.map hexByte)

theorem hexDigit_digitChar (n : Fin 16) :
    hexDigit (ch (Nat.digitChar n)) = some n.val ∧ ch (Nat.digitChar n) ≠ ch ':' := by
  revert n
  decide

theorem hexByte_digits (b : UInt8) :
    (hexByte b).map hexDigit = [some (b.toNat / 16), some (b.toNat % 16)] ∧ ch ':' ∉ hexByte b := by
  have hbyte := b.toNat_lt
  obtain ⟨hhi, hhi'⟩ := hexDigit_digitChar ⟨b.toNat / 16, by omega⟩
  obtain ⟨hlo, hlo'⟩ := hexDigit_digitChar ⟨b.toNat % 16, by omega⟩
  rw [hexByte, List.map_cons, List.map_cons, hhi, hlo]
  exact ⟨rfl, by simpa using ⟨hhi'.symm, hlo'.symm⟩⟩

theorem filter_intercalate (bytes : Bytes) :
    (List.intercalate (ascii ":") (bytes.map hexByte)).filter (· ≠ ch ':') = bytes.flatMap hexByte := by
  have hkeep (b : UInt8) : (hexByte b).filter (· ≠ ch ':') = hexByte b := by
    refine List.filter_eq_self.2 fun c hc => ?_
    have hne : c ≠ ch ':' := fun h => (hexByte_digits b).2 (h ▸ hc)
    exact decide_eq_true hne
  induction bytes with
  | nil => rfl
  | cons b bytes ih =>
    cases bytes with
    | nil => simpa [List.intercalate] using hkeep b
    | cons c bytes =>
      have hcolon : (ascii ":").filter (· ≠ ch ':') = [] := by decide
      rw [List.map_cons, List.map_cons, List.intercalate_cons_cons, List.filter_append, List.filter_append, hkeep,
        hcolon, ← List.map_cons, ih]
      rfl

/-- The digits of the bytes are read as one number. -/
theorem foldl_hexDigits (bytes : Bytes) (value : Nat) :
    (((bytes.flatMap hexByte).map hexDigit).takeWhile Option.isSome).foldl
        (fun value digit => 16 * value + digit.getD 0) value =
      bytes.foldl (fun value b => 256 * value + b.toNat) value := by
  induction bytes generalizing value with
  | nil => rfl
  | cons b bytes ih =>
    rw [List.flatMap_cons, List.map_append, (hexByte_digits b).1, List.foldl_cons, ← ih]
    simp only [List.cons_append, List.nil_append, List.takeWhile_cons, Option.isSome_some, if_true, List.foldl_cons,
      Option.getD_some]
    congr 1
    omega

theorem length_toString (a : NimBLEAddress) : a.toString.length = 17 := by
  obtain ⟨type, val, hlength⟩ := a
  match val, hlength with
  | [_, _, _, _, _, _], _ => rfl

/-- The text of an address is read back as the address. -/
theorem addressBytes_toString (a : NimBLEAddress) : addressBytes a.toString = a.val.reverse := by
  have hlength := length_toString a
  rw [addressBytes, if_neg (by rw [hlength]; decide), if_pos hlength, NimBLEAddress.toString, filter_intercalate]
  dsimp only
  rw [foldl_hexDigits]
  obtain ⟨type, val, hval⟩ := a
  match val, hval with
  | [b₀, b₁, b₂, b₃, b₄, b₅], _ =>
    have h₀ := b₀.toNat_lt
    have h₁ := b₁.toNat_lt
    have h₂ := b₂.toNat_lt
    have h₃ := b₃.toNat_lt
    have h₄ := b₄.toNat_lt
    have h₅ := b₅.toNat_lt
    rw [show (List.range 6).reverse = [5, 4, 3, 2, 1, 0] from rfl]
    simp only [List.reverse_cons, List.reverse_nil, List.nil_append, List.cons_append, List.foldl_cons, List.foldl_nil,
      List.map_cons, List.map_nil, List.cons.injEq, and_true, ← UInt8.toNat_inj, UInt8.toNat_ofNat']
    omega

/-! ## The devices that are heard -/

def BLE_HCI_ADV_RPT_EVTYPE_SCAN_RSP : UInt8 := 4

/-- A report of the controller, and NimBLE's state when it comes: a scan is
running, and a client's link to this address is up. -/
structure Report where
  eventType : UInt8
  addr : NimBLEAddress
  rssi : Int8
  data : Bytes
  scanning : Bool := true
  connected : Bool := false

def Report.isResponse (e : Report) : Bool := e.eventType == BLE_HCI_ADV_RPT_EVTYPE_SCAN_RSP

structure NimBLEAdvertisedDevice where
  address : NimBLEAddress
  rssi : Int8
  payload : Bytes

namespace NimBLEAdvertisedDevice

def ofReport (e : Report) : NimBLEAdvertisedDevice := ⟨e.addr, e.rssi, e.data⟩

/-- What a response says is added to the payload; anything else replaces it. -/
def update (d : NimBLEAdvertisedDevice) (e : Report) : NimBLEAdvertisedDevice :=
  if e.isResponse then { d with rssi := e.rssi, payload := d.payload ++ e.data }
  else { d with rssi := e.rssi, payload := e.data }

end NimBLEAdvertisedDevice

namespace NimBLEScan

/-- The list of results, which the firmware leaves without a limit. -/
def results : Registry NimBLEAddress NimBLEAdvertisedDevice Report where
  keyOf := NimBLEAdvertisedDevice.address
  key := Report.addr
  new := NimBLEAdvertisedDevice.ofReport
  update := NimBLEAdvertisedDevice.update
  keyOf_new _ := rfl
  keyOf_update d e := by
    rw [NimBLEAdvertisedDevice.update]
    split <;> rfl

def handleGapEvent (devices : List NimBLEAdvertisedDevice) (e : Report) : List NimBLEAdvertisedDevice :=
  if !e.scanning then devices
  else if e.connected then devices
  else results.enter devices e

/-- `getResults`: the list starts empty. -/
def getResults (reports : List Report) : List NimBLEAdvertisedDevice := Runs.run handleGapEvent [] reports

end NimBLEScan

/-! ## Batteries among them -/

/-- 0000ffe0-0000-1000-8000-00805f9b34fb -/
def LITIME_SERVICE_UUID : NimBLEAdvertisedDevice.NimBLEUUID :=
  [0xfb, 0x34, 0x9b, 0x5f, 0x80, 0x00, 0x00, 0x80, 0x00, 0x10, 0x00, 0x00, 0xe0, 0xff, 0x00, 0x00]

structure DiscoveredBattery where
  name : Bytes
  macAddress : Bytes
  addressType : UInt8
  rssi : ℤ
  deriving DecidableEq

namespace LiTimeScanner

def nameMatch (name : Bytes) : Bool :=
  (ascii "L-").isPrefixOf name || (ascii "LT-").isPrefixOf name || (Search.indexOf (ascii "LiTime") name).isSome

/-- The device is one of the batteries, or is left out. -/
def discovered (device : NimBLEAdvertisedDevice) : Option (Option DiscoveredBattery) := do
  let hasService ← NimBLEAdvertisedDevice.haveServiceUUID device.payload
  let serviceMatch ←
    if hasService then NimBLEAdvertisedDevice.isAdvertisingService device.payload LITIME_SERVICE_UUID else some false
  let hasName ← NimBLEAdvertisedDevice.haveName device.payload
  let name ← if hasName then (NimBLEAdvertisedDevice.getName device.payload).map cString else some []
  if !serviceMatch && !nameMatch name then some none
  else some (some ⟨name, device.address.toString, device.address.type, device.rssi.toInt⟩)

/-- The loop of `scan`. -/
def scanLoop : List NimBLEAdvertisedDevice → Option (List DiscoveredBattery)
  | [] => some []
  | device :: devices => do
    let battery ← discovered device
    let batteries ← scanLoop devices
    return battery.toList ++ batteries

/-- `scan`, with what comes while it runs; `none` when it reads outside of a payload. -/
def scan (reports : List Report) : Option (List DiscoveredBattery) := scanLoop (NimBLEScan.getResults reports)

end LiTimeScanner

/-! ## What a device has said -/

namespace NimBLEScan

def heard (reports : List Report) : List Report := reports.filter fun e => e.scanning && !e.connected

def heardFrom (a : NimBLEAddress) (reports : List Report) : List Report :=
  (heard reports).filter fun e => e.addr = a

/-- The last advertisement, and the responses after it. -/
def said (reports : List Report) : Bytes :=
  reports.foldl (fun payload e => if e.isResponse then payload ++ e.data else e.data) []

theorem getResults_eq (reports : List Report) :
    getResults reports = Runs.run results.enter [] (heard reports) := by
  rw [getResults]
  generalize ([] : List NimBLEAdvertisedDevice) = devices
  induction reports generalizing devices with
  | nil => rfl
  | cons e reports ih =>
    rw [Runs.run_cons, ih, handleGapEvent, heard, heard, List.filter_cons]
    cases e.scanning <;> cases e.connected <;> rfl

/-- The devices stand in the order in which they were first heard. -/
theorem address_getResults (reports : List Report) :
    (getResults reports).map NimBLEAdvertisedDevice.address = ((heard reports).map Report.addr).eraseDups := by
  rw [getResults_eq]
  exact Registry.keys_run (R := results) _

theorem record_eq {a : NimBLEAddress} {reports : List Report} (h : ∀ e ∈ reports, e.addr = a) :
    results.record reports = reports.getLast?.map fun last => ⟨a, last.rssi, said reports⟩ := by
  induction reports using List.reverseRecOn with
  | nil => rfl
  | append_singleton reports e ih =>
    have hpast := ih fun e he => h e (List.mem_append_left _ he)
    have hsaid : said (reports ++ [e]) = if e.isResponse then said reports ++ e.data else e.data := by
      rw [said, List.foldl_append]
      rfl
    rw [Registry.record_concat, hpast, List.getLast?_concat, Option.map_some, hsaid]
    cases hlast : reports.getLast? with
    | none =>
      rw [List.getLast?_eq_none_iff.1 hlast, said, List.foldl_nil, List.nil_append, ite_self]
      exact congrArg some (congrArg (NimBLEAdvertisedDevice.mk · e.rssi e.data) (h e (List.mem_concat_self)))
    | some last =>
      cases hresponse : e.isResponse <;> simp [Registry.next, results, NimBLEAdvertisedDevice.update, hresponse]

/-- However the reports interleave, a device is what the reports from its address say. -/
theorem mem_getResults {reports : List Report} {d : NimBLEAdvertisedDevice} :
    d ∈ getResults reports ↔ ∃ last, (heardFrom d.address reports).getLast? = some last ∧
      d.rssi = last.rssi ∧ d.payload = said (heardFrom d.address reports) := by
  have hfrom : ∀ e ∈ heardFrom d.address reports, e.addr = d.address :=
    fun _ he => of_decide_eq_true (List.mem_filter.1 he).2
  have hmem := Registry.mem_run (R := results) (heard reports) d
  rw [← getResults_eq] at hmem
  change _ ↔ results.record (heardFrom d.address reports) = some d at hmem
  rw [hmem, record_eq hfrom, Option.map_eq_some_iff]
  obtain ⟨address, rssi, payload⟩ := d
  simp only [NimBLEAdvertisedDevice.mk.injEq, true_and]
  exact ⟨fun ⟨last, hlast, hrssi, hpayload⟩ => ⟨last, hlast, hrssi.symm, hpayload.symm⟩,
    fun ⟨last, hlast, hrssi, hpayload⟩ => ⟨last, hlast, hrssi.symm, hpayload.symm⟩⟩

end NimBLEScan

/-! ## What is taken for a battery -/

namespace LiTimeScanner

open NimBLEAdvertisedDevice

def batteryName (ads : List (UInt8 × Bytes)) : Bytes := cString ((advertisedName ads).getD [])

/-- These fields make a device a battery. -/
def announcesBattery (ads : List (UInt8 × Bytes)) : Bool :=
  listsService ads LITIME_SERVICE_UUID || nameMatch (batteryName ads)

/-- What `discovered` goes by. -/
theorem discovered_eq {device : NimBLEAdvertisedDevice} {serviceMatch hasName : Bool} {name : Bytes}
    (hservice : isAdvertisingService device.payload LITIME_SERVICE_UUID = some serviceMatch)
    (hname : haveName device.payload = some hasName) (hread : getName device.payload = some name) :
    discovered device =
      let shown := if hasName then cString name else []
      some (if serviceMatch || nameMatch shown then
        some ⟨shown, device.address.toString, device.address.type, device.rssi.toInt⟩ else none) := by
  obtain ⟨hasService, hhave, hskip⟩ : ∃ hasService, haveServiceUUID device.payload = some hasService ∧
      (if hasService then isAdvertisingService device.payload LITIME_SERVICE_UUID else some false) =
        some serviceMatch := by
    rw [hservice]
    rw [isAdvertisingService_eq] at hservice
    rw [haveServiceUUID, getServiceUUIDCount_eq]
    generalize UInt8.ofNat (entriesOf serviceTypes (Lib.Tlv.fields device.payload)) = count at hservice
    refine ⟨decide (count > 0), rfl, ?_⟩
    by_cases hcount : count > 0
    · exact if_pos (decide_eq_true hcount)
    · have hzero : count.toNat = 0 := Nat.le_zero.1 (UInt8.not_lt.1 hcount)
      rw [if_neg (mt of_decide_eq_true hcount), ← hservice, hzero]
      rfl
  have hchoose (shown : Bytes) (b : DiscoveredBattery) :
      (if !serviceMatch && !nameMatch shown then some none else some (some b)) =
        some (if serviceMatch || nameMatch shown then some b else none) := by
    cases serviceMatch <;> cases nameMatch shown <;> rfl
  rw [discovered, hhave]
  cases hasService with
  | true =>
    simp only [Option.bind_eq_bind, Option.bind_some, if_true, hservice, hname, hread, Option.map_some, hchoose]
    cases hasName <;> rfl
  | false =>
    obtain rfl : false = serviceMatch := Option.some.inj hskip
    simp only [Option.bind_eq_bind, Option.bind_some, Bool.false_eq_true, if_false, hname, hread, Option.map_some,
      hchoose]
    cases hasName <;> rfl

/-- What the list says of a device, and why the device is in the list. -/
structure Announces (device : NimBLEAdvertisedDevice) (b : DiscoveredBattery) : Prop where
  macAddress_eq : b.macAddress = device.address.toString
  addressType_eq : b.addressType = device.address.type
  rssi_eq : b.rssi = device.rssi.toInt
  named : b.name = [] ∨
    ∃ ad ∈ advertised device.payload, answers BLE_HS_ADV_TYPE_COMP_NAME ad.1 ∧ b.name = cString ad.2
  announced : listsService (advertised device.payload) LITIME_SERVICE_UUID ∨ nameMatch b.name

theorem discovered_cases (device : NimBLEAdvertisedDevice) :
    ∃ found, discovered device = some found ∧ ∀ b, found = some b → Announces device b := by
  obtain ⟨name, hread, hfield⟩ := getName_cases device.payload
  have hname : ∃ hasName, haveName device.payload = some hasName := by
    rw [haveName, findAdvField_eq]
    exact ⟨_, rfl⟩
  obtain ⟨hasName, hname⟩ := hname
  have hservice := isAdvertisingService_eq device.payload LITIME_SERVICE_UUID
  refine ⟨_, discovered_eq hservice hname hread, fun b hb => ?_⟩
  obtain ⟨hmatch, hb⟩ := Option.ite_none_right_eq_some.1 hb
  obtain rfl := Option.some.inj hb
  refine ⟨rfl, rfl, rfl, ?_, ?_⟩
  · cases hasName with
    | false => exact .inl rfl
    | true =>
      rcases hfield with rfl | ⟨ad, had, hanswers, rfl⟩
      · exact .inl rfl
      · exact .inr ⟨ad, had, hanswers, rfl⟩
  · rcases Bool.or_eq_true_iff.1 hmatch with hlisted | hnamed
    · exact .inl (lists_of_advertising (hservice.trans (congrArg some hlisted)))
    · exact .inr hnamed

/-- A short payload, without two lists of one kind, is judged by its fields. -/
theorem discovered_of_short {device : NimBLEAdvertisedDevice} (hshort : device.payload.length < 256)
    (hone : OneOfEachList (advertised device.payload)) :
    discovered device = some (if announcesBattery (advertised device.payload) then
      some ⟨batteryName (advertised device.payload), device.address.toString, device.address.type, device.rssi.toInt⟩
      else none) := by
  obtain ⟨hname, hread⟩ := getName_eq hshort
  have hservice : isAdvertisingService device.payload LITIME_SERVICE_UUID =
      some (listsService (advertised device.payload) LITIME_SERVICE_UUID) := by
    cases hlists : listsService (advertised device.payload) LITIME_SERVICE_UUID with
    | true => exact advertising_of_lists hshort hone hlists
    | false =>
      rw [isAdvertisingService_eq, Option.some_inj, Bool.eq_false_iff]
      intro hfound
      have := lists_of_advertising ((isAdvertisingService_eq _ _).trans (congrArg some hfound))
      rw [hlists] at this
      cases this
  rw [discovered_eq hservice hname hread]
  have hshown : (if (advertisedName (advertised device.payload)).isSome then
      cString ((advertisedName (advertised device.payload)).getD []) else []) =
      batteryName (advertised device.payload) := by
    rw [batteryName]
    cases advertisedName (advertised device.payload) <;> rfl
  rw [announcesBattery, ← hshown]

/-! ## The list -/

/-- What tells two batteries of the list apart. -/
def identity (b : DiscoveredBattery) : Bytes × UInt8 := (b.macAddress, b.addressType)

def shown (a : NimBLEAddress) : Bytes × UInt8 := (a.toString, a.type)

theorem shown_inj {a b : NimBLEAddress} (h : shown a = shown b) : a = b := by
  obtain ⟨htext, htype⟩ := Prod.mk.inj h
  have hval : a.val = b.val := by
    rw [← List.reverse_inj, ← addressBytes_toString, ← addressBytes_toString, htext]
  cases a
  cases b
  congr

/-- The battery that a device is, if it is one. -/
def batteryOf (device : NimBLEAdvertisedDevice) : Option DiscoveredBattery := (discovered device).getD none

theorem discovered_batteryOf (device : NimBLEAdvertisedDevice) : discovered device = some (batteryOf device) := by
  obtain ⟨found, hfound, -⟩ := discovered_cases device
  rw [batteryOf, hfound]
  rfl

theorem announces_of_batteryOf {device : NimBLEAdvertisedDevice} {b : DiscoveredBattery}
    (h : batteryOf device = some b) : Announces device b := by
  obtain ⟨found, hfound, hannounces⟩ := discovered_cases device
  rw [batteryOf, hfound] at h
  exact hannounces b h

theorem scan_eq (reports : List Report) : scan reports = some ((NimBLEScan.getResults reports).filterMap batteryOf) := by
  rw [scan]
  induction NimBLEScan.getResults reports with
  | nil => rfl
  | cons device devices ih =>
    rw [scanLoop, discovered_batteryOf, ih, Option.bind_eq_bind, Option.bind_some, Option.bind_eq_bind,
      Option.bind_some, List.filterMap_cons]
    cases batteryOf device <;> rfl

theorem identity_sublist (devices : List NimBLEAdvertisedDevice) :
    ((devices.filterMap batteryOf).map identity).Sublist (devices.map fun device => shown device.address) := by
  induction devices with
  | nil => exact List.Sublist.slnil
  | cons device devices ih =>
    rw [List.filterMap_cons, List.map_cons]
    cases hb : batteryOf device with
    | none => exact ih.cons _
    | some b =>
      have hb := announces_of_batteryOf hb
      have hsame : identity b = shown device.address := by rw [identity, shown, hb.macAddress_eq, hb.addressType_eq]
      rw [List.map_cons, hsame]
      exact ih.cons_cons _

/-- What is listed was heard. -/
theorem listed_heard {reports : List Report} {b : DiscoveredBattery}
    (h : b ∈ (NimBLEScan.getResults reports).filterMap batteryOf) :
    ∃ a last, (NimBLEScan.heardFrom a reports).getLast? = some last ∧
      addressBytes b.macAddress = a.val.reverse ∧
      Announces ⟨a, last.rssi, NimBLEScan.said (NimBLEScan.heardFrom a reports)⟩ b := by
  obtain ⟨⟨a, rssi, payload⟩, hdevice, hb⟩ := List.mem_filterMap.1 h
  obtain ⟨last, hlast, hrssi, hpayload⟩ := NimBLEScan.mem_getResults.1 hdevice
  dsimp only at hlast hrssi hpayload
  subst hrssi hpayload
  have hannounces := announces_of_batteryOf hb
  exact ⟨a, last, hlast, by rw [hannounces.macAddress_eq, addressBytes_toString], hannounces⟩

/-- Whatever is received, a scan reads within the payloads. It lists devices that
it heard, each once, in the order in which they were first heard, and only those
whose own reports announce a battery. -/
theorem scan_lists_heard (reports : List Report) :
    ∃ batteries, scan reports = some batteries ∧
      (batteries.map identity).Sublist (((NimBLEScan.heard reports).map Report.addr).eraseDups.map shown) ∧
      (batteries.map identity).Nodup ∧
      ∀ b ∈ batteries, ∃ a last, (NimBLEScan.heardFrom a reports).getLast? = some last ∧
        addressBytes b.macAddress = a.val.reverse ∧
        Announces ⟨a, last.rssi, NimBLEScan.said (NimBLEScan.heardFrom a reports)⟩ b := by
  have horder := identity_sublist (NimBLEScan.getResults reports)
  have haddresses : ((NimBLEScan.getResults reports).map fun device => shown device.address) =
      ((NimBLEScan.heard reports).map Report.addr).eraseDups.map shown := by
    rw [← NimBLEScan.address_getResults, List.map_map]
    rfl
  rw [haddresses] at horder
  refine ⟨_, scan_eq reports, horder, horder.nodup ?_, fun b hb => listed_heard hb⟩
  exact (Registry.nodup_eraseDups _).map fun a b => shown_inj

theorem said_append {before responses : List Report} {adv : Report} (hadv : adv.isResponse = false)
    (hresponses : ∀ e ∈ responses, e.isResponse = true) :
    NimBLEScan.said (before ++ adv :: responses) = adv.data ++ responses.flatMap Report.data := by
  rw [NimBLEScan.said, List.foldl_append, List.foldl_cons, hadv]
  generalize adv.data = payload
  induction responses generalizing payload with
  | nil => exact (List.append_nil _).symm
  | cons e responses ih =>
    obtain ⟨he, hrest⟩ := List.forall_mem_cons.1 hresponses
    rw [List.foldl_cons, he, List.flatMap_cons, ← List.append_assoc]
    exact ih hrest _

/-- A device whose last advertisement and the responses to it hold the fields
`ads`, none of them without a value, is listed when the fields announce a battery,
whatever else is heard and in whatever order; the entry says what the fields say. -/
theorem batteries_are_listed {reports before responses : List Report} {a : NimBLEAddress} {adv : Report}
    {ads : List (UInt8 × Bytes)} (hfrom : NimBLEScan.heardFrom a reports = before ++ adv :: responses)
    (hadv : adv.isResponse = false) (hresponses : ∀ e ∈ responses, e.isResponse = true)
    (hdata : adv.data ++ responses.flatMap Report.data = Tlv.encode ads) (hads : ∀ ad ∈ ads, ad.2 ≠ [])
    (hshort : (Tlv.encode ads).length < 256) (hone : OneOfEachList ads) :
    ∃ batteries, scan reports = some batteries ∧
      ∀ b, identity b = shown a → (b ∈ batteries ↔ announcesBattery ads = true ∧
        b = ⟨batteryName ads, a.toString, a.type, (responses.getLastD adv).rssi.toInt⟩) := by
  have hsaid : NimBLEScan.said (before ++ adv :: responses) = _ := said_append hadv hresponses
  rw [← hfrom, hdata] at hsaid
  have hlast : (NimBLEScan.heardFrom a reports).getLast? = some (responses.getLastD adv) := by
    rw [hfrom, List.getLast?_append_of_ne_nil _ (List.cons_ne_nil _ _), List.getLast?_cons, List.getLastD_eq_getLast?]
  have hadvertised : advertised (Tlv.encode ads) = ads :=
    Tlv.fields_encode fun ad had => ⟨hads ad had, by have := Tlv.length_le_encode had; omega⟩
  -- The one device of this address.
  have hdevice (device : NimBLEAdvertisedDevice) (haddress : device.address = a) :
      device ∈ NimBLEScan.getResults reports ↔ device = ⟨a, (responses.getLastD adv).rssi, Tlv.encode ads⟩ := by
    obtain ⟨address, rssi, payload⟩ := device
    dsimp only at haddress
    subst haddress
    rw [NimBLEScan.mem_getResults]
    simp only [hlast, hsaid, Option.some.injEq, exists_eq_left', NimBLEAdvertisedDevice.mk.injEq, true_and]
  have hbattery := @discovered_of_short ⟨a, (responses.getLastD adv).rssi, Tlv.encode ads⟩ hshort
    (by rw [hadvertised]; exact hone)
  rw [discovered_batteryOf, Option.some_inj] at hbattery
  dsimp only at hbattery
  rw [hadvertised] at hbattery
  refine ⟨_, scan_eq reports, fun b hb => ?_⟩
  rw [List.mem_filterMap]
  constructor
  · rintro ⟨device, hmem, hof⟩
    have hannounces := announces_of_batteryOf hof
    have haddress : device.address = a := shown_inj (by
      rw [← hb, identity, shown, hannounces.macAddress_eq, hannounces.addressType_eq])
    rw [(hdevice device haddress).1 hmem, hbattery] at hof
    obtain ⟨hmatch, hof⟩ := Option.ite_none_right_eq_some.1 hof
    exact ⟨hmatch, (Option.some.inj hof).symm⟩
  · rintro ⟨hmatch, rfl⟩
    exact ⟨_, (hdevice _ rfl).2 rfl, by rw [hbattery, if_pos hmatch]⟩

def exampleAddress : NimBLEAddress := ⟨0, [0x02, 0x1a, 0x0f, 0x80, 0x47, 0xc8], rfl⟩

/-- The advertisement lists the service, and the response has the name; another device is heard between them. -/
def exampleReports : List Report :=
  [⟨0, exampleAddress, -60, Tlv.encode [(0x03, [0xe0, 0xff])], true, false⟩,
    ⟨0, ⟨1, [1, 2, 3, 4, 5, 6], rfl⟩, -80, [0x02, 0x01, 0x06], true, false⟩,
    ⟨4, exampleAddress, -58, Tlv.encode [(0x09, ascii "L-12100BNNA70")], true, false⟩]

theorem batteries_are_listed_interleaved :
    ∃ batteries, scan exampleReports = some batteries ∧
      ∀ b, identity b = shown exampleAddress →
        (b ∈ batteries ↔ announcesBattery [(0x03, [0xe0, 0xff]), (0x09, ascii "L-12100BNNA70")] = true ∧
          b = ⟨batteryName [(0x03, [0xe0, 0xff]), (0x09, ascii "L-12100BNNA70")], exampleAddress.toString, 0, -58⟩) :=
  batteries_are_listed
    (show NimBLEScan.heardFrom exampleAddress exampleReports =
      [] ++ ⟨0, exampleAddress, -60, Tlv.encode [(0x03, [0xe0, 0xff])], true, false⟩ ::
        [⟨4, exampleAddress, -58, Tlv.encode [(0x09, ascii "L-12100BNNA70")], true, false⟩] from rfl)
    rfl (by decide) (by decide +kernel) (by decide +kernel) (by decide +kernel)
    (show ([(0x03, [0xe0, 0xff]), (0x09, ascii "L-12100BNNA70")] : List (UInt8 × Bytes)).Pairwise _ by decide +kernel)

/-- `batteries[0].macAddress`, when a battery is listed. -/
def firstFound (reports : List Report) : Option Bytes :=
  (scan reports).bind fun batteries => batteries.head?.map DiscoveredBattery.macAddress

/-- A device heard in these reports has this address and announces a battery. -/
def Announced (reports : List Report) (address : Bytes) : Prop :=
  ∃ a last b, (NimBLEScan.heardFrom a reports).getLast? = some last ∧ addressBytes address = a.val.reverse ∧
    address = a.toString ∧ Announces ⟨a, last.rssi, NimBLEScan.said (NimBLEScan.heardFrom a reports)⟩ b

end LiTimeScanner

end LiTimeGateway
