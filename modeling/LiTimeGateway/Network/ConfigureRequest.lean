import LiTimeGateway.JsonString
import LiTimeGateway.Network.GatewayNetwork
import LiTimeGateway.Storage.StorageManager
/-!
# The configure request

The setup page posts `JSON.stringify` of an SSID and a password, and the handler
of `/api/wifi/configure` reads the two members with `jsonString`, which answers
a missing, a malformed and an unterminated value alike with the empty text. An
empty SSID is refused; an empty password is one that can be stored.
-/

namespace LiTimeGateway.ConfigureRequest

open JsonString Lib.Search

/-! ## The page -/

/-- A JavaScript string, in UTF-16 code units. -/
abbrev JsString := List UInt16

inductive CodePoint where
  | scalar (c : Char)
  | surrogate (unit : UInt16)

def codePoint (unit : UInt16) : CodePoint :=
  if 0xD800 ≤ unit ∧ unit < 0xE000 then .surrogate unit else .scalar (Char.ofNat unit.toNat)

/-- The code points of a string: two surrogates in order are one. -/
def codePoints : JsString → List CodePoint
  | [] => []
  | [unit] => [codePoint unit]
  | high :: low :: rest =>
    if 0xD800 ≤ high ∧ high < 0xDC00 ∧ 0xDC00 ≤ low ∧ low < 0xE000 then
      .scalar (Char.ofNat (0x10000 + (high.toNat - 0xD800) * 0x400 + (low.toNat - 0xDC00))) :: codePoints rest
    else codePoint high :: codePoints (low :: rest)

/-- `n` in `width` lower case hexadecimal digits. -/
def lowerHex : (width : Nat) → Nat → Bytes
  | 0, _ => []
  | width + 1, n => lowerHex width (n / 16) ++ [ch (Nat.digitChar (n % 16))]

/-- What `JSON.stringify` writes for a code point, in UTF-8. -/
def quoteChar : CodePoint → Bytes
  | .scalar c =>
    if c = '"' then ascii "\\\""
    else if c = '\\' then ascii "\\\\"
    else if c = '\x08' then ascii "\\b"
    else if c = '\x0c' then ascii "\\f"
    else if c = '\n' then ascii "\\n"
    else if c = '\r' then ascii "\\r"
    else if c = '\t' then ascii "\\t"
    else if c.val < 0x20 then ascii "\\u" ++ lowerHex 4 c.toNat
    else String.utf8EncodeChar c
  | .surrogate unit => ascii "\\u" ++ lowerHex 4 unit.toNat

def quoted (s : JsString) : Bytes := (codePoints s).flatMap quoteChar

/-- The body up to the closing quote of the SSID. -/
def upToSsid (ssid : JsString) : Bytes := ascii "\x7b\"ssid\":" ++ ch '"' :: quoted ssid ++ [ch '"']

/-- The body up to the closing quote of the password. -/
def upToPassword (ssid password : JsString) : Bytes :=
  upToSsid ssid ++ ascii ",\"password\":" ++ ch '"' :: quoted password ++ [ch '"']

/-- `JSON.stringify({ ssid, password })`. -/
def stringify (ssid password : JsString) : Bytes := upToPassword ssid password ++ [ch '}']

/-- The bytes of a code point; a surrogate alone has those of U+FFFD. -/
def utf8Char : CodePoint → Bytes
  | .scalar c => String.utf8EncodeChar c
  | .surrogate _ => [0xEF, 0xBF, 0xBD]

def utf8 (s : JsString) : Bytes := (codePoints s).flatMap utf8Char

/-! ## The handler -/

inductive Reply where
  | requestAuthentication
  | json (status : Nat) (body : Bytes)
  deriving DecidableEq

structure Gateway where
  network : GatewayNetwork := {}
  storage : StorageManager := {}

/-- The handler of `/api/wifi/configure`; `authenticated` is what `server.authenticate` answers. -/
def configure (authenticated : Bool) (g : Gateway) (body : Bytes) (uptime : UInt32) : Gateway × Reply :=
  if !authenticated then (g, .requestAuthentication)
  else
    match g.network.saveWiFi (jsonString body ssidKey) (jsonString body passwordKey) with
    | (network, .error error) =>
      ({ g with network }, .json 400 (ascii "\x7b\"error\":\"" ++ error ++ ascii "\"\x7d"))
    | (network, .ok ()) =>
      ({ network, storage := g.storage.recordEvent (ascii "wifi_credentials_saved") none uptime },
        .json 202 (ascii "\x7b\"accepted\":true\x7d"))

/-- `wifi_ssid`, `wifi_pass` and `savedSsid`. -/
def credentials (net : GatewayNetwork) : Option Bytes × Option Bytes × Bytes :=
  (net.preferences.wifiSsid, net.preferences.wifiPass, net.savedSsid)

def Reply.accepts : Reply → Bool
  | .json status _ => status = 202
  | .requestAuthentication => false

/-- The request is refused and the credentials stay, or exactly this pair is stored. -/
def Safe (g : Gateway) (ssid password : Bytes) (result : Gateway × Reply) : Prop :=
  (result.2.accepts = false ∧ credentials result.1.network = credentials g.network) ∨
    (result.2.accepts = true ∧ credentials result.1.network = (some ssid, some password, ssid))

instance (g : Gateway) (ssid password : Bytes) (result : Gateway × Reply) : Decidable (Safe g ssid password result) :=
  inferInstanceAs (Decidable (_ ∨ _))

/-! ## What the decoder reads -/

/-- A code point whose escape the decoder does not know. -/
def CodePoint.lossy : CodePoint → Bool
  | .scalar c => c.val < 0x20 && c ≠ '\t' && c ≠ '\n' && c ≠ '\r'
  | .surrogate _ => true

/-- Its escape without the backslash, or else its bytes. -/
def readChar : CodePoint → Bytes
  | .scalar c =>
    if c = '\x08' then ascii "b"
    else if c = '\x0c' then ascii "f"
    else if (CodePoint.scalar c).lossy then ch 'u' :: lowerHex 4 c.toNat
    else String.utf8EncodeChar c
  | .surrogate unit => ch 'u' :: lowerHex 4 unit.toNat

def readText (s : JsString) : Bytes := (codePoints s).flatMap readChar

/-- No character of the text is a control character other than tab, newline and
carriage return, or a surrogate alone. -/
def Lossless (s : JsString) : Prop := ∀ point ∈ codePoints s, point.lossy = false

instance (s : JsString) : Decidable (Lossless s) := inferInstanceAs (Decidable (∀ point ∈ codePoints s, _))

/-- A cut that leaves nothing wrong to store: it takes away the end of the SSID;
or what is read is refused for its length; or the SSID is read as it is, and
the password too, being empty or wholly there. -/
def HarmlessCut (ssid password : JsString) (k : Nat) : Prop :=
  k < (upToSsid ssid).length ∨ ssid = [] ∨ 32 < (readText ssid).length ∨
    (k + 1 = (stringify ssid password).length ∧ 63 < (readText password).length) ∨
    (Lossless ssid ∧ (password = [] ∨ k + 1 = (stringify ssid password).length ∧ Lossless password))

/-- A JavaScript string of characters up to U+FFFF. -/
def units (s : String) : JsString := s.toList.map fun c => UInt16.ofNat c.toNat

example : stringify (units "a\"\x08") (units "\x01é") =
    ascii "\x7b\"ssid\":\"a\\\"\\b\",\"password\":\"\\u0001" ++ [0xC3, 0xA9] ++ ascii "\"\x7d" := by decide +kernel

example : utf8 [0xD83D, 0xDE00] = [0xF0, 0x9F, 0x98, 0x80] := by decide +kernel

/-! ## Code points through the decoder -/

theorem high_byte {n base : Nat} (hbase : 128 ≤ base) (hn : n + base < 256) : 128 ≤ (UInt8.ofNat (n + base)).toNat := by
  rw [UInt8.toNat_ofNat', Nat.mod_eq_of_lt hn]
  omega

/-- A character is one byte of ASCII, or bytes beyond it. -/
theorem mem_utf8EncodeChar {c : Char} {b : UInt8} (h : b ∈ String.utf8EncodeChar c) :
    (b.toNat = c.toNat ∧ b.toNat < 128) ∨ 128 ≤ b.toNat := by
  unfold String.utf8EncodeChar at h
  dsimp only at h
  split at h
  · next hascii =>
    rw [List.mem_singleton] at h
    have hmod : c.val.toNat % 2 ^ 8 = c.val.toNat := Nat.mod_eq_of_lt (by omega)
    left
    rw [h, UInt8.toNat_ofNat', hmod]
    exact ⟨rfl, by omega⟩
  · right
    split at h
    · rcases List.mem_pair.1 h with rfl | rfl
      · exact high_byte (by omega) (by omega)
      · exact high_byte (by omega) (by omega)
    · split at h
      · simp only [List.mem_cons, List.not_mem_nil, or_false] at h
        rcases h with rfl | rfl | rfl
        · exact high_byte (by omega) (by omega)
        · exact high_byte (by omega) (by omega)
        · exact high_byte (by omega) (by omega)
      · simp only [List.mem_cons, List.not_mem_nil, or_false] at h
        rcases h with rfl | rfl | rfl | rfl
        · exact high_byte (by omega) (by omega)
        · exact high_byte (by omega) (by omega)
        · exact high_byte (by omega) (by omega)
        · exact high_byte (by omega) (by omega)

/-- An ASCII character stands in the bytes of no other character. -/
theorem ch_not_mem_utf8EncodeChar {c d : Char} (hd : d.toNat < 128) (hne : c ≠ d) :
    ch d ∉ String.utf8EncodeChar c := by
  intro h
  have hch : (ch d).toNat = d.toNat := by
    have hval : (ch d).toNat = d.toNat % 256 := UInt32.toNat_toUInt8 d.val
    omega
  rcases mem_utf8EncodeChar h with ⟨hc, -⟩ | hhigh
  · exact hne (Char.toNat_inj.1 (hc.symm.trans hch))
  · omega

/-- Bytes written as they are. -/
theorem Written.bytes {s written bytes : Bytes} (h : ∀ b ∈ bytes, b ≠ ch '"' ∧ b ≠ ch '\\') (rest : Written s written) :
    Written (bytes ++ s) (bytes ++ written) := by
  induction bytes with
  | nil => exact rest
  | cons b bytes ih =>
    obtain ⟨⟨hq, hb⟩, hbytes⟩ := List.forall_mem_cons.1 h
    exact .raw hq hb (ih hbytes)

theorem lowerHex_plain (width n : Nat) : ∀ b ∈ lowerHex width n, b ≠ ch '"' ∧ b ≠ ch '\\' ∧ b ≠ 0 := by
  induction width generalizing n with
  | zero => exact List.forall_mem_nil _
  | succ width ih =>
    intro b hb
    rcases List.mem_append.1 hb with hb | hb
    · exact ih _ b hb
    · rw [List.mem_singleton] at hb
      subst hb
      have hdigit : ∀ d < 16, ch (Nat.digitChar d) ≠ ch '"' ∧ ch (Nat.digitChar d) ≠ ch '\\' ∧
          ch (Nat.digitChar d) ≠ 0 := by decide
      exact hdigit _ (Nat.mod_lt _ (by decide))

/-- An escape the decoder does not know loses its backslash. -/
theorem written_unicode {s written : Bytes} (n : Nat) (rest : Written s written) :
    Written (ch 'u' :: lowerHex 4 n ++ s) (ascii "\\u" ++ lowerHex 4 n ++ written) := by
  have hdigits := Written.bytes (fun b hb => ⟨(lowerHex_plain 4 n b hb).1, (lowerHex_plain 4 n b hb).2.1⟩) rest
  exact .escaped (ch 'u') hdigits

theorem written_char (point : CodePoint) {s written : Bytes} (rest : Written s written) :
    Written (readChar point ++ s) (quoteChar point ++ written) := by
  cases point with
  | surrogate unit => exact written_unicode unit.toNat rest
  | scalar c =>
    rw [quoteChar]
    split_ifs with hquote hbackslash hb hf hn hr ht hcontrol
    · subst hquote
      exact .escaped (ch '"') rest
    · subst hbackslash
      exact .escaped (ch '\\') rest
    · subst hb
      exact .escaped (ch 'b') rest
    · subst hf
      exact .escaped (ch 'f') rest
    · subst hn
      exact .escaped (ch 'n') rest
    · subst hr
      exact .escaped (ch 'r') rest
    · subst ht
      exact .escaped (ch 't') rest
    · have hread : readChar (.scalar c) = ch 'u' :: lowerHex 4 c.toNat := by
        simp [readChar, CodePoint.lossy, hb, hf, hn, hr, ht, hcontrol]
      rw [hread]
      exact written_unicode c.toNat rest
    · have hread : readChar (.scalar c) = String.utf8EncodeChar c := by
        simp [readChar, CodePoint.lossy, hb, hf, hcontrol]
      rw [hread]
      refine Written.bytes ?_ rest
      intro b hmem
      refine ⟨?_, ?_⟩
      · rintro rfl
        exact ch_not_mem_utf8EncodeChar (by decide) hquote hmem
      · rintro rfl
        exact ch_not_mem_utf8EncodeChar (by decide) hbackslash hmem

theorem written_text (s : JsString) : Written (readText s) (quoted s) := by
  unfold readText quoted
  induction codePoints s with
  | nil => exact .nil
  | cons point points ih => exact written_char point ih

/-! ## What is read of a text -/

theorem readChar_ne_nil (point : CodePoint) : readChar point ≠ [] := by
  cases point with
  | surrogate unit => exact List.cons_ne_nil _ _
  | scalar c =>
    rw [readChar]
    split_ifs
    · exact List.cons_ne_nil _ _
    · exact List.cons_ne_nil _ _
    · exact List.cons_ne_nil _ _
    · exact String.utf8EncodeChar_ne_nil

theorem utf8Char_ne_nil (point : CodePoint) : utf8Char point ≠ [] := by
  cases point with
  | surrogate unit => exact List.cons_ne_nil _ _
  | scalar c => exact String.utf8EncodeChar_ne_nil

theorem readChar_lossless {point : CodePoint} (h : point.lossy = false) : readChar point = utf8Char point := by
  cases point with
  | surrogate unit => cases h
  | scalar c =>
    have hb : c ≠ '\x08' := by
      rintro rfl
      cases h
    have hf : c ≠ '\x0c' := by
      rintro rfl
      cases h
    simp [readChar, utf8Char, h, hb, hf]

/-- A letter stands where a control character or U+FFFD should begin. -/
theorem readChar_lossy {point : CodePoint} (h : point.lossy = true) :
    (readChar point).head? ≠ (utf8Char point).head? := by
  cases point with
  | surrogate unit => exact fun hhead => absurd (Option.some.inj hhead) (by decide)
  | scalar c =>
    have hletter : ∃ b rest, readChar (.scalar c) = b :: rest ∧ 32 ≤ b.toNat := by
      rw [readChar]
      split_ifs
      · exact ⟨ch 'b', [], rfl, by decide⟩
      · exact ⟨ch 'f', [], rfl, by decide⟩
      · exact ⟨ch 'u', _, rfl, by decide⟩
    have hcontrol : c.toNat < 32 := by
      simp only [CodePoint.lossy, Bool.and_eq_true, decide_eq_true_eq] at h
      exact UInt32.lt_iff_toNat_lt.1 h.1.1.1
    have hbyte : String.utf8EncodeChar c = [UInt8.ofNat c.toNat] := if_pos (by show c.toNat ≤ 127; omega)
    obtain ⟨b, rest, hread, hb⟩ := hletter
    rw [hread, utf8Char, hbyte]
    intro hhead
    have hsame := congrArg UInt8.toNat (Option.some.inj hhead)
    rw [UInt8.toNat_ofNat', Nat.mod_eq_of_lt (by omega)] at hsame
    omega

/-- The text is read as it is exactly when it has no lossy character. -/
theorem readText_eq_iff (s : JsString) : readText s = utf8 s ↔ Lossless s := by
  unfold readText utf8 Lossless
  induction codePoints s with
  | nil => simp
  | cons point points ih =>
    rw [List.flatMap_cons, List.flatMap_cons, List.forall_mem_cons, ← ih]
    cases hlossy : point.lossy with
    | false =>
      rw [readChar_lossless hlossy, List.append_cancel_left_eq]
      simp
    | true =>
      refine iff_of_false ?_ (by simp)
      intro h
      have hhead := congrArg List.head? h
      rw [List.head?_append_of_ne_nil _ (readChar_ne_nil point), List.head?_append_of_ne_nil _ (utf8Char_ne_nil point)]
        at hhead
      exact readChar_lossy hlossy hhead

theorem codePoints_eq_nil_iff (s : JsString) : codePoints s = [] ↔ s = [] := by
  cases s with
  | nil => simp [codePoints]
  | cons high s =>
    cases s with
    | nil => simp [codePoints]
    | cons low rest =>
      unfold codePoints
      split <;> simp

theorem flatMap_codePoints_eq_nil_iff {f : CodePoint → Bytes} (hf : ∀ point, f point ≠ []) (s : JsString) :
    (codePoints s).flatMap f = [] ↔ s = [] := by
  rw [List.flatMap_eq_nil_iff, ← codePoints_eq_nil_iff]
  constructor
  · intro h
    cases hpoints : codePoints s with
    | nil => rfl
    | cons point points => exact absurd (h point (by simp [hpoints])) (hf point)
  · intro h
    simp [h]

theorem readText_eq_nil_iff (s : JsString) : readText s = [] ↔ s = [] :=
  flatMap_codePoints_eq_nil_iff readChar_ne_nil s

theorem utf8_eq_nil_iff (s : JsString) : utf8 s = [] ↔ s = [] := flatMap_codePoints_eq_nil_iff utf8Char_ne_nil s

theorem zero_not_mem_readChar (point : CodePoint) : (0 : UInt8) ∉ readChar point := by
  have hescape : ∀ n, (0 : UInt8) ∉ ch 'u' :: lowerHex 4 n := by
    intro n
    rw [List.mem_cons, not_or]
    exact ⟨by decide, fun hmem => (lowerHex_plain 4 n 0 hmem).2.2 rfl⟩
  cases point with
  | surrogate unit => exact hescape unit.toNat
  | scalar c =>
    rw [readChar]
    split_ifs with hb hf hlossy
    · decide
    · decide
    · exact hescape c.toNat
    · refine ch_not_mem_utf8EncodeChar (d := '\x00') (by decide) ?_
      rintro rfl
      exact hlossy rfl

/-- No NUL is read, so NVS keeps all of it. -/
theorem cString_readText (s : JsString) : cString (readText s) = readText s := by
  rw [cString, List.takeWhile_eq_self_iff]
  intro b hb
  obtain ⟨point, -, hmem⟩ := List.mem_flatMap.1 hb
  rw [decide_eq_true_eq]
  rintro rfl
  exact zero_not_mem_readChar point hmem

/-! ## The members of a body that is cut off -/

/-- Behind the SSID's marker. -/
theorem after_ssid (ssid : JsString) (rest : Bytes) :
    after (marker ssidKey) (upToSsid ssid ++ rest) = some (ch '"' :: quoted ssid ++ ch '"' :: rest) := by
  have hbody : upToSsid ssid ++ rest = [ch '{'] ++ (marker ssidKey ++ (ch '"' :: quoted ssid ++ ch '"' :: rest)) := by
    simp [upToSsid, marker, ssidKey, ascii]
  rw [hbody]
  exact (after_skip (by decide) _).trans (after_append _ _)

/-- Behind the password's marker, which nothing in the SSID passes for. -/
theorem after_password (ssid password : JsString) (rest : Bytes) :
    after (marker passwordKey) (upToPassword ssid password ++ rest) =
      some (ch '"' :: quoted password ++ ch '"' :: rest) := by
  have hbody : upToPassword ssid password ++ rest = [ch '{'] ++ (member ssidKey 0 (quoted ssid) ++ ch ',' ::
      (marker passwordKey ++ (ch '"' :: quoted password ++ ch '"' :: rest))) := by
    simp [upToPassword, upToSsid, member, marker, spaces, ssidKey, passwordKey, ascii]
  have hkeys : PlainKey ssidKey ∧ PlainKey passwordKey := by decide
  have hcomma : ch '"' ∉ [ch ','] := by decide
  calc after (marker passwordKey) (upToPassword ssid password ++ rest)
      = after (marker passwordKey) (member ssidKey 0 (quoted ssid) ++ ch ',' ::
          (marker passwordKey ++ (ch '"' :: quoted password ++ ch '"' :: rest))) := by
        rw [hbody]
        exact after_skip (by decide) _
    _ = after (marker passwordKey) ([ch ','] ++ (marker passwordKey ++ (ch '"' :: quoted password ++ ch '"' :: rest))) :=
        after_member (written_text ssid) hkeys.2 hkeys.1 (by decide) 0 _
    _ = after (marker passwordKey) (marker passwordKey ++ (ch '"' :: quoted password ++ ch '"' :: rest)) :=
        after_skip hcomma _
    _ = some (ch '"' :: quoted password ++ ch '"' :: rest) := after_append _ _

/-- What follows the SSID in the body. -/
def behindSsid (password : JsString) : Bytes :=
  ascii ",\"password\":" ++ ch '"' :: quoted password ++ [ch '"', ch '}']

theorem stringify_eq (ssid password : JsString) : stringify ssid password = upToSsid ssid ++ behindSsid password := by
  simp [stringify, upToPassword, behindSsid]

theorem ssid_cut {ssid : JsString} {k : Nat} (hk : k < (upToSsid ssid).length) (password : JsString) :
    jsonString ((stringify ssid password).take k) ssidKey = [] := by
  rw [stringify_eq]
  refine jsonString_cut (written_text ssid) (after_ssid ssid _) (List.take_prefix _ _) ?_
  rw [List.length_take, List.length_append]
  omega

theorem ssid_kept {ssid : JsString} {k : Nat} (hk : (upToSsid ssid).length ≤ k) (password : JsString) :
    jsonString ((stringify ssid password).take k) ssidKey = readText ssid := by
  rw [stringify_eq, List.take_append, List.take_of_length_le hk, jsonString_eq, after_ssid]
  exact readMember_member (written_text ssid) 0 _

theorem password_cut {ssid password : JsString} {k : Nat} (hk : k + 1 < (stringify ssid password).length) :
    jsonString ((stringify ssid password).take k) passwordKey = [] := by
  refine jsonString_cut (written_text password) (after_password ssid password [ch '}']) (List.take_prefix _ _) ?_
  rw [List.length_take, List.length_singleton]
  change min k (stringify ssid password).length + 1 < (stringify ssid password).length
  omega

theorem password_kept {ssid password : JsString} {k : Nat} (hk : k + 1 = (stringify ssid password).length) :
    jsonString ((stringify ssid password).take k) passwordKey = readText password := by
  have hlen : k = (upToPassword ssid password).length := by
    rw [stringify, List.length_append, List.length_singleton] at hk
    omega
  have hafter := after_password ssid password []
  rw [List.append_nil] at hafter
  rw [stringify, hlen, List.take_left, jsonString_eq, hafter]
  exact readMember_member (written_text password) 0 []

/-! ## Cuts -/

/-- What the handler does with the two values it reads. -/
theorem safe_iff (g : Gateway) (body : Bytes) (uptime : UInt32) (ssid password : Bytes) :
    Safe g ssid password (configure true g body uptime) ↔
      (jsonString body ssidKey = [] ∨ 32 < (jsonString body ssidKey).length ∨
          63 < (jsonString body passwordKey).length) ∨
        (cString (jsonString body ssidKey) = ssid ∧ cString (jsonString body passwordKey) = password ∧
          jsonString body ssidKey = ssid) := by
  generalize hs : jsonString body ssidKey = s
  generalize hp : jsonString body passwordKey = p
  by_cases hrefused : s = [] ∨ 32 < s.length ∨ 63 < p.length
  · have hsave : g.network.saveWiFi s p = (g.network, .error GatewayNetwork.lengthError) := by
      have hguard : (s.isEmpty || decide (s.length > 32) || decide (p.length > 63)) = true := by
        simpa [or_assoc] using hrefused
      rw [GatewayNetwork.saveWiFi, if_pos hguard]
    refine iff_of_true (.inl ?_) (.inl hrefused)
    simp [configure, hs, hp, hsave, Reply.accepts]
  · have hguard : ¬ (s.isEmpty || decide (s.length > 32) || decide (p.length > 63)) = true := by
      simpa [or_assoc] using hrefused
    have hstored : (configure true g body uptime).2.accepts = true ∧
        credentials (configure true g body uptime).1.network = (some (cString s), some (cString p), s) := by
      simp only [configure, hs, hp, GatewayNetwork.saveWiFi, if_neg hguard, Bool.not_true, Bool.false_eq_true, if_false]
      refine ⟨rfl, ?_⟩
      unfold GatewayNetwork.connectSavedNetwork
      split <;> rfl
    rw [Safe, hstored.1, hstored.2]
    simp [hrefused]

/-- For every SSID and password and every cut of the body, exactly: the
credentials are safe from the cut if and only if it is harmless. -/
theorem configure_cut_iff (g : Gateway) (uptime : UInt32) (ssid password : JsString) {k : Nat}
    (hk : k < (stringify ssid password).length) :
    Safe g (utf8 ssid) (utf8 password) (configure true g ((stringify ssid password).take k) uptime) ↔
      HarmlessCut ssid password k := by
  rw [safe_iff]
  by_cases hssid : k < (upToSsid ssid).length
  · rw [ssid_cut hssid]
    exact iff_of_true (.inl (.inl rfl)) (.inl hssid)
  · rw [ssid_kept (Nat.le_of_not_lt hssid), cString_readText, readText_eq_iff, readText_eq_nil_iff]
    by_cases hlast : k + 1 = (stringify ssid password).length
    · rw [password_kept hlast, cString_readText, readText_eq_iff]
      constructor
      · rintro ((hempty | hlong | hlong) | ⟨hs, hp, -⟩)
        · exact .inr (.inl hempty)
        · exact .inr (.inr (.inl hlong))
        · exact .inr (.inr (.inr (.inl ⟨hlast, hlong⟩)))
        · exact .inr (.inr (.inr (.inr ⟨hs, .inr ⟨hlast, hp⟩⟩)))
      · rintro (hcut | hempty | hlong | ⟨-, hlong⟩ | ⟨hs, rfl | ⟨-, hp⟩⟩)
        · exact absurd hcut hssid
        · exact .inl (.inl hempty)
        · exact .inl (.inr (.inl hlong))
        · exact .inl (.inr (.inr hlong))
        · exact .inr ⟨hs, List.forall_mem_nil _, hs⟩
        · exact .inr ⟨hs, hp, hs⟩
    · -- The password reads as empty.
      have hnil : cString [] = utf8 password ↔ password = [] := eq_comm.trans (utf8_eq_nil_iff password)
      rw [password_cut (by omega), hnil]
      constructor
      · rintro ((hempty | hlong | hlong) | ⟨hs, hp, -⟩)
        · exact .inr (.inl hempty)
        · exact .inr (.inr (.inl hlong))
        · exact absurd hlong (Nat.not_lt_zero 63)
        · exact .inr (.inr (.inr (.inr ⟨hs, .inl hp⟩)))
      · rintro (hcut | hempty | hlong | ⟨hk, -⟩ | ⟨hs, hp | ⟨hk, -⟩⟩)
        · exact absurd hcut hssid
        · exact .inl (.inl hempty)
        · exact .inl (.inr (.inl hlong))
        · exact absurd hk hlast
        · exact .inr ⟨hs, hp, hs⟩
        · exact absurd hk hlast

/-- The password is cut off after four characters. -/
theorem configure_cut_iff_home :
    Safe {} (utf8 (units "home")) (utf8 (units "secret99"))
        (configure true {} ((stringify (units "home") (units "secret99")).take 31) 0) ↔
      HarmlessCut (units "home") (units "secret99") 31 :=
  configure_cut_iff {} 0 (units "home") (units "secret99") (by decide +kernel)

/-- Cut off there, the request stores the SSID with an empty password. -/
theorem cut_password_stored_empty :
    31 < (stringify (units "home") (units "secret99")).length ∧
      credentials (configure true {} ((stringify (units "home") (units "secret99")).take 31) 0).1.network =
        (some (ascii "home"), some [], ascii "home") ∧
      ¬ Safe {} (utf8 (units "home")) (utf8 (units "secret99"))
        (configure true {} ((stringify (units "home") (units "secret99")).take 31) 0) := by
  decide +kernel

end LiTimeGateway.ConfigureRequest
