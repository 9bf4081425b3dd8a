import LiTimeGateway.Arduino
import LiTimeGateway.Lib.Search
/-!
# Reading a string member of a request body

`jsonString` of the sketch, the decoder behind `/api/wifi/configure`. It looks
for `"key":` anywhere in the body, so what has to be shown is that the marker of
one member cannot stand inside the encoded value of another.
-/

namespace LiTimeGateway.JsonString

open Lib.Search

/-! ## The decoder -/

/-- The character an escape stands for. -/
def unescaped (character : UInt8) : UInt8 :=
  if character = ch 'n' then ch '\n'
  else if character = ch 'r' then ch '\r'
  else if character = ch 't' then ch '\t'
  else character

/-- The loop over the value, from the character after its opening quote on. -/
def scanValue : (escaped : Bool) → Bytes → (value : Bytes) → Bytes
  | _, [], _ => []
  -- An unknown escape stands for the character itself.
  | true, character :: rest, value => scanValue false rest (value ++ [unescaped character])
  | false, character :: rest, value =>
    if character = ch '\\' then scanValue true rest value
    else if character = ch '"' then value
    else scanValue false rest (value ++ [character])

def marker (key : Bytes) : Bytes := ch '"' :: (key ++ [ch '"', ch ':'])

/-- From the character after the marker on: spaces, a quote and the value. -/
def readMember (rest : Bytes) : Bytes :=
  match rest.dropWhile (· = ch ' ') with
  | [] => []
  | character :: rest => if character = ch '"' then scanValue false rest [] else []

def jsonString (body key : Bytes) : Bytes :=
  match indexOf (marker key) body with
  | none => []
  | some markerIndex => readMember (body.drop (markerIndex + (marker key).length))

theorem jsonString_eq (body key : Bytes) :
    jsonString body key = ((after (marker key) body).map readMember).getD [] := by
  unfold jsonString after
  cases indexOf (marker key) body <;> rfl

/-! ## Encodings -/

/-- One way to write a character in a string: as it is, or escaped. -/
inductive EncodedChar : UInt8 → Bytes → Prop where
  | raw {c : UInt8} (control : 32 ≤ c) (quote : c ≠ ch '"') (backslash : c ≠ ch '\\') : EncodedChar c [c]
  | quote : EncodedChar (ch '"') [ch '\\', ch '"']
  | backslash : EncodedChar (ch '\\') [ch '\\', ch '\\']
  | slash : EncodedChar (ch '/') [ch '\\', ch '/']
  | newline : EncodedChar (ch '\n') [ch '\\', ch 'n']
  | carriageReturn : EncodedChar (ch '\r') [ch '\\', ch 'r']
  | tab : EncodedChar (ch '\t') [ch '\\', ch 't']

/-- `encoded` writes `s`, each character in any way. -/
inductive Encodes : Bytes → Bytes → Prop where
  | nil : Encodes [] []
  | cons {c : UInt8} {s written encoded : Bytes} (first : EncodedChar c written) (rest : Encodes s encoded) :
    Encodes (c :: s) (written ++ encoded)

/-- A character is written as itself or behind a backslash. -/
theorem EncodedChar.cases_written {c : UInt8} {written : Bytes} (h : EncodedChar c written) :
    (written = [c] ∧ c ≠ ch '"' ∧ c ≠ ch '\\') ∨ ∃ e, written = [ch '\\', e] ∧ unescaped e = c := by
  cases h with
  | raw _ hq hb => exact .inl ⟨rfl, hq, hb⟩
  | quote => exact .inr ⟨_, rfl, rfl⟩
  | backslash => exact .inr ⟨_, rfl, rfl⟩
  | slash => exact .inr ⟨_, rfl, rfl⟩
  | newline => exact .inr ⟨_, rfl, rfl⟩
  | carriageReturn => exact .inr ⟨_, rfl, rfl⟩
  | tab => exact .inr ⟨_, rfl, rfl⟩

/-- Characters written as they are. -/
theorem Encodes.raw {t s encoded : Bytes} (h : ∀ c ∈ t, 32 ≤ c ∧ c ≠ ch '"' ∧ c ≠ ch '\\')
    (rest : Encodes s encoded) : Encodes (t ++ s) (t ++ encoded) := by
  induction t with
  | nil => exact rest
  | cons c t ih =>
    obtain ⟨⟨h1, h2, h3⟩, ht⟩ := List.forall_mem_cons.1 h
    have hcons := Encodes.cons (EncodedChar.raw h1 h2 h3) (ih ht)
    exact hcons

/-! ## Written text -/

/-- The decoder reads `value` in the text `written` between two quotes:
characters as they are, or any character behind a backslash. -/
inductive Written : (value written : Bytes) → Prop where
  | nil : Written [] []
  | raw {c : UInt8} {value written : Bytes} (quote : c ≠ ch '"') (backslash : c ≠ ch '\\')
    (rest : Written value written) : Written (c :: value) (c :: written)
  | escaped (e : UInt8) {value written : Bytes} (rest : Written value written) :
    Written (unescaped e :: value) (ch '\\' :: e :: written)

theorem Encodes.written {s encoded : Bytes} (h : Encodes s encoded) : Written s encoded := by
  induction h with
  | nil => exact .nil
  | cons first _ ih =>
    rcases first.cases_written with ⟨rfl, hq, hb⟩ | ⟨e, rfl, rfl⟩
    · exact .raw hq hb ih
    · exact .escaped e ih

/-- The automaton undoes the backslashes, up to the closing quote. -/
theorem scanValue_written {s written : Bytes} (h : Written s written) (value rest : Bytes) :
    scanValue false (written ++ ch '"' :: rest) value = value ++ s := by
  induction h generalizing value with
  | nil => simp [scanValue, show ch '"' ≠ ch '\\' by decide]
  | raw hq hb _ ih =>
    rw [List.cons_append, scanValue, if_neg hb, if_neg hq, ih, List.append_assoc, List.singleton_append]
  | escaped e _ ih =>
    rw [List.cons_append, List.cons_append, scanValue, if_pos rfl, scanValue, ih, List.append_assoc,
      List.singleton_append]

/-- A value that is cut off before its closing quote is empty. -/
theorem scanValue_cut {s written t : Bytes} (h : Written s written) (ht : t <+: written) (value : Bytes) :
    scanValue false t value = [] := by
  induction h generalizing t value with
  | nil =>
    rw [List.prefix_nil.1 ht]
    rfl
  | raw hq hb _ ih =>
    cases t with
    | nil => rfl
    | cons d t =>
      obtain ⟨rfl, hrest⟩ := List.cons_prefix_cons.1 ht
      rw [scanValue, if_neg hb, if_neg hq]
      exact ih hrest _
  | escaped e _ ih =>
    cases t with
    | nil => rfl
    | cons d t =>
      obtain ⟨rfl, hrest⟩ := List.cons_prefix_cons.1 ht
      rw [scanValue, if_pos rfl]
      cases t with
      | nil => rfl
      | cons d' t => exact ih (List.cons_prefix_cons.1 hrest).2 _

/-! ## Markers in encoded text -/

/-- A key of ordinary characters. -/
def PlainKey (key : Bytes) : Prop :=
  ∀ c ∈ key, c ≠ ch '"' ∧ c ≠ ch '\\' ∧ c ≠ ch ':' ∧ c ≠ ch ','

instance (key : Bytes) : Decidable (PlainKey key) := inferInstanceAs (Decidable (∀ c ∈ key, _))

/-- Behind a quote that a written value follows, no key ends in `":`. -/
theorem key_not_here {s written key : Bytes} (h : Written s written) (hk : PlainKey key) (rest : Bytes) :
    ¬ key ++ [ch '"', ch ':'] <+: written ++ ch '"' :: ch ',' :: rest := by
  induction h generalizing key with
  | nil =>
    intro hp
    cases key with
    | nil => exact absurd (List.cons_prefix_cons.1 (List.cons_prefix_cons.1 hp).2).1 (by decide)
    | cons k key => exact (hk k List.mem_cons_self).1 (List.cons_prefix_cons.1 hp).1
  | raw hq _ _ ih =>
    intro hp
    cases key with
    | nil => exact hq (List.cons_prefix_cons.1 hp).1.symm
    | cons k key => exact ih (fun c hc => hk c (List.mem_cons_of_mem _ hc)) (List.cons_prefix_cons.1 hp).2
  | escaped e _ _ =>
    -- A backslash stands here, and no key has one.
    intro hp
    cases key with
    | nil => exact absurd (List.cons_prefix_cons.1 hp).1 (by decide)
    | cons k key => exact (hk k List.mem_cons_self).2.1 (List.cons_prefix_cons.1 hp).1

/-- A marker does not start at a quote that a colon or a comma follows. -/
theorem marker_not_here {key : Bytes} (hk : PlainKey key) {c : UInt8} (hc : c = ch ':' ∨ c = ch ',') (rest : Bytes) :
    ¬ marker key <+: ch '"' :: c :: rest := by
  intro hp
  have hp := (List.cons_prefix_cons.1 hp).2
  cases key with
  | nil =>
    have := (List.cons_prefix_cons.1 hp).1
    rcases hc with rfl | rfl <;> exact absurd this (by decide)
  | cons k key =>
    have := (List.cons_prefix_cons.1 hp).1
    obtain ⟨-, -, h1, h2⟩ := hk k List.mem_cons_self
    rcases hc with rfl | rfl
    · exact h1 this
    · exact h2 this

/-- No marker starts in a written value or at its closing quote. -/
theorem after_value {s written key : Bytes} (h : Written s written) (hk : PlainKey key) (rest : Bytes) :
    after (marker key) (written ++ ch '"' :: ch ',' :: rest) = after (marker key) (ch ',' :: rest) := by
  induction h with
  | nil => exact after_cons (marker_not_here hk (.inr rfl) rest)
  | @raw c _ written hq _ _ ih =>
    have hc : ch '"' ∉ [c] := by simpa using hq.symm
    exact (after_skip hc _).trans ih
  | @escaped e _ written hrest ih =>
    have hback : ch '"' ∉ [ch '\\'] := by decide
    rw [show ch '\\' :: e :: written ++ ch '"' :: ch ',' :: rest =
      [ch '\\'] ++ e :: (written ++ ch '"' :: ch ',' :: rest) from rfl, marker, after_skip hback, after_cons, ← marker, ih]
    -- Even behind an escaped quote a written value follows.
    exact fun hp => key_not_here hrest hk rest (List.cons_prefix_cons.1 hp).2

/-! ## Members -/

def spaces (n : Nat) : Bytes := List.replicate n (ch ' ')

/-- `"key": "encoded"`, with `n` spaces. -/
def member (key : Bytes) (n : Nat) (encoded : Bytes) : Bytes :=
  marker key ++ spaces n ++ [ch '"'] ++ encoded ++ [ch '"']

theorem quote_not_mem_spaces (n : Nat) : ch '"' ∉ spaces n := fun h =>
  absurd (List.eq_of_mem_replicate h) (by decide)

/-- The value of the member the marker has led to. -/
theorem readMember_member {s encoded : Bytes} (h : Written s encoded) (n : Nat) (rest : Bytes) :
    readMember (spaces n ++ ch '"' :: (encoded ++ ch '"' :: rest)) = s := by
  have hdrop : (spaces n ++ ch '"' :: (encoded ++ ch '"' :: rest)).dropWhile (· = ch ' ') =
      ch '"' :: (encoded ++ ch '"' :: rest) := by
    rw [List.dropWhile_append_of_pos fun c hc => decide_eq_true (List.eq_of_mem_replicate hc)]
    rfl
  rw [readMember, hdrop]
  exact scanValue_written h [] rest

/-! ## Bodies -/

/-- An object of two members, with `n` spaces after the comma. -/
def object (first : Bytes) (n : Nat) (second : Bytes) : Bytes :=
  ch '{' :: first ++ ch ',' :: spaces n ++ second ++ [ch '}']

theorem first_member {s encoded key second : Bytes} (h : Written s encoded) (i j : Nat) :
    jsonString (object (member key i encoded) j second) key = s := by
  have hbody : object (member key i encoded) j second = [ch '{'] ++ (marker key ++
      (spaces i ++ ch '"' :: (encoded ++ ch '"' :: ch ',' :: (spaces j ++ second ++ [ch '}'])))) := by
    simp [object, member]
  have hafter : after (marker key) (object (member key i encoded) j second) =
      some (spaces i ++ ch '"' :: (encoded ++ ch '"' :: ch ',' :: (spaces j ++ second ++ [ch '}']))) := by
    rw [hbody]
    exact (after_skip (by decide) _).trans (after_append _ _)
  rw [jsonString_eq, hafter]
  exact readMember_member h i _

/-- One key's marker does not stand where another key's does. -/
theorem key_unique {key other : Bytes} (hk : PlainKey key) (ho : PlainKey other) (rest : Bytes)
    (h : key ++ [ch '"', ch ':'] <+: other ++ ch '"' :: rest) : key = other := by
  induction key generalizing other with
  | nil =>
    cases other with
    | nil => rfl
    | cons o other => exact absurd (List.cons_prefix_cons.1 h).1.symm (ho o List.mem_cons_self).1
  | cons k key ih =>
    cases other with
    | nil => exact absurd (List.cons_prefix_cons.1 h).1 (hk k List.mem_cons_self).1
    | cons o other =>
      obtain ⟨rfl, hrest⟩ := List.cons_prefix_cons.1 h
      rw [ih (fun c hc => hk c (List.mem_cons_of_mem _ hc)) (fun c hc => ho c (List.mem_cons_of_mem _ hc)) hrest]

/-- The search for a key passes over a member of another key, whatever its value. -/
theorem after_member {s encoded key other : Bytes} (h : Written s encoded) (hk : PlainKey key) (ho : PlainKey other)
    (hne : key ≠ other) (i : Nat) (rest : Bytes) :
    after (marker key) (member other i encoded ++ ch ',' :: rest) = after (marker key) (ch ',' :: rest) := by
  have hmember : member other i encoded ++ ch ',' :: rest = ch '"' :: (other ++ ch '"' :: ch ':' ::
      (spaces i ++ ch '"' :: (encoded ++ ch '"' :: ch ',' :: rest))) := by
    simp [member, marker]
  have hkey : ch '"' ∉ other := fun hm => (ho _ hm).1 rfl
  have hcolon : ch '"' ∉ ch ':' :: spaces i := by
    rw [List.mem_cons, not_or]
    exact ⟨by decide, quote_not_mem_spaces i⟩
  rw [hmember]
  -- The search moves on over the key, its colon, the opening quote and the value.
  calc after (marker key) (ch '"' :: (other ++ ch '"' :: ch ':' ::
        (spaces i ++ ch '"' :: (encoded ++ ch '"' :: ch ',' :: rest))))
      = after (marker key) (other ++ ch '"' :: ch ':' ::
          (spaces i ++ ch '"' :: (encoded ++ ch '"' :: ch ',' :: rest))) :=
        after_cons fun hp => hne (key_unique hk ho _ (List.cons_prefix_cons.1 hp).2)
    _ = after (marker key) (ch '"' :: ch ':' ::
          (spaces i ++ ch '"' :: (encoded ++ ch '"' :: ch ',' :: rest))) := after_skip hkey _
    _ = after (marker key) ((ch ':' :: spaces i) ++ ch '"' :: (encoded ++ ch '"' :: ch ',' :: rest)) :=
        after_cons (marker_not_here hk (.inl rfl) _)
    _ = after (marker key) (ch '"' :: (encoded ++ ch '"' :: ch ',' :: rest)) := after_skip hcolon _
    _ = after (marker key) (encoded ++ ch '"' :: ch ',' :: rest) :=
        after_cons fun hp => key_not_here h hk rest (List.cons_prefix_cons.1 hp).2
    _ = after (marker key) (ch ',' :: rest) := after_value h hk rest

theorem second_member {s p u v key other : Bytes} (hu : Written s u) (hv : Written p v) (hk : PlainKey key)
    (ho : PlainKey other) (hne : key ≠ other) (i j n : Nat) :
    jsonString (object (member other i u) j (member key n v)) key = p := by
  have hbody : object (member other i u) j (member key n v) = [ch '{'] ++ (member other i u ++ ch ',' ::
      (spaces j ++ (marker key ++ (spaces n ++ ch '"' :: (v ++ ch '"' :: [ch '}']))))) := by
    simp [object, member]
  have hcomma : ch '"' ∉ ch ',' :: spaces j := by
    rw [List.mem_cons, not_or]
    exact ⟨by decide, quote_not_mem_spaces j⟩
  have hafter : after (marker key) (object (member other i u) j (member key n v)) =
      some (spaces n ++ ch '"' :: (v ++ ch '"' :: [ch '}'])) := by
    rw [hbody]
    refine (after_skip (by decide) _).trans ((after_member hu hk ho hne i _).trans ?_)
    rw [← List.cons_append]
    exact (after_skip hcomma _).trans (after_append _ _)
  rw [jsonString_eq, hafter]
  exact readMember_member hv n _

/-! ## Bodies that are cut off -/

theorem readMember_cut {s written t : Bytes} (h : Written s written) (ht : t <+: ch '"' :: written) :
    readMember t = [] := by
  cases t with
  | nil => rfl
  | cons d t =>
    obtain ⟨rfl, hrest⟩ := List.cons_prefix_cons.1 ht
    exact scanValue_cut h hrest []

/-- Cut off before the closing quote of its value, a member reads as empty. -/
theorem jsonString_cut {s written key body rest t : Bytes} (h : Written s written)
    (hafter : after (marker key) body = some (ch '"' :: written ++ ch '"' :: rest)) (ht : t <+: body)
    (hlen : t.length + rest.length < body.length) : jsonString t key = [] := by
  rw [jsonString_eq]
  cases hfound : after (marker key) t with
  | none => rfl
  | some r =>
    obtain ⟨v, rfl⟩ := ht
    have hwhole := after_of_prefix hfound v
    rw [hafter, Option.some.injEq] at hwhole
    have hlengths := congrArg List.length hwhole
    simp only [List.length_append, List.length_cons] at hlengths hlen
    have hquoted : ch '"' :: written <+: r ++ v := by
      rw [← hwhole]
      exact List.prefix_append _ _
    have hcut : r <+: ch '"' :: written := by
      apply List.prefix_of_prefix_length_le (List.prefix_append r v) hquoted
      rw [List.length_cons]
      omega
    exact readMember_cut h hcut

/-! ## The configure request -/

def ssidKey : Bytes := ascii "ssid"

def passwordKey : Bytes := ascii "password"

/-- A body of `/api/wifi/configure` that carries `s` and `p`. -/
inductive ConfigureBody (s p : Bytes) : Bytes → Prop where
  | ssidFirst {u v : Bytes} (ssid : Encodes s u) (password : Encodes p v) (i j n : Nat) :
    ConfigureBody s p (object (member ssidKey i u) j (member passwordKey n v))
  | passwordFirst {u v : Bytes} (ssid : Encodes s u) (password : Encodes p v) (i j n : Nat) :
    ConfigureBody s p (object (member passwordKey i v) j (member ssidKey n u))

/-- However the members are ordered, spaced and escaped, each is read back
exactly, and nothing in one value passes for the other member. -/
theorem configure_decodes {s p body : Bytes} (h : ConfigureBody s p body) :
    jsonString body ssidKey = s ∧ jsonString body passwordKey = p := by
  have hkeys : PlainKey ssidKey ∧ PlainKey passwordKey := by decide
  cases h with
  | ssidFirst ssid password i j n =>
    exact ⟨first_member ssid.written i j,
      second_member ssid.written password.written hkeys.2 hkeys.1 (by decide) i j n⟩
  | passwordFirst ssid password i j n =>
    exact ⟨second_member password.written ssid.written hkeys.1 hkeys.2 (by decide) i j n,
      first_member password.written i j⟩

/-- A network named `"password":"x` and a password that is one backslash. -/
theorem configure_decodes_forged :
    jsonString (ascii "\x7b\"ssid\": \"\\\"password\\\":\\\"x\",\"password\":\"\\\\\"\x7d") ssidKey =
        ascii "\"password\":\"x" ∧
      jsonString (ascii "\x7b\"ssid\": \"\\\"password\\\":\\\"x\",\"password\":\"\\\\\"\x7d") passwordKey =
        ascii "\\" :=
  configure_decodes (.ssidFirst
    (.cons .quote (.raw (t := ascii "password") (by decide) (.cons .quote
      (.raw (t := ascii ":") (by decide) (.cons .quote (.raw (t := ascii "x") (by decide) .nil))))))
    (.cons .backslash .nil) 1 0 0)

end LiTimeGateway.JsonString
