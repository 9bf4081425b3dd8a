import LiTimeGateway.Lib.Join
import LiTimeGateway.Lib.Json
import Mathlib.Data.List.TakeWhile
import Mathlib.Tactic.Cases
/-!
# JSON texts

What the parser makes of a text that is written piece by piece. `Scans r text`
says that wherever `text` stands as a value the parser reads `r` there and stops
right behind it, or, for `r = none`, finds no value there. There is one rule for
each way to write a value; the rules for arrays and objects ask what the parts
scan as, so that one bad part makes the whole no value.
-/

namespace Lib.Json

open Lib.Join

/-! ## Writing -/

def quoted (t : List UInt8) : List UInt8 := 34 :: (t ++ [34])

/-- A backslash in front of the quotes and the backslashes, and nothing else. -/
def escape (t : List UInt8) : List UInt8 := t.flatMap fun c => if c = 92 ∨ c = 34 then [92, c] else [c]

def arrayText (items : List (List UInt8)) : List UInt8 := 91 :: ([44].intercalate items ++ [93])

def memberText (key text : List UInt8) : List UInt8 := quoted key ++ 58 :: text

def objectText (members : List (List UInt8 × List UInt8)) : List UInt8 :=
  123 :: ([44].intercalate (members.map fun m => memberText m.1 m.2) ++ [125])

/-- What a string may hold without an escape other than those of `escape`. -/
def Clean (t : List UInt8) : Prop := isUtf8 t = true ∧ ∀ b ∈ t, 32 ≤ b

instance (t : List UInt8) : Decidable (Clean t) :=
  haveI : Decidable (∀ b ∈ t, 32 ≤ b) := List.decidableBAll _ t
  inferInstanceAs (Decidable (_ ∧ _))

/-- A text that stands in its quotes as it is. -/
def Verbatim (t : List UInt8) : Prop := escape t = t ∧ Clean t

instance (t : List UInt8) : Decidable (Verbatim t) := inferInstanceAs (Decidable (_ ∧ _))

/-! ## Strings -/

theorem assemble_bytes (t : List UInt8) : assemble (t.map .byte) = some t := by
  induction t with
  | nil => rfl
  | cons c t ih => rw [List.map_cons, assemble, ih, Option.map_some]

/-- A byte that is neither a quote nor a backslash is read as it is. -/
theorem pieces_plain {c : UInt8} (h1 : c ≠ 34) (h2 : c ≠ 92) (t : List UInt8) :
    pieces (c :: t) = if c < 32 then none else (pieces t).map fun p => (.byte c :: p.1, p.2) := by
  rw [pieces.eq_4 c t (by rintro _ _ _ _ _ rfl; exact absurd rfl h2) (by rintro _ _ rfl; exact absurd rfl h2)]
  rw [if_neg h1]
  by_cases hc : c < 32
  · simp [hc]
  · rw [if_neg (by simp [hc, h2]), if_neg hc]
    cases pieces t <;> rfl

/-- A backslash gives the quote or the backslash behind it. -/
theorem pieces_escaped {c : UInt8} (hc : c = 92 ∨ c = 34) (t : List UInt8) :
    pieces (92 :: c :: t) = (pieces t).map fun p => (.byte c :: p.1, p.2) := by
  have h117 : c ≠ 117 := by rcases hc with rfl | rfl <;> decide
  have hesc : escaped c = some c := by rcases hc with rfl | rfl <;> rfl
  rw [pieces.eq_3 c _ (by rintro _ _ _ _ _ rfl; exact absurd rfl h117), hesc]
  cases pieces t <;> rfl

theorem pieces_escape (t rest : List UInt8) : pieces (escape t ++ 34 :: rest) =
    if t.all (32 ≤ ·) then some (t.map .byte, rest) else none := by
  induction t with
  | nil => simp [escape, pieces]
  | cons c t ih =>
    have hcons : escape (c :: t) = (if c = 92 ∨ c = 34 then [92, c] else [c]) ++ escape t := rfl
    have hle : decide (32 ≤ c) = !decide (c < 32) := by simp [← UInt8.not_lt]
    rw [hcons, List.all_cons, hle, List.map_cons]
    by_cases hc : c = 92 ∨ c = 34
    · have h32 : ¬ c < 32 := by rcases hc with rfl | rfl <;> decide
      rw [if_pos hc]
      simp only [List.cons_append, List.nil_append, pieces_escaped hc, ih, h32, decide_false, Bool.not_false,
        Bool.true_and]
      split <;> rfl
    · rw [if_neg hc]
      rw [not_or] at hc
      simp only [List.cons_append, List.nil_append, pieces_plain hc.2 hc.1, ih]
      by_cases h32 : c < 32
      · simp only [h32, if_true, decide_true, Bool.not_true, Bool.false_and, Bool.false_eq_true, if_false]
      · simp only [h32, if_false, decide_false, Bool.not_false, Bool.true_and]
        split <;> rfl

/-- Reading what `escape` wrote: the text itself, if it is clean. -/
theorem string_escape (t rest : List UInt8) :
    string (escape t ++ 34 :: rest) = if Clean t then some (t, rest) else none := by
  unfold string
  rw [pieces_escape]
  have hall : t.all (32 ≤ ·) = true ↔ ∀ b ∈ t, 32 ≤ b := by simp
  by_cases h : ∀ b ∈ t, 32 ≤ b
  · have hclean : Clean t ↔ isUtf8 t = true := ⟨fun hc => hc.1, fun hu => ⟨hu, h⟩⟩
    rw [if_pos (hall.2 h)]
    simp only [Option.bind_eq_bind, Option.bind_some, assemble_bytes, hclean]
  · rw [if_neg (mt hall.1 h), if_neg fun hc => h hc.2]
    rfl

theorem string_verbatim {key : List UInt8} (h : Verbatim key) (rest : List UInt8) :
    string (key ++ 34 :: rest) = some (key, rest) := by
  have hs := string_escape key rest
  rwa [h.1, if_pos h.2] at hs

/-! ## Scanning -/

/-- What may follow a value inside a document. -/
def Stops : List UInt8 → Prop
  | [] => True
  | c :: _ => c = 44 ∨ c = 93 ∨ c = 125

def Scans (r : Option Value) (text : List UInt8) : Prop :=
  ∀ fuel rest, text.length ≤ fuel → Stops rest → value fuel (text ++ rest) = r.map (·, rest)

/-- A text that starts with neither white space nor the end of an array. -/
def Solid (text : List UInt8) : Prop := ∃ c rest, text = c :: rest ∧ isSpace c = false ∧ c ≠ 93

theorem stops_comma (t : List UInt8) : Stops (44 :: t) := .inl rfl

theorem stops_bracket (t : List UInt8) : Stops (93 :: t) := .inr (.inl rfl)

theorem stops_brace (t : List UInt8) : Stops (125 :: t) := .inr (.inr rfl)

theorem Stops.not_number {rest : List UInt8} (h : Stops rest) : rest.takeWhile isNumberChar = [] := by
  cases rest with
  | nil => rfl
  | cons c rest => rcases h with rfl | rfl | rfl <;> rfl

/-- Where a value is missing there is none. -/
theorem scans_missing : Scans none [] := by
  intro fuel rest _ hrest
  cases fuel with
  | zero => rw [value]; rfl
  | succ fuel =>
    rw [List.nil_append]
    cases rest with
    | nil => rfl
    | cons c rest => rcases hrest with rfl | rfl | rfl <;> rfl

theorem scans_true : Scans (some (.bool true)) [116, 114, 117, 101] := by
  intro fuel rest hf _
  obtain ⟨fuel, rfl⟩ := Nat.exists_eq_succ_of_ne_zero (Nat.ne_of_gt (Nat.lt_of_lt_of_le (by decide) hf))
  simp [value, skipSpace, isSpace, literal]

theorem scans_false : Scans (some (.bool false)) [102, 97, 108, 115, 101] := by
  intro fuel rest hf _
  obtain ⟨fuel, rfl⟩ := Nat.exists_eq_succ_of_ne_zero (Nat.ne_of_gt (Nat.lt_of_lt_of_le (by decide) hf))
  simp [value, skipSpace, isSpace, literal]

theorem scans_null : Scans (some .null) [110, 117, 108, 108] := by
  intro fuel rest hf _
  obtain ⟨fuel, rfl⟩ := Nat.exists_eq_succ_of_ne_zero (Nat.ne_of_gt (Nat.lt_of_lt_of_le (by decide) hf))
  simp [value, skipSpace, isSpace, literal]

theorem scans_string (t : List UInt8) :
    Scans (if Clean t then some (.string t) else none) (quoted (escape t)) := by
  intro fuel rest hf _
  obtain ⟨fuel, rfl⟩ := Nat.exists_eq_succ_of_ne_zero (Nat.ne_of_gt (Nat.lt_of_lt_of_le (by simp [quoted]) hf))
  have hskip : skipSpace (quoted (escape t) ++ rest) = 34 :: (escape t ++ 34 :: rest) := by
    simp [quoted, skipSpace, isSpace]
  rw [value, hskip]
  simp only [if_true, string_escape]
  split <;> rfl

theorem scans_verbatim {t : List UInt8} (h : Verbatim t) : Scans (some (.string t)) (quoted t) := by
  have hs := scans_string t
  rwa [h.1, if_pos h.2] at hs

/-! ## Numbers -/

theorem isNumberChar_of_digits {ds : List UInt8} (h : ∀ b ∈ ds, isDigit b = true) :
    ∀ b ∈ ds, isNumberChar b = true := by
  intro b hb
  simp [isNumberChar, h b hb]

theorem isNumberChar_exponent {t : List UInt8} (h : isExponent t = true) : ∀ b ∈ t, isNumberChar b = true := by
  cases t with
  | nil => simp
  | cons e t =>
    simp only [isExponent, Bool.and_eq_true, Bool.or_eq_true, decide_eq_true_eq, List.all_eq_true] at h
    obtain ⟨⟨he, -⟩, hall⟩ := h
    rw [List.forall_mem_cons]
    refine ⟨by rcases he with rfl | rfl <;> decide, ?_⟩
    split at hall
    · next hsign =>
      cases t with
      | nil => simp
      | cons c t =>
        rw [List.forall_mem_cons]
        refine ⟨?_, isNumberChar_of_digits hall⟩
        simp only [List.head?_cons, Option.some.injEq] at hsign
        rcases hsign with rfl | rfl <;> decide
    · exact isNumberChar_of_digits hall

theorem isNumberChar_takeWhile (t : List UInt8) : ∀ b ∈ t.takeWhile isDigit, isNumberChar b = true :=
  isNumberChar_of_digits fun _ hb => List.mem_takeWhile_imp hb

theorem forall_mem_of_spans {p q : UInt8 → Bool} {t : List UInt8} (h1 : ∀ b ∈ t.takeWhile p, q b = true)
    (h2 : ∀ b ∈ t.dropWhile p, q b = true) : ∀ b ∈ t, q b = true := by
  intro b hb
  rw [← List.takeWhile_append_dropWhile (p := p) (l := t), List.mem_append] at hb
  exact hb.elim (h1 b) (h2 b)

theorem isNumberChar_fraction {t : List UInt8} (h : isFraction t = true) : ∀ b ∈ t, isNumberChar b = true := by
  cases t with
  | nil => simp
  | cons c t =>
    rw [isFraction] at h
    split at h
    · next hc =>
      rw [Bool.and_eq_true] at h
      rw [List.forall_mem_cons]
      exact ⟨by rw [hc]; rfl, forall_mem_of_spans (isNumberChar_takeWhile t) (isNumberChar_exponent h.2)⟩
    · exact isNumberChar_exponent h

theorem isNumberChar_of_isNumber {t : List UInt8} (h : isNumber t = true) :
    ∀ b ∈ t, isNumberChar b = true := by
  simp only [isNumber, Bool.and_eq_true] at h
  have hrest := forall_mem_of_spans (isNumberChar_takeWhile _) (isNumberChar_fraction h.2)
  split at hrest
  · next hminus =>
    cases t with
    | nil => simp
    | cons c t =>
      rw [List.forall_mem_cons]
      refine ⟨?_, hrest⟩
      simp only [List.head?_cons, Option.some.injEq] at hminus
      rw [hminus]
      rfl
  · exact hrest

/-- No other value starts like a number. -/
theorem isNumberChar_first {c : UInt8} (h : isNumberChar c = true) :
    isSpace c = false ∧ c ≠ 34 ∧ c ≠ 91 ∧ c ≠ 123 ∧ c ≠ 116 ∧ c ≠ 102 ∧ c ≠ 110 := by
  have hne : ∀ d, isNumberChar d = false → c ≠ d := by
    rintro d hd rfl
    rw [hd] at h
    cases h
  have hspace : isSpace c = false := by
    simp only [isSpace, Bool.or_eq_false_iff, decide_eq_false_iff_not]
    exact ⟨⟨⟨hne _ rfl, hne _ rfl⟩, hne _ rfl⟩, hne _ rfl⟩
  exact ⟨hspace, hne _ rfl, hne _ rfl, hne _ rfl, hne _ rfl, hne _ rfl, hne _ rfl⟩

theorem scans_number {t : List UInt8} (h : isNumber t = true) : Scans (some (.number t)) t := by
  intro fuel rest hf hrest
  cases t with
  | nil => exact absurd h (by decide)
  | cons c t =>
    have hall := isNumberChar_of_isNumber h
    obtain ⟨hs, h1, h2, h3, h4, h5, h6⟩ := isNumberChar_first (hall c List.mem_cons_self)
    obtain ⟨fuel, rfl⟩ := Nat.exists_eq_succ_of_ne_zero (Nat.ne_of_gt (Nat.lt_of_lt_of_le (by simp) hf))
    have htake : (c :: t ++ rest).takeWhile isNumberChar = c :: t := by
      rw [List.takeWhile_append_of_pos hall, hrest.not_number, List.append_nil]
    have hdrop : (c :: t ++ rest).dropWhile isNumberChar = rest := by
      have := List.takeWhile_append_dropWhile (p := isNumberChar) (l := c :: t ++ rest)
      rw [htake] at this
      exact List.append_cancel_left this
    have hskip : skipSpace (c :: t ++ rest) = c :: (t ++ rest) := by simp [skipSpace, hs]
    rw [value, hskip]
    simp only [h1, h2, h3, h4, h5, h6, if_false]
    rw [← List.cons_append, number, htake, hdrop, if_pos h]
    rfl

theorem solid_number {t : List UInt8} (h : isNumber t = true) : Solid t := by
  cases t with
  | nil => exact absurd h (by decide)
  | cons c t =>
    have hc := isNumberChar_of_isNumber h c List.mem_cons_self
    refine ⟨c, t, rfl, (isNumberChar_first hc).1, ?_⟩
    rintro rfl
    cases hc

/-! ## Arrays and objects -/

/-- The values, if there is one at every place. -/
def allSome {α : Type*} : List (Option α) → Option (List α)
  | [] => some []
  | o :: os => o.bind fun a => (allSome os).map (a :: ·)

theorem allSome_eq_some {α : Type*} {os : List (Option α)} {as : List α} :
    allSome os = some as ↔ os = as.map some := by
  induction os generalizing as with
  | nil => cases as <;> simp [allSome]
  | cons o os ih =>
    cases o with
    | none => cases as <;> simp [allSome]
    | some a => cases as <;> simp [allSome, Option.map_eq_some_iff, ih, and_comm]

theorem allSome_map_ite {α β : Type*} (p : α → Prop) [DecidablePred p] (f : α → β) (xs : List α) :
    allSome (xs.map fun x => if p x then some (f x) else none) =
      if ∀ x ∈ xs, p x then some (xs.map f) else none := by
  induction xs with
  | nil => simp [allSome]
  | cons x xs ih =>
    rw [List.map_cons, allSome, ih]
    by_cases hx : p x
    · by_cases hxs : ∀ y ∈ xs, p y
      · rw [if_pos hx, if_pos hxs, if_pos (List.forall_mem_cons.2 ⟨hx, hxs⟩)]
        rfl
      · rw [if_pos hx, if_neg hxs, if_neg fun h => hxs (List.forall_mem_cons.1 h).2]
        rfl
    · rw [if_neg hx, if_neg fun h => hx (List.forall_mem_cons.1 h).1]
      rfl

theorem expect_here (c : UInt8) (h : isSpace c = false) (t : List UInt8) : expect c (c :: t) = some t := by
  simp [expect, skipSpace, h]

theorem expect_other {c d : UInt8} (h : isSpace d = false) (hne : d ≠ c) (t : List UInt8) :
    expect c (d :: t) = none := by
  simp [expect, skipSpace, h, hne]

theorem expect_solid {text : List UInt8} (h : Solid text) (rest : List UInt8) : expect 93 (text ++ rest) = none := by
  obtain ⟨c, tail, rfl, hs, hne⟩ := h
  exact expect_other hs hne _

/-- An object without its last brace goes on behind its last member. -/
theorem objectText_concat {members : List (List UInt8 × List UInt8)} (hne : members ≠ [])
    (key text : List UInt8) :
    objectText (members ++ [(key, text)]) = (objectText members).dropLast ++ 44 :: (memberText key text ++ [125]) := by
  have hchop : (objectText members).dropLast =
      123 :: [44].intercalate (members.map fun m => memberText m.1 m.2) := by
    rw [objectText, ← List.cons_append, List.dropLast_concat]
  rw [hchop, objectText, List.map_append, List.map_singleton, intercalate_concat [44] (by simpa using hne)]
  simp only [List.append_assoc, List.cons_append, List.nil_append]

/-- The elements behind the opening bracket are all read, or there is one that cannot be. -/
theorem elements_intercalate {items : List (Option Value × List UInt8)} (hne : items ≠ [])
    (h : ∀ i ∈ items, Scans i.1 i.2) (fuel : Nat) (rest : List UInt8)
    (hf : ([44].intercalate (items.map (·.2))).length < fuel) :
    elements fuel ([44].intercalate (items.map (·.2)) ++ 93 :: rest) =
      (allSome (items.map (·.1))).map (·, rest) := by
  induction items generalizing fuel with
  | nil => exact absurd rfl hne
  | cons i items ih =>
    obtain ⟨fuel, rfl⟩ := Nat.exists_eq_succ_of_ne_zero (Nat.ne_of_gt (Nat.lt_of_le_of_lt (Nat.zero_le _) hf))
    have hi := h i List.mem_cons_self
    cases items with
    | nil =>
      rw [List.map_singleton, List.intercalate_singleton] at hf ⊢
      rw [elements, hi fuel _ (by omega) (stops_bracket rest)]
      cases hr : i.1 with
      | none => simp [hr, allSome]
      | some v => simp [hr, allSome, expect_here 93 rfl, expect_other (c := 44) (d := 93) rfl (by decide)]
    | cons j items =>
      rw [List.map_cons, List.map_cons, List.intercalate_cons_cons] at hf ⊢
      rw [List.length_append, List.length_append, List.length_singleton] at hf
      have htail := ih (List.cons_ne_nil j items) (fun k hk => h k (List.mem_cons_of_mem _ hk))
        fuel (by rw [List.map_cons]; omega)
      rw [List.map_cons] at htail
      rw [List.append_assoc, List.append_assoc, List.singleton_append, elements,
        hi fuel _ (by omega) (stops_comma _), List.map_cons, allSome]
      cases hr : i.1 with
      | none => rfl
      | some v =>
        simp only [Option.map_some, Option.bind_eq_bind, Option.bind_some, expect_here 44 rfl, htail]
        cases allSome ((j :: items).map (·.1)) <;> rfl

/-- An array is read when each of its elements is; the first one must not look like its end. -/
theorem scans_array {items : List (Option Value × List UInt8)} (h : ∀ i ∈ items, Scans i.1 i.2)
    (hsolid : ∀ i ∈ items.head?, Solid i.2) :
    Scans ((allSome (items.map (·.1))).map .array) (arrayText (items.map (·.2))) := by
  intro fuel rest hf _
  simp only [arrayText, List.length_cons, List.length_append, List.length_nil] at hf
  obtain ⟨fuel, rfl⟩ := Nat.exists_eq_succ_of_ne_zero (n := fuel) (by omega)
  have hskip : skipSpace (arrayText (items.map (·.2)) ++ rest) =
      91 :: ([44].intercalate (items.map (·.2)) ++ 93 :: rest) := by
    simp [arrayText, skipSpace, isSpace]
  rw [value, hskip]
  simp only [show (91 : UInt8) ≠ 34 by decide, if_true, if_false]
  cases items with
  | nil => simp [List.intercalate, expect_here 93 rfl, allSome]
  | cons i items =>
    have hfirst : expect 93 ([44].intercalate ((i :: items).map (·.2)) ++ 93 :: rest) = none := by
      have hi := hsolid i (by simp)
      cases items with
      | nil => simpa [List.intercalate] using expect_solid hi (93 :: rest)
      | cons j items =>
        rw [List.map_cons, List.map_cons, List.intercalate_cons_cons, List.append_assoc, List.append_assoc]
        exact expect_solid hi _
    rw [hfirst]
    simp only [elements_intercalate (List.cons_ne_nil i items) h fuel rest (by omega)]
    cases allSome ((i :: items).map (·.1)) <;> rfl

/-- A member as it is written: its key, what its value scans as, and the value's text. -/
structure Member where
  key : List UInt8
  result : Option Value
  text : List UInt8

namespace Member

def read (m : Member) : Option (List UInt8 × Value) := m.result.map (m.key, ·)

/-- Its key stands in its quotes as it is and its text scans as it says. -/
def Written (m : Member) : Prop := Verbatim m.key ∧ Scans m.result m.text

theorem written_mk {key text : List UInt8} {r : Option Value} (hkey : Verbatim key) (h : Scans r text) :
    Written ⟨key, r, text⟩ := ⟨hkey, h⟩

/-- The object with these members, as a value, and as a text. -/
def objectValue (ms : List Member) : Option Value := (allSome (ms.map read)).map .object

def objectOf (ms : List Member) : List UInt8 := objectText (ms.map fun m => (m.key, m.text))

/-- A member whose value is an object. -/
def ofObject (key : List UInt8) (ms : List Member) : Member := ⟨key, objectValue ms, objectOf ms⟩

end Member

/-- The member with its key, its colon and its value, and what follows it. -/
theorem members_step {m : Member} (h : m.Written) {fuel : Nat} (hf : m.text.length ≤ fuel) {rest : List UInt8} (hrest : Stops rest) :
    members (fuel + 1) (memberText m.key m.text ++ rest) = m.read.bind fun p =>
      match expect 44 rest with
      | some t => (members fuel t).map fun q => (p :: q.1, q.2)
      | none => (expect 125 rest).map fun t => ([p], t) := by
  have htext : memberText m.key m.text ++ rest = 34 :: (m.key ++ 34 :: 58 :: (m.text ++ rest)) := by
    simp [memberText, quoted]
  rw [htext, members]
  simp only [expect_here 34 rfl, expect_here 58 rfl, string_verbatim h.1, h.2 fuel rest hf hrest, Member.read,
    Option.bind_eq_bind, Option.bind_some]
  cases m.result <;> rfl

theorem members_intercalate {ms : List Member} (hne : ms ≠ [])
    (h : ∀ m ∈ ms, m.Written) (fuel : Nat) (rest : List UInt8)
    (hf : ([44].intercalate (ms.map fun m => memberText m.key m.text)).length < fuel) :
    members fuel ([44].intercalate (ms.map fun m => memberText m.key m.text) ++ 125 :: rest) =
      (allSome (ms.map Member.read)).map (·, rest) := by
  induction ms generalizing fuel with
  | nil => exact absurd rfl hne
  | cons m ms ih =>
    obtain ⟨fuel, rfl⟩ := Nat.exists_eq_succ_of_ne_zero (Nat.ne_of_gt (Nat.lt_of_le_of_lt (Nat.zero_le _) hf))
    have hm := h m List.mem_cons_self
    have hlen : m.text.length ≤ (memberText m.key m.text).length := by
      rw [memberText, List.length_append, List.length_cons]
      omega
    cases ms with
    | nil =>
      rw [List.map_singleton, List.intercalate_singleton] at hf ⊢
      rw [members_step hm (by omega) (stops_brace rest), expect_here 125 rfl,
        expect_other (c := 44) (d := 125) rfl (by decide), List.map_cons, allSome]
      cases m.read <;> rfl
    | cons n ms =>
      rw [List.map_cons, List.map_cons, List.intercalate_cons_cons] at hf ⊢
      rw [List.length_append, List.length_append, List.length_singleton] at hf
      have htail := ih (List.cons_ne_nil n ms) (fun k hk => h k (List.mem_cons_of_mem _ hk))
        fuel (by rw [List.map_cons]; omega)
      rw [List.map_cons] at htail
      rw [List.append_assoc, List.append_assoc, List.singleton_append,
        members_step hm (by omega) (stops_comma _), expect_here 44 rfl, List.map_cons, allSome]
      cases m.read with
      | none => rfl
      | some p =>
        rw [Option.bind_some, Option.bind_some]
        dsimp only
        rw [htail]
        cases allSome ((n :: ms).map Member.read) <;> rfl

/-- An object is read when each of its members is. -/
theorem scans_object {ms : List Member} (h : ∀ m ∈ ms, m.Written) :
    Scans (Member.objectValue ms) (Member.objectOf ms) := by
  intro fuel rest hf _
  have htext : Member.objectOf ms = 123 :: ([44].intercalate (ms.map fun m => memberText m.key m.text) ++ [125]) := by
    simp [Member.objectOf, objectText, Function.comp_def]
  rw [htext, List.length_cons, List.length_append, List.length_singleton] at hf
  obtain ⟨fuel, rfl⟩ := Nat.exists_eq_succ_of_ne_zero (n := fuel) (by omega)
  have hskip : skipSpace (Member.objectOf ms ++ rest) =
      123 :: ([44].intercalate (ms.map fun m => memberText m.key m.text) ++ 125 :: rest) := by
    simp [htext, skipSpace, isSpace]
  rw [value, hskip, Member.objectValue]
  simp only [show (123 : UInt8) ≠ 34 by decide, show (123 : UInt8) ≠ 91 by decide, if_true, if_false]
  cases ms with
  | nil => simp [expect_here 125 rfl, allSome]
  | cons m ms =>
    have hfirst : expect 125 ([44].intercalate ((m :: ms).map fun m => memberText m.key m.text) ++ 125 :: rest) =
        none := by
      cases ms <;> exact expect_other rfl (by decide) _
    rw [hfirst]
    simp only [members_intercalate (List.cons_ne_nil m ms) h fuel rest (by omega)]
    cases allSome ((m :: ms).map Member.read) <;> rfl

theorem Member.written_ofObject {key : List UInt8} (hkey : Verbatim key) {ms : List Member}
    (h : ∀ m ∈ ms, m.Written) : (ofObject key ms).Written := ⟨hkey, scans_object h⟩

theorem solid_object (members : List (List UInt8 × List UInt8)) : Solid (objectText members) :=
  ⟨123, _, rfl, rfl, by decide⟩

/-- A document that is one value. -/
theorem parse_of_scans {r : Option Value} {text : List UInt8} (h : Scans r text) : parse text = r := by
  have hv := h text.length [] (Nat.le_refl _) trivial
  rw [List.append_nil] at hv
  rw [parse, hv]
  cases r <;> rfl

/-! ## Texts that are numbers, and clean texts -/

theorem takeWhile_digits {ds : List UInt8} (h : ∀ b ∈ ds, isDigit b = true) (rest : List UInt8)
    (hrest : ∀ b ∈ rest.head?, isDigit b = false) :
    (ds ++ rest).takeWhile isDigit = ds ∧ (ds ++ rest).dropWhile isDigit = rest := by
  cases rest with
  | nil => simpa using h
  | cons c rest =>
    have hc : isDigit c = false := hrest c rfl
    constructor
    · rw [List.takeWhile_append_of_pos h, List.takeWhile_cons_of_neg (by simp [hc]), List.append_nil]
    · rw [List.dropWhile_append_of_pos h, List.dropWhile_cons_of_neg (by simp [hc])]

theorem isNumber_of_int {ds : List UInt8} (h : ∀ b ∈ ds, isDigit b = true) (hint : isInt ds = true) (rest : List UInt8)
    (hrest : ∀ b ∈ rest.head?, isDigit b = false) (hfrac : isFraction rest = true) :
    isNumber (ds ++ rest) = true ∧ isNumber (45 :: (ds ++ rest)) = true := by
  obtain ⟨htake, hdrop⟩ := takeWhile_digits h rest hrest
  have hne : (ds ++ rest).head? ≠ some 45 := by
    cases ds with
    | nil => cases hint
    | cons c ds =>
      have := h c List.mem_cons_self
      rintro ⟨⟩
      cases this
  constructor
  · rw [isNumber, if_neg hne, htake, hdrop, hint, hfrac]
    rfl
  · have hminus : (45 :: (ds ++ rest)).head? = some 45 := rfl
    rw [isNumber, if_pos hminus, List.tail_cons, htake, hdrop, hint, hfrac]
    rfl

/-- A point and at least one digit. -/
theorem isFraction_point {ds : List UInt8} (h : ∀ b ∈ ds, isDigit b = true) (hne : ds ≠ []) :
    isFraction (46 :: ds) = true := by
  obtain ⟨htake, hdrop⟩ := takeWhile_digits h [] (by simp)
  rw [List.append_nil] at htake hdrop
  rw [isFraction, if_pos rfl, htake, hdrop]
  simp [hne, isExponent]

theorem utf8EncodeChar_ascii {b : UInt8} (h : b < 128) : String.utf8EncodeChar (Char.ofUInt8 b) = [b] := by
  have hval : (Char.ofUInt8 b).val.toNat = b.toNat := UInt8.toNat_toUInt32 b
  have hle : (Char.ofUInt8 b).val.toNat ≤ 127 := by
    have := UInt8.lt_iff_toNat_lt.1 h
    rw [hval]
    exact Nat.le_of_lt_succ this
  rw [String.utf8EncodeChar, if_pos hle, hval, UInt8.ofNat_toNat]

theorem isUtf8_of_ascii {t : List UInt8} (h : ∀ b ∈ t, b < 128) : isUtf8 t = true := by
  have hchars : (t.map Char.ofUInt8).flatMap String.utf8EncodeChar = t := by
    induction t with
    | nil => rfl
    | cons b t ih =>
      rw [List.map_cons, List.flatMap_cons, utf8EncodeChar_ascii (h b List.mem_cons_self),
        ih fun c hc => h c (List.mem_cons_of_mem _ hc)]
      rfl
  rw [isUtf8, ByteArray.validateUTF8_eq_true_iff]
  refine ⟨t.map Char.ofUInt8, ?_⟩
  rw [List.utf8Encode, hchars]
  exact ByteArray.ext List.data_toByteArray.symm

/-- Printable ASCII without quotes and backslashes. -/
def isPlainByte (b : UInt8) : Bool := 32 ≤ b && b < 128 && b ≠ 34 && b ≠ 92

theorem isPlainByte_of_isDigit {b : UInt8} (h : isDigit b = true) : isPlainByte b = true := by
  simp only [isDigit, Bool.and_eq_true, decide_eq_true_eq, UInt8.le_iff_toNat_le] at h
  obtain ⟨h1, h2⟩ := h
  have h3 : (48 : UInt8).toNat = 48 := rfl
  have h4 : (57 : UInt8).toNat = 57 := rfl
  rw [h3] at h1
  rw [h4] at h2
  have hlow : (32 : UInt8) ≤ b := UInt8.le_iff_toNat_le.2 (show 32 ≤ b.toNat by omega)
  have hhigh : b < (128 : UInt8) := UInt8.lt_iff_toNat_lt.2 (show b.toNat < 128 by omega)
  have hquote : b ≠ 34 := by
    rintro rfl
    exact absurd h1 (by decide)
  have hback : b ≠ 92 := by
    rintro rfl
    exact absurd h2 (by decide)
  simp [isPlainByte, hlow, hhigh, hquote, hback]

theorem verbatim_of_plain {t : List UInt8} (h : ∀ b ∈ t, isPlainByte b = true) : Verbatim t := by
  simp only [isPlainByte, Bool.and_eq_true, decide_eq_true_eq, and_assoc] at h
  refine ⟨?_, isUtf8_of_ascii fun b hb => (h b hb).2.1, fun b hb => (h b hb).1⟩
  induction t with
  | nil => rfl
  | cons b t ih =>
    obtain ⟨-, -, h34, h92⟩ := h b List.mem_cons_self
    have ht := ih fun c hc => h c (List.mem_cons_of_mem _ hc)
    have hcons : escape (b :: t) = (if b = 92 ∨ b = 34 then [92, b] else [b]) ++ escape t := rfl
    rw [hcons, if_neg (by simp [h34, h92]), ht]
    rfl

end Lib.Json
