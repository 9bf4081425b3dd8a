import LiTimeGateway.BatteryData
import LiTimeGateway.Lib.JsonText
/-!
# The firmware's values as JSON

The documents and lines of the firmware are put together from decimal numbers,
floats, `true`, `false`, `null` and texts in quotes. Each of the number texts is
a JSON number, whatever the number is.
-/

namespace LiTimeGateway

open Lib.Json

/-- `jsonEscape` of `NetworkManager.cpp`, and of `StorageManager.cpp`, which are the same. -/
def jsonEscape : Bytes → Bytes
  | [] => []
  | c :: rest => (if c = ch '\\' ∨ c = ch '"' then [ch '\\', c] else [c]) ++ jsonEscape rest

theorem jsonEscape_eq (t : Bytes) : jsonEscape t = escape t := by
  induction t with
  | nil => rfl
  | cons c t ih =>
    rw [jsonEscape, ih]
    rfl

/-- The text of a JSON array with these elements. -/
def jsonArray (elements : List Bytes) : Bytes :=
  ascii "[" ++ (ascii ",").intercalate elements ++ ascii "]"

/-- `String(int)`. -/
def signedDecimal (n : Int) : Bytes := (if n < 0 then ascii "-" else []) ++ decimal n.natAbs

/-- `condition ? "true" : "false"`. -/
def boolText (b : Bool) : Bytes := if b then ascii "true" else ascii "false"

theorem isDigit_ch {c : Char} (h : c.isDigit = true) : isDigit (ch c) = true := by
  obtain ⟨h1, h2⟩ := toNat_digit h
  have hlow : (48 : UInt8) ≤ ch c := UInt8.le_iff_toNat_le.2 h1
  have hhigh : ch c ≤ (57 : UInt8) := UInt8.le_iff_toNat_le.2 h2
  simp [isDigit, hlow, hhigh]

theorem isDigit_decimal (n : Nat) : ∀ b ∈ decimal n, isDigit b = true := by
  intro b hb
  obtain ⟨c, hc, rfl⟩ := List.mem_map.1 hb
  exact isDigit_ch (Nat.isDigit_of_mem_toDigits (by decide) (by decide) hc)

theorem isDigit_paddedDigits (width n : Nat) : ∀ b ∈ paddedDigits width n, isDigit b = true := by
  induction width generalizing n with
  | zero => simp [paddedDigits]
  | succ width ih =>
    intro b hb
    rw [paddedDigits, List.mem_append, List.mem_singleton] at hb
    rcases hb with hb | rfl
    · exact ih _ b hb
    · have hall : ∀ d < 10, isDigit (ch (Nat.digitChar d)) = true := by decide
      exact hall _ (Nat.mod_lt _ (by decide))

/-- Only zero is written with a zero in front. -/
theorem head_toDigits {n : Nat} (h : 0 < n) : (Nat.toDigits 10 n).head? ≠ some '0' := by
  induction n using Nat.strongRecOn with
  | _ n ih =>
    rw [Nat.toDigits_eq_if (by decide)]
    split
    · next hlt =>
      have hall : ∀ d < 10, 0 < d → ([Nat.digitChar d] : List Char).head? ≠ some '0' := by decide
      exact hall n hlt h
    · next hge =>
      have hhead := ih (n / 10) (by omega) (by omega)
      cases hd : Nat.toDigits 10 (n / 10) with
      | nil => exact absurd hd Nat.toDigits_ne_nil
      | cons c cs => simpa [hd] using hhead

theorem eq_zero_digit {c : Char} (h : c.isDigit = true) (h48 : ch c = 48) : c = '0' := by
  simp only [Char.isDigit, Bool.and_eq_true, decide_eq_true_eq] at h
  have h1 : (ch c).toNat = c.val.toNat % 256 := UInt32.toNat_toUInt8 c.val
  have h2 : c.val.toNat ≤ 57 := h.2
  have h3 : (48 : UInt8).toNat = 48 := rfl
  rw [h48, h3] at h1
  have h4 : c.val.toNat = '0'.val.toNat := by
    have : '0'.val.toNat = 48 := rfl
    omega
  exact Char.ext (UInt32.toNat_inj.1 h4)

theorem isInt_decimal (n : Nat) : isInt (decimal n) = true := by
  have hne : decimal n ≠ [] := by simp [decimal, Nat.toDigits_ne_nil]
  by_cases hn : n = 0
  · subst hn
    rfl
  · have hhead : (decimal n).head? ≠ some 48 := by
      intro h
      rw [decimal, List.head?_map, Option.map_eq_some_iff] at h
      obtain ⟨c, hc, h48⟩ := h
      have hdigit : c.isDigit = true :=
        Nat.isDigit_of_mem_toDigits (by decide) (by decide) (List.mem_of_mem_head? hc)
      exact head_toDigits (Nat.pos_of_ne_zero hn) (eq_zero_digit hdigit h48 ▸ hc)
    simp [isInt, hne, hhead]

theorem isNumber_decimal (n : Nat) : isNumber (decimal n) = true := by
  have h := isNumber_of_int (isDigit_decimal n) (isInt_decimal n) [] (by simp) rfl
  rw [List.append_nil] at h
  exact h.1

theorem isNumber_signedDecimal (n : Int) : isNumber (signedDecimal n) = true := by
  have h := isNumber_of_int (isDigit_decimal n.natAbs) (isInt_decimal n.natAbs) [] (by simp) rfl
  rw [List.append_nil] at h
  rw [signedDecimal]
  split
  · exact h.2
  · exact h.1

theorem paddedDigits_ne_nil {width : Nat} (h : 0 < width) (n : Nat) : paddedDigits width n ≠ [] := by
  cases width with
  | zero => cases h
  | succ width => simp [paddedDigits]

theorem isNumber_floatText (value : ℚ) {decimals : Nat} (h : 0 < decimals) :
    isNumber (floatText value decimals) = true := by
  have hnum := fun (whole scaled : Nat) =>
    isNumber_of_int (isDigit_decimal whole) (isInt_decimal whole) (46 :: paddedDigits decimals scaled)
      (by rintro b ⟨⟩; rfl) (isFraction_point (isDigit_paddedDigits _ _) (paddedDigits_ne_nil h scaled))
  rw [floatText]
  rw [List.append_assoc, List.append_assoc]
  split
  · exact (hnum _ _).2
  · exact (hnum _ _).1

theorem scans_decimal (n : Nat) : Scans (some (.number (decimal n))) (decimal n) :=
  scans_number (isNumber_decimal n)

theorem scans_boolText (b : Bool) : Scans (some (.bool b)) (boolText b) := by
  cases b with
  | true => exact scans_true
  | false => exact scans_false

/-- What `timestampText` is read as. -/
def timestampValue (now : Int) : Value :=
  if now > 1700000000 then .number (timestampText now) else .null

theorem scans_timestampText (now : Int) : Scans (some (timestampValue now)) (timestampText now) := by
  unfold timestampValue timestampText
  split
  · exact scans_decimal _
  · exact scans_null

end LiTimeGateway
