import Mathlib.Algebra.Order.Round
import Mathlib.Data.Rat.Floor
/-!
# What the pages use of JavaScript

A text is a list of characters. Numbers are exact rationals: `Math.round` is
Mathlib's `round`, which rounds a half up, an integer is written in decimal (as
JavaScript does below 10^21), and `toFixed` follows its definition there.
-/

namespace LiTimeGateway.JavaScript

abbrev Text := List Char

/-- The text of a literal. -/
def text (s : String) : Text := s.toList

/-- An integer in a template. -/
def numberText (n : ℤ) : Text := (if n < 0 then ['-'] else []) ++ Nat.toDigits 10 n.natAbs

/-- `Number.prototype.toFixed`, with at least one digit behind the point. -/
def toFixed (x : ℚ) (digits : Nat) : Text :=
  let n := Nat.toDigits 10 (round (|x| * 10 ^ digits)).natAbs
  let padded := List.replicate (digits + 1 - n.length) '0' ++ n
  (if x < 0 then ['-'] else []) ++ padded.take (padded.length - digits) ++ ['.'] ++ padded.drop (padded.length - digits)

example : toFixed (1085 / 1000) 1 = text "1.1" ∧ toFixed (-2 / 1000) 2 = text "-0.00" := by decide +kernel

/-- `String.prototype.replaceAll` for a search text of one character. -/
def replaceAll (t : Text) (search : Char) (replacement : Text) : Text :=
  t.flatMap fun c => if c = search then replacement else [c]

/-- The digits at the start of a text. -/
def leadingNumber (t : Text) : Nat := Nat.ofDigitChars 10 (t.takeWhile Char.isDigit) 0

theorem isDigit_toDigits (n : Nat) : ∀ c ∈ Nat.toDigits 10 n, c.isDigit = true :=
  fun _ hc => Nat.isDigit_of_mem_toDigits (by decide) (by decide) hc

/-- A number ends where a character stands that is no digit. -/
theorem takeWhile_number (n : Nat) {rest : Text} (h : ∀ c ∈ rest.head?, c.isDigit = false) :
    (Nat.toDigits 10 n ++ rest).takeWhile Char.isDigit = Nat.toDigits 10 n := by
  rw [List.takeWhile_append_of_pos (isDigit_toDigits n)]
  cases rest with
  | nil => exact List.append_nil _
  | cons c rest => rw [List.takeWhile_cons_of_neg (by simpa using h c rfl), List.append_nil]

theorem dropWhile_number (n : Nat) {rest : Text} (h : ∀ c ∈ rest.head?, c.isDigit = false) :
    (Nat.toDigits 10 n ++ rest).dropWhile Char.isDigit = rest := by
  rw [List.dropWhile_append_of_pos (isDigit_toDigits n)]
  cases rest with
  | nil => rfl
  | cons c rest => exact List.dropWhile_cons_of_neg (by simpa using h c rfl)

theorem leadingNumber_digits (n : Nat) {rest : Text} (h : ∀ c ∈ rest.head?, c.isDigit = false) :
    leadingNumber (Nat.toDigits 10 n ++ rest) = n := by
  rw [leadingNumber, takeWhile_number n h, Nat.ofDigitChars_ten_toDigits]

theorem numberText_of_nonneg {n : ℤ} (h : 0 ≤ n) : numberText n = Nat.toDigits 10 n.toNat := by
  obtain ⟨k, rfl⟩ := Int.eq_ofNat_of_zero_le h
  rw [numberText, if_neg (by omega), List.nil_append]
  rfl

end LiTimeGateway.JavaScript
