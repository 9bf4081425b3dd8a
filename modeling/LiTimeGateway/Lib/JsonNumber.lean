import LiTimeGateway.Lib.JsonText
import Mathlib.Data.Rat.Defs
import Mathlib.Algebra.Order.Field.Rat
import Mathlib.Data.List.Induction
import Mathlib.Tactic.Ring
/-!
# What a JSON number stands for

`numberValue` is the rational number a JSON number denotes, sign, fraction and
exponent included. The rules give it for the texts a program writes: digits
(`numberValue_digits`), and digits around a point (`numberValue_point`), with or
without a minus sign in front (`numberValue_minus`).
-/

namespace Lib.Json

def digitsValue (digits : List UInt8) : Nat := digits.foldl (fun n d => n * 10 + (d.toNat - 48)) 0

/-- The exponent behind its `e`, or zero. -/
def exponentValue : List UInt8 → ℤ
  | [] => 0
  | _ :: t =>
    if t.head? = some 45 then -digitsValue t.tail
    else if t.head? = some 43 then digitsValue t.tail
    else digitsValue t

/-- The number without its sign. -/
def magnitude (t : List UInt8) : ℚ :=
  let whole := t.takeWhile isDigit
  let rest := t.dropWhile isDigit
  if rest.head? = some 46 then
    let fraction := rest.tail.takeWhile isDigit
    digitsValue (whole ++ fraction) / 10 ^ fraction.length * 10 ^ exponentValue (rest.tail.dropWhile isDigit)
  else digitsValue whole * 10 ^ exponentValue rest

def numberValue (t : List UInt8) : ℚ := if t.head? = some 45 then -magnitude t.tail else magnitude t

theorem digitsValue_concat (ds : List UInt8) (d : UInt8) :
    digitsValue (ds ++ [d]) = digitsValue ds * 10 + (d.toNat - 48) := by
  rw [digitsValue, List.foldl_append]
  rfl

theorem digitsValue_append (ds es : List UInt8) :
    digitsValue (ds ++ es) = digitsValue ds * 10 ^ es.length + digitsValue es := by
  induction es using List.reverseRecOn with
  | nil => simp [digitsValue]
  | append_singleton es e ih =>
    rw [← List.append_assoc, digitsValue_concat, ih, digitsValue_concat, List.length_append, List.length_singleton,
      pow_succ]
    ring

section Written

variable {ds : List UInt8} (h : ∀ b ∈ ds, isDigit b = true)
include h

/-- Digits do not start with a minus sign. -/
theorem head_digits (rest : List UInt8) (hne : ds ≠ []) : (ds ++ rest).head? ≠ some 45 := by
  obtain ⟨c, ds, rfl⟩ := List.exists_cons_of_ne_nil hne
  have hc := h c List.mem_cons_self
  rintro ⟨⟩
  cases hc

theorem magnitude_digits : magnitude ds = digitsValue ds := by
  obtain ⟨htake, hdrop⟩ := takeWhile_digits h [] (by simp)
  rw [List.append_nil] at htake hdrop
  simp [magnitude, htake, hdrop, exponentValue]

theorem magnitude_point {es : List UInt8} (he : ∀ b ∈ es, isDigit b = true) :
    magnitude (ds ++ 46 :: es) = digitsValue (ds ++ es) / 10 ^ es.length := by
  obtain ⟨htake, hdrop⟩ := takeWhile_digits h (46 :: es) (by rintro b ⟨⟩; rfl)
  obtain ⟨htake', hdrop'⟩ := takeWhile_digits he [] (by simp)
  rw [List.append_nil] at htake' hdrop'
  simp [magnitude, htake, hdrop, htake', hdrop', exponentValue]

theorem numberValue_digits (hne : ds ≠ []) : numberValue ds = digitsValue ds := by
  have hhead := head_digits h [] hne
  rw [List.append_nil] at hhead
  rw [numberValue, if_neg hhead, magnitude_digits h]

theorem numberValue_point (hne : ds ≠ []) {es : List UInt8} (he : ∀ b ∈ es, isDigit b = true) :
    numberValue (ds ++ 46 :: es) = digitsValue (ds ++ es) / 10 ^ es.length := by
  rw [numberValue, if_neg (head_digits h _ hne), magnitude_point h he]

end Written

theorem numberValue_minus {t : List UInt8} (h : t.head? ≠ some 45) : numberValue (45 :: t) = -numberValue t := by
  have hminus : (45 :: t).head? = some 45 := rfl
  rw [numberValue, if_pos hminus, List.tail_cons, numberValue, if_neg h]

end Lib.Json
