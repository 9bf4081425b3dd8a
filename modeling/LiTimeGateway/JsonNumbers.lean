import LiTimeGateway.JsonValues
import LiTimeGateway.Lib.JsonNumber
/-!
# The numbers the firmware writes

What a reader takes from `String(unsigned)` and `String(float, decimals)`: the
number itself, and the float rounded to so many decimals, a half away from zero.
-/

namespace LiTimeGateway

open Lib.Json

theorem digit_value {c : Char} (h : c.isDigit = true) : (ch c).toNat - 48 = c.toNat - '0'.toNat := by
  have hle : c.val.toNat ≤ 57 := by
    simp only [Char.isDigit, Bool.and_eq_true, decide_eq_true_eq] at h
    exact h.2
  have hbyte : (ch c).toNat = c.val.toNat % 256 := UInt32.toNat_toUInt8 c.val
  rw [hbyte, Nat.mod_eq_of_lt (by omega)]
  rfl

theorem foldl_digits {cs : List Char} (h : ∀ c ∈ cs, c.isDigit = true) (n : Nat) :
    (cs.map ch).foldl (fun n d => n * 10 + (d.toNat - 48)) n = Nat.ofDigitChars 10 cs n := by
  induction cs generalizing n with
  | nil => rfl
  | cons c cs ih =>
    rw [List.map_cons, List.foldl_cons, ih fun d hd => h d (List.mem_cons_of_mem c hd), Nat.ofDigitChars_cons,
      digit_value (h c List.mem_cons_self), Nat.mul_comm n]

theorem digitsValue_decimal (n : Nat) : digitsValue (decimal n) = n := by
  have hdigits : ∀ c ∈ Nat.toDigits 10 n, c.isDigit = true :=
    fun c hc => Nat.isDigit_of_mem_toDigits (by decide) (by decide) hc
  rw [digitsValue, decimal, foldl_digits hdigits, Nat.ofDigitChars_ten_toDigits]

theorem length_paddedDigits (width n : Nat) : (paddedDigits width n).length = width := by
  induction width generalizing n with
  | zero => rfl
  | succ width ih => rw [paddedDigits, List.length_append, ih, List.length_singleton]

theorem digitsValue_paddedDigits (width n : Nat) : digitsValue (paddedDigits width n) = n % 10 ^ width := by
  induction width generalizing n with
  | zero => rw [pow_zero, Nat.mod_one]; rfl
  | succ width ih =>
    have hdigit : ∀ d < 10, (ch (Nat.digitChar d)).toNat - 48 = d := by decide
    rw [paddedDigits, digitsValue_concat, ih, hdigit _ (Nat.mod_lt n (by decide)), Nat.pow_succ', Nat.mod_mul]
    omega

theorem decimal_ne_nil (n : Nat) : decimal n ≠ [] := by simp [decimal, Nat.toDigits_ne_nil]

theorem numberValue_decimal (n : Nat) : numberValue (decimal n) = n := by
  rw [numberValue_digits (isDigit_decimal n) (decimal_ne_nil n), digitsValue_decimal]

/-- The float in units of its last decimal, as it is written. -/
def units (value : ℚ) (decimals : Nat) : ℤ :=
  (if value < 0 then -1 else 1) * ⌊|value| * 10 ^ decimals + 1 / 2⌋

theorem numberValue_floatText (value : ℚ) (decimals : Nat) :
    numberValue (floatText value decimals) = units value decimals / 10 ^ decimals := by
  set scaled := ⌊|value| * 10 ^ decimals + 1 / 2⌋.toNat with hscaled
  have hnonneg : 0 ≤ ⌊|value| * 10 ^ decimals + 1 / 2⌋ := Int.floor_nonneg.2 (by positivity)
  have hcast : ((scaled : ℤ) : ℚ) = ⌊|value| * 10 ^ decimals + 1 / 2⌋ := by rw [hscaled, Int.toNat_of_nonneg hnonneg]
  have hwhole := isDigit_decimal (scaled / 10 ^ decimals)
  have hne := decimal_ne_nil (scaled / 10 ^ decimals)
  have hfraction := isDigit_paddedDigits decimals scaled
  have hdigits : digitsValue (decimal (scaled / 10 ^ decimals) ++ paddedDigits decimals scaled) = scaled := by
    rw [digitsValue_append, digitsValue_decimal, digitsValue_paddedDigits, length_paddedDigits, Nat.div_add_mod']
  have hmagnitude : numberValue (decimal (scaled / 10 ^ decimals) ++ 46 :: paddedDigits decimals scaled) =
      scaled / 10 ^ decimals := by
    rw [numberValue_point hwhole hne hfraction, hdigits, length_paddedDigits]
  have htext : floatText value decimals = (if value < 0 then [45] else []) ++
      (decimal (scaled / 10 ^ decimals) ++ 46 :: paddedDigits decimals scaled) := by
    simp only [floatText, List.append_assoc, ← hscaled]
    rfl
  rw [htext, units]
  push_cast
  rw [← hcast]
  split
  · rw [List.singleton_append, numberValue_minus (head_digits hwhole _ hne), hmagnitude]
    push_cast
    ring
  · rw [List.nil_append, hmagnitude]
    push_cast
    ring

/-- Half a unit, when there are `p` units to one. -/
theorem abs_div_sub_le {n a p : ℚ} (hp : 0 < p) (h : |n - a * p| ≤ 1 / 2) : |n / p - a| ≤ 1 / (2 * p) :=
  calc |n / p - a|
    _ = |n - a * p| / p := by rw [← abs_of_pos hp, ← abs_div, abs_of_pos hp, sub_div, mul_div_cancel_right₀ _ hp.ne']
    _ ≤ 1 / 2 / p := div_le_div_of_nonneg_right h hp.le
    _ = 1 / (2 * p) := div_div _ _ _

/-- A number with the sign of `x` is as far from `x` as their magnitudes are apart. -/
theorem abs_signed_sub (x : ℚ) (n : ℤ) (scale : ℚ) :
    |((if x < 0 then -1 else 1) * n : ℤ) - x * scale| = |n - |x| * scale| := by
  split
  · next hneg =>
    rw [abs_of_neg hneg, ← abs_neg]
    congr 1
    push_cast
    ring
  · next hpos =>
    rw [abs_of_nonneg (not_lt.1 hpos)]
    push_cast
    ring_nf

/-- The text is off by half a unit of its last place at most. -/
theorem abs_floatText_sub_le (value : ℚ) (decimals : Nat) :
    |numberValue (floatText value decimals) - value| ≤ 1 / (2 * 10 ^ decimals) := by
  have hpow : (0 : ℚ) < 10 ^ decimals := by positivity
  have hfloor := Int.floor_le (|value| * 10 ^ decimals + 1 / 2)
  have hlt := Int.lt_floor_add_one (|value| * 10 ^ decimals + 1 / 2)
  rw [numberValue_floatText]
  apply abs_div_sub_le hpow
  rw [units, abs_signed_sub]
  exact abs_le.2 ⟨by linarith, by linarith⟩

end LiTimeGateway
