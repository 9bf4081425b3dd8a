import LiTimeGateway.Dashboard.ShowBattery
import LiTimeGateway.JsonNumbers
/-!
# Numbers on their way to the page

A number leaves the gateway with a few decimals, becomes the nearest double, and
is shown with as many decimals or with fewer. With as many, the page shows the
digits the gateway wrote; with fewer it rounds once more.
-/

namespace LiTimeGateway.Dashboard

open Lib.Json Lib.Binary64 JavaScript

/-- The number a text shows. -/
def shownValue (t : Text) : ℚ := numberValue (t.map ch)

/-- The text shows the value, up to this error. -/
def ShowsNumber (t : Text) (x error : ℚ) : Prop := |shownValue t - x| ≤ error

/-- A number in units of the last of so many decimals, as `toFixed` rounds it. -/
def fixedUnits (x : ℚ) (decimals : Nat) : ℤ := (if x < 0 then -1 else 1) * round (|x| * 10 ^ decimals)

/-! ## The digits of `toFixed` -/

theorem isDigit_map_ch {cs : List Char} (h : ∀ c ∈ cs, c.isDigit = true) : ∀ b ∈ cs.map ch, isDigit b = true := by
  intro b hb
  obtain ⟨c, hc, rfl⟩ := List.mem_map.1 hb
  exact isDigit_ch (h c hc)

theorem digitsValue_map_ch {cs : List Char} (h : ∀ c ∈ cs, c.isDigit = true) :
    digitsValue (cs.map ch) = Nat.ofDigitChars 10 cs 0 := foldl_digits h 0

/-- A sign in front of the text of a magnitude. -/
theorem numberValue_signed {t : Bytes} (h : t.head? ≠ some 45) (x : ℚ) (n : ℤ) {scale : ℚ}
    (hn : numberValue t = n / scale) :
    numberValue ((if x < 0 then [45] else []) ++ t) = ((if x < 0 then -1 else 1) * n : ℤ) / scale := by
  split
  · rw [List.singleton_append, numberValue_minus h, hn]
    push_cast
    ring
  · rw [List.nil_append, hn]
    push_cast
    ring

theorem round_abs_nonneg (x : ℚ) (decimals : Nat) : 0 ≤ round (|x| * 10 ^ decimals) := by
  rw [round_eq]
  exact Int.floor_nonneg.2 (by positivity)

theorem shownValue_toFixed (x : ℚ) {decimals : Nat} :
    shownValue (toFixed x decimals) = fixedUnits x decimals / 10 ^ decimals := by
  have hcast : (((round (|x| * 10 ^ decimals)).natAbs : ℕ) : ℤ) = round (|x| * 10 ^ decimals) :=
    Int.natAbs_of_nonneg (round_abs_nonneg x decimals)
  set n := (round (|x| * 10 ^ decimals)).natAbs with hn
  set padded := List.replicate (decimals + 1 - (Nat.toDigits 10 n).length) '0' ++ Nat.toDigits 10 n with hpadded
  have hdigits : ∀ c ∈ padded, c.isDigit = true := by
    intro c hc
    rcases List.mem_append.1 hc with h | h
    · rw [List.eq_of_mem_replicate h]
      rfl
    · exact isDigit_toDigits n c h
  have hlength : decimals + 1 ≤ padded.length := by
    rw [hpadded, List.length_append, List.length_replicate]
    omega
  have hvalue : Nat.ofDigitChars 10 padded 0 = n := by
    rw [hpadded, Nat.ofDigitChars_append, Nat.ofDigitChars_replicate_zero, Nat.mul_zero, Nat.ofDigitChars_ten_toDigits]
  have hwhole := isDigit_map_ch fun c hc => hdigits c (List.mem_of_mem_take (i := padded.length - decimals) hc)
  have hfraction := isDigit_map_ch fun c hc => hdigits c (List.mem_of_mem_drop (i := padded.length - decimals) hc)
  have hne : (padded.take (padded.length - decimals)).map ch ≠ [] := by
    rw [ne_eq, List.map_eq_nil_iff, List.take_eq_nil_iff, not_or]
    exact ⟨by omega, by rintro h; rw [h] at hlength; simp at hlength⟩
  have hmagnitude : numberValue ((padded.take (padded.length - decimals)).map ch ++
      46 :: (padded.drop (padded.length - decimals)).map ch) = (round (|x| * 10 ^ decimals) : ℤ) / 10 ^ decimals := by
    rw [numberValue_point hwhole hne hfraction, ← List.map_append, List.take_append_drop,
      digitsValue_map_ch hdigits, hvalue, ← hcast, List.length_map, List.length_drop]
    have hdrop : padded.length - (padded.length - decimals) = decimals := by omega
    rw [hdrop, Int.cast_natCast]
  have htext : (toFixed x decimals).map ch = (if x < 0 then [45] else []) ++
      ((padded.take (padded.length - decimals)).map ch ++ 46 :: (padded.drop (padded.length - decimals)).map ch) := by
    simp only [toFixed, ← hn, ← hpadded, List.map_append, List.append_assoc]
    split <;> rfl
  rw [shownValue, htext, numberValue_signed (head_digits hwhole _ hne) x _ hmagnitude, fixedUnits]

variable (js : Conversions)

theorem shownValue_fixedText {x : ℚ} (h : |x| < 10 ^ 21) (decimals : Nat) :
    shownValue (fixedText js x decimals) = fixedUnits x decimals / 10 ^ decimals := by
  rw [fixedText, if_neg (not_le.2 h)]
  split
  · next h0 =>
    subst h0
    have hdigits := isDigit_map_ch (isDigit_toDigits (round |x|).natAbs)
    have hne : (Nat.toDigits 10 (round |x|).natAbs).map ch ≠ [] := by simp [Nat.toDigits_ne_nil]
    have hround : 0 ≤ round |x| := by simpa using round_abs_nonneg x 0
    have hmagnitude : numberValue ((Nat.toDigits 10 (round |x|).natAbs).map ch) = round |x| / 10 ^ 0 := by
      rw [numberValue_digits hdigits hne, digitsValue_map_ch (isDigit_toDigits _), Nat.ofDigitChars_ten_toDigits,
        pow_zero, div_one]
      have hcast : (((round |x|).natAbs : ℕ) : ℤ) = round |x| := Int.natAbs_of_nonneg hround
      exact (Int.cast_natCast _).symm.trans (congrArg Int.cast hcast)
    have hhead := head_digits hdigits [] hne
    rw [List.append_nil] at hhead
    have htext : ((if x < 0 then ['-'] else []) ++ Nat.toDigits 10 (round |x|).natAbs).map ch =
        (if x < 0 then [45] else []) ++ (Nat.toDigits 10 (round |x|).natAbs).map ch := by
      split <;> rfl
    rw [shownValue, htext, numberValue_signed hhead x _ hmagnitude, fixedUnits, pow_zero, mul_one]
  · exact shownValue_toFixed x

/-! ## Rounding -/

theorem abs_fixedUnits_sub_le (x : ℚ) (decimals : Nat) :
    |fixedUnits x decimals / 10 ^ decimals - x| ≤ 1 / (2 * 10 ^ decimals) := by
  have hpow : (0 : ℚ) < 10 ^ decimals := by positivity
  apply abs_div_sub_le hpow
  rw [fixedUnits, abs_signed_sub, abs_sub_comm]
  exact abs_sub_round _

theorem abs_units_le (x : ℚ) (decimals : Nat) : |(units x decimals : ℚ)| ≤ |x| * 10 ^ decimals + 1 / 2 := by
  have hnonneg : 0 ≤ ⌊|x| * 10 ^ decimals + 1 / 2⌋ := Int.floor_nonneg.2 (by positivity)
  have hsign : |units x decimals| = ⌊|x| * 10 ^ decimals + 1 / 2⌋ := by
    rw [units, abs_mul, abs_of_nonneg hnonneg]
    split <;> simp
  rw [← Int.cast_abs, hsign]
  exact Int.floor_le _

/-! ## From the document to the page -/

section Written

variable {x : ℚ} {decimals : Nat} (hx : |x| * 10 ^ decimals + 1 / 2 < 2 ^ 52)
include hx

theorem units_lt : |units x decimals| < 2 ^ 52 := by
  have h := (abs_units_le x decimals).trans_lt hx
  exact_mod_cast h

variable (hd : decimals ≤ 20)
include hd

/-- The double a written float becomes. -/
theorem abs_double_lt : |binary64 (units x decimals / 10 ^ decimals)| < 2 ^ 53 := by
  have hpow : (1 : ℚ) ≤ 10 ^ decimals := one_le_pow₀ (by norm_num)
  have hdist := abs_units_lt (units_lt hx) hd
  have hunits := (abs_units_le x decimals).trans_lt hx
  have htri := abs_sub_abs_le_abs_sub (binary64 (units x decimals / 10 ^ decimals) * 10 ^ decimals)
    (units x decimals : ℚ)
  rw [abs_mul, abs_of_pos (by positivity : (0 : ℚ) < 10 ^ decimals)] at htri
  calc |binary64 (units x decimals / 10 ^ decimals)|
    _ ≤ |binary64 (units x decimals / 10 ^ decimals)| * 10 ^ decimals := le_mul_of_one_le_right (abs_nonneg _) hpow
    _ < 2 ^ 53 := by linarith

theorem double_floatText :
    double (floatText x decimals) = some (binary64 (units x decimals / 10 ^ decimals)) := by
  have hlt := abs_double_lt hx hd
  have hfinite : isFinite (binary64 (units x decimals / 10 ^ decimals)) = true :=
    decide_eq_true (hlt.trans (pow_lt_pow_right₀ (by norm_num) (by norm_num)))
  rw [double, numberValue_floatText, if_pos hfinite]

/-- The double is within a unit of the last decimal. -/
theorem abs_double_sub_le : |binary64 (units x decimals / 10 ^ decimals) - x| ≤ 1 / 10 ^ decimals := by
  have hpow : (0 : ℚ) < 10 ^ decimals := by positivity
  set y := binary64 (units x decimals / 10 ^ decimals) with hy
  have hdouble : |y - units x decimals / 10 ^ decimals| ≤ 1 / (2 * 10 ^ decimals) := by
    have hdist := abs_units_lt (units_lt hx) hd
    rw [← hy] at hdist
    have hscaled : y - units x decimals / 10 ^ decimals = (y * 10 ^ decimals - units x decimals) / 10 ^ decimals := by
      rw [sub_div, mul_div_cancel_right₀ _ hpow.ne']
    rw [hscaled, abs_div, abs_of_pos hpow, div_le_iff₀ hpow]
    calc |y * 10 ^ decimals - units x decimals|
      _ ≤ 1 / 2 := hdist.le
      _ = 1 / (2 * 10 ^ decimals) * 10 ^ decimals := by field_simp
  have hwritten := abs_floatText_sub_le x decimals
  rw [numberValue_floatText] at hwritten
  have htwice : 1 / (2 * 10 ^ decimals) + 1 / (2 * 10 ^ decimals) = (1 : ℚ) / 10 ^ decimals := by field_simp; norm_num
  have hsplit := abs_sub_le y (units x decimals / 10 ^ decimals) x
  linarith

theorem shownValue_floatText (shown : Nat) :
    shownValue (value js (some (.number (floatText x decimals))) shown) =
      fixedUnits (binary64 (units x decimals / 10 ^ decimals)) shown / 10 ^ shown := by
  have hlt := (abs_double_lt hx hd).trans (by norm_num : (2 : ℚ) ^ 53 < 10 ^ 21)
  rw [value, toNumber, double_floatText hx hd]
  exact shownValue_fixedText js hlt shown

/-- With as many decimals, the page shows what the document says. -/
theorem shows_floatText : ShowsNumber (value js (some (.number (floatText x decimals))) decimals) x (1 / (2 * 10 ^ decimals)) := by
  have hsame : fixedUnits (binary64 (units x decimals / 10 ^ decimals)) decimals = units x decimals := by
    rw [fixedUnits, round_binary64 (units_lt hx) hd]
    simp only [binary64_neg_iff (units_lt hx) hd]
    split
    · next hneg => rw [abs_of_neg hneg]; ring
    · next hpos => rw [abs_of_nonneg (not_lt.1 hpos), one_mul]
  rw [ShowsNumber, shownValue_floatText js hx hd, hsame, ← numberValue_floatText]
  exact abs_floatText_sub_le x decimals

/-- With fewer, or more, it rounds once more. -/
theorem shows_rounded (shown : Nat) :
    ShowsNumber (value js (some (.number (floatText x decimals))) shown) x (1 / (2 * 10 ^ shown) + 1 / 10 ^ decimals) := by
  have hshown := abs_fixedUnits_sub_le (binary64 (units x decimals / 10 ^ decimals)) shown
  have hdouble := abs_double_sub_le hx hd
  rw [ShowsNumber, shownValue_floatText js hx hd]
  exact (abs_sub_le _ _ _).trans (add_le_add hshown hdouble)

end Written

end LiTimeGateway.Dashboard
