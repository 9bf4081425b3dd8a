import Mathlib.Algebra.Order.Round
import Mathlib.Data.Int.Log
import Mathlib.Data.Rat.Floor
import Mathlib.Tactic.Positivity
/-!
# Rounding to binary64

The double nearest to a rational number, ties to even, subnormals included; a
magnitude from 2^1024 on is infinite. `abs_binary64_sub_le` bounds the error of
a normal number, and `round_binary64` says that a decimal fraction with fewer
than 2^52 units survives: the digits it was written with come back.
-/

namespace Lib.Binary64

def roundEven (x : ℚ) : ℤ :=
  let n := ⌊x⌋
  if x - n < 1 / 2 then n else if 1 / 2 < x - n then n + 1 else if n % 2 = 0 then n else n + 1

/-- The exponent of the last place of the doubles around `x`. -/
def lastPlace (x : ℚ) : ℤ := max (Int.log 2 |x| - 52) (-1074)

def binary64 (x : ℚ) : ℚ := roundEven (x / 2 ^ lastPlace x) * 2 ^ lastPlace x

def isFinite (x : ℚ) : Bool := |x| < 2 ^ 1024

theorem abs_roundEven_sub_le (x : ℚ) : |(roundEven x : ℚ) - x| ≤ 1 / 2 := by
  have hfloor := Int.floor_le x
  have hlt := Int.lt_floor_add_one x
  unfold roundEven
  dsimp only
  split
  · exact abs_le.2 ⟨by linarith, by linarith⟩
  · split
    · push_cast
      exact abs_le.2 ⟨by linarith, by linarith⟩
    · split
      · exact abs_le.2 ⟨by linarith, by linarith⟩
      · push_cast
        exact abs_le.2 ⟨by linarith, by linarith⟩

/-- Half a unit of the last place. -/
theorem abs_binary64_sub_le_lastPlace (x : ℚ) : |binary64 x - x| ≤ 2 ^ lastPlace x / 2 := by
  have hpos : (0 : ℚ) < 2 ^ lastPlace x := zpow_pos (by norm_num) _
  have hround := abs_roundEven_sub_le (x / 2 ^ lastPlace x)
  calc |binary64 x - x|
    _ = |(roundEven (x / 2 ^ lastPlace x) - x / 2 ^ lastPlace x) * 2 ^ lastPlace x| := by
      rw [sub_mul, div_mul_cancel₀ _ hpos.ne', binary64]
    _ = |(roundEven (x / 2 ^ lastPlace x) : ℚ) - x / 2 ^ lastPlace x| * 2 ^ lastPlace x := by
      rw [abs_mul, abs_of_pos hpos]
    _ ≤ 1 / 2 * 2 ^ lastPlace x := mul_le_mul_of_nonneg_right hround hpos.le
    _ = 2 ^ lastPlace x / 2 := by ring

theorem binary64_zero : binary64 0 = 0 := by
  have hround : roundEven 0 = 0 := by simp [roundEven]
  rw [binary64, zero_div, hround, Int.cast_zero, zero_mul]

theorem roundEven_intCast (n : ℤ) : roundEven n = n := by
  simp [roundEven]

/-- An integer of at most 53 bits, in units of a power of two, is a double. -/
theorem binary64_dyadic {n e : ℤ} (hn : |n| < 2 ^ 53) (he : -1074 ≤ e) : binary64 (n * 2 ^ e) = n * 2 ^ e := by
  by_cases h0 : n = 0
  · rw [h0, Int.cast_zero, zero_mul, binary64_zero]
  have hunit : (0 : ℚ) < 2 ^ e := zpow_pos (by norm_num) _
  have hplace : lastPlace (n * 2 ^ e) ≤ e := by
    refine max_le ?_ he
    have hpos : 0 < |(n : ℚ) * 2 ^ e| := abs_pos.2 (mul_ne_zero (by exact_mod_cast h0) hunit.ne')
    have hlt : |(n : ℚ) * 2 ^ e| < ((2 : ℕ) : ℚ) ^ (53 + e) := by
      rw [abs_mul, abs_of_pos hunit, Nat.cast_ofNat, zpow_add₀ (by norm_num)]
      exact mul_lt_mul_of_pos_right (by exact_mod_cast hn) hunit
    have hlog := (Int.lt_zpow_iff_log_lt (by norm_num) hpos).1 hlt
    omega
  obtain ⟨k, hk⟩ := Int.exists_eq_neg_ofNat (Int.sub_nonpos_of_le hplace)
  have hplace_ne : (2 : ℚ) ^ lastPlace (n * 2 ^ e) ≠ 0 := zpow_ne_zero _ (by norm_num)
  have hscaled : (n : ℚ) * 2 ^ e / 2 ^ lastPlace (n * 2 ^ e) = (n * 2 ^ k : ℤ) := by
    rw [mul_div_assoc, ← zpow_sub₀ (by norm_num), ← neg_sub, hk, neg_neg, zpow_natCast]
    push_cast
    rfl
  rw [binary64, hscaled, roundEven_intCast, ← hscaled, div_mul_cancel₀ _ hplace_ne]

theorem binary64_intCast {n : ℤ} (h : |n| < 2 ^ 53) : binary64 n = n := by
  have hdyadic := @binary64_dyadic n 0 h (by norm_num)
  rwa [zpow_zero, mul_one] at hdyadic

/-- A normal number has 53 significant bits. -/
theorem abs_binary64_sub_le {x : ℚ} (h : 2 ^ (-1022 : ℤ) ≤ |x|) : |binary64 x - x| ≤ |x| / 2 ^ 53 := by
  have hpos : 0 < |x| := lt_of_lt_of_le (zpow_pos (by norm_num) _) h
  have hlog : -1022 ≤ Int.log 2 |x| := (Int.zpow_le_iff_le_log (by norm_num) hpos).1 (by exact_mod_cast h)
  have hplace : lastPlace x = Int.log 2 |x| - 52 := max_eq_left (by omega)
  have hself : (2 : ℚ) ^ Int.log 2 |x| ≤ |x| := by exact_mod_cast Int.zpow_log_le_self (by norm_num) hpos
  calc |binary64 x - x|
    _ ≤ 2 ^ lastPlace x / 2 := abs_binary64_sub_le_lastPlace x
    _ = 2 ^ Int.log 2 |x| / 2 ^ 53 := by
      rw [hplace, zpow_sub₀ (by norm_num)]
      norm_num
      ring
    _ ≤ |x| / 2 ^ 53 := by gcongr

/-- The double nearest to so many units of the last of a few decimals is closer
than half a unit, as long as the units fit into 52 bits. -/
theorem abs_units_lt {n : ℤ} (hn : |n| < 2 ^ 52) {decimals : Nat} (hd : decimals ≤ 20) :
    |binary64 (n / 10 ^ decimals) * 10 ^ decimals - n| < 1 / 2 := by
  have hpow : (0 : ℚ) < 10 ^ decimals := by positivity
  have hcast : |(n : ℚ)| < 2 ^ 52 := by exact_mod_cast hn
  by_cases h0 : n = 0
  · rw [h0, Int.cast_zero, zero_div, binary64_zero]
    norm_num
  · have hone : (1 : ℚ) ≤ |(n : ℚ)| := by exact_mod_cast Int.one_le_abs h0
    have habs : |(n : ℚ) / 10 ^ decimals| = |(n : ℚ)| / 10 ^ decimals := by rw [abs_div, abs_of_pos hpow]
    have hnormal : (2 : ℚ) ^ (-1022 : ℤ) ≤ |(n : ℚ) / 10 ^ decimals| :=
      calc (2 : ℚ) ^ (-1022 : ℤ)
        _ ≤ 2 ^ (-67 : ℤ) := zpow_le_zpow_right₀ (by norm_num) (by norm_num)
        _ ≤ 1 / 10 ^ 20 := by norm_num
        _ ≤ |(n : ℚ)| / 10 ^ decimals := by gcongr; norm_num
        _ = |(n : ℚ) / 10 ^ decimals| := habs.symm
    have herror := abs_binary64_sub_le hnormal
    calc |binary64 (n / 10 ^ decimals) * 10 ^ decimals - n|
      _ = |binary64 (n / 10 ^ decimals) - n / 10 ^ decimals| * 10 ^ decimals := by
        rw [← abs_of_pos hpow, ← abs_mul, abs_of_pos hpow, sub_mul, div_mul_cancel₀ _ hpow.ne']
      _ ≤ |(n : ℚ) / 10 ^ decimals| / 2 ^ 53 * 10 ^ decimals := mul_le_mul_of_nonneg_right herror hpow.le
      _ = |(n : ℚ)| / 2 ^ 53 := by rw [habs]; field_simp
      _ < 1 / 2 := by
        rw [div_lt_iff₀ (by norm_num)]
        linarith

/-- Such a double has the sign of its units. -/
theorem binary64_neg_iff {n : ℤ} (hn : |n| < 2 ^ 52) {decimals : Nat} (hd : decimals ≤ 20) :
    binary64 (n / 10 ^ decimals) < 0 ↔ n < 0 := by
  have hpow : (0 : ℚ) < 10 ^ decimals := by positivity
  obtain ⟨hlow, hhigh⟩ := abs_lt.1 (abs_units_lt hn hd)
  rcases lt_trichotomy n 0 with h | rfl | h
  · have hle : (n : ℚ) ≤ -1 := by exact_mod_cast Int.le_sub_one_of_lt h
    exact iff_of_true (neg_of_mul_neg_left (by linarith : binary64 (n / 10 ^ decimals) * 10 ^ decimals < 0) hpow.le) h
  · simp [binary64_zero]
  · have hle : (1 : ℚ) ≤ n := by exact_mod_cast h
    have hpos : 0 < binary64 (n / 10 ^ decimals) :=
      (pos_iff_pos_of_mul_pos (by linarith : 0 < binary64 (n / 10 ^ decimals) * 10 ^ decimals)).2 hpow
    exact iff_of_false (not_lt.2 hpos.le) (not_lt.2 h.le)

/-- Written with so many decimals again, such a double gives back its units. -/
theorem round_binary64 {n : ℤ} (hn : |n| < 2 ^ 52) {decimals : Nat} (hd : decimals ≤ 20) :
    round (|binary64 (n / 10 ^ decimals)| * 10 ^ decimals) = |n| := by
  have hpow : (0 : ℚ) < 10 ^ decimals := by positivity
  have hdist := (abs_abs_sub_abs_le_abs_sub (binary64 (n / 10 ^ decimals) * 10 ^ decimals) (n : ℚ)).trans_lt
    (abs_units_lt hn hd)
  rw [abs_mul, abs_of_pos hpow] at hdist
  obtain ⟨hlow, hhigh⟩ := abs_lt.1 hdist
  rw [round_eq, Int.floor_eq_iff]
  push_cast
  exact ⟨by linarith, by linarith⟩

end Lib.Binary64
