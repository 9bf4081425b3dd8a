import LiTimeGateway.Dashboard.RuntimeEstimator
import LiTimeGateway.JavaScript
/-!
# The displayed time

`formatRuntime` of the remote dashboard. Below one hour it rounds to minutes and
from one hour on to five minutes; the hours and minutes it writes are computed
from the rounded value. `readTime` reads them back, so two estimates look alike
only if they were rounded to the same number of minutes.
-/

namespace LiTimeGateway.Dashboard

open JavaScript

structure Rendered where
  label : Text
  value : Text
  detail : Text
  deriving DecidableEq

/-- The rounded number of minutes. -/
def displayedMinutes (hours : ℚ) : ℤ :=
  round (hours * 60 / (if hours ≥ 1 then 5 else 1)) * (if hours ≥ 1 then 5 else 1)

/-- How a number of minutes is written. -/
def timeText (minutes : ℤ) : Text :=
  let hours := minutes / 60
  if minutes = 0 then text "< 1 min"
  else if hours ≠ 0 then numberText hours ++ text "h " ++ numberText (minutes.tmod 60) ++ text "m"
  else numberText minutes ++ text " min"

def labelText : Option Direction → Text
  | some .charging => text "Time until full"
  | some .discharging => text "Time until empty"
  | none => text "Battery time estimate"

def detailText (direction : Direction) (hours averageAmps windowSeconds : ℚ) : Text :=
  let window :=
    if windowSeconds ≥ 120 then text "2 min average"
    else numberText (round windowSeconds) ++ text "s average · building to 2 min"
  let days := if hours ≥ 24 then text " · " ++ toFixed (hours / 24) 1 ++ text " days" else []
  let caveat :=
    match direction with
    | .charging => text "Charging may slow near full."
    | .discharging => text "If your average use stays the same."
  toFixed |averageAmps| 2 ++ text " A · " ++ window ++ days ++ text ". " ++ caveat

def formatRuntime : Snapshot → Rendered
  | .unavailable => ⟨labelText none, text "—", text "Waiting for fresh battery data."⟩
  | .idle => ⟨labelText none, text "Idle", text "No sustained charge or discharge to estimate."⟩
  | .warming direction =>
    ⟨labelText (some direction), text "Learning…", text "Gathering 15 seconds of readings to smooth brief spikes."⟩
  | .ready direction hours averageAmps windowSeconds =>
    ⟨labelText (some direction), text "≈ " ++ timeText (displayedMinutes hours),
      detailText direction hours averageAmps windowSeconds⟩

example : formatRuntime (.ready .charging (2604 / 100) 2 120) =
    ⟨text "Time until full", text "≈ 26h 0m",
      text "2.00 A · 2 min average · 1.1 days. Charging may slow near full."⟩ := by decide +kernel

/-! ## Rounding -/

theorem round_le_round {x y : ℚ} (h : x ≤ y) : round x ≤ round y := by
  rw [round_eq, round_eq]
  apply Int.floor_le_floor
  linarith

theorem displayedMinutes_short {hours : ℚ} (h : hours < 1) : displayedMinutes hours = round (hours * 60) := by
  rw [displayedMinutes, if_neg (not_le.2 h), if_neg (not_le.2 h), div_one, mul_one]

theorem displayedMinutes_long {hours : ℚ} (h : 1 ≤ hours) : displayedMinutes hours = round (hours * 12) * 5 := by
  rw [displayedMinutes, if_pos h, if_pos h]
  congr 2
  ring

theorem displayedMinutes_nonneg {hours : ℚ} (h : 0 ≤ hours) : 0 ≤ displayedMinutes hours := by
  have hzero : (0 : ℤ) = round (0 : ℚ) := (round_zero).symm
  rcases lt_or_ge hours 1 with h1 | h1
  · rw [displayedMinutes_short h1, hzero]
    apply round_le_round
    linarith
  · rw [displayedMinutes_long h1]
    have h0 : 0 ≤ round (hours * 12) := by
      rw [hzero]
      apply round_le_round
      linarith
    omega

/-- Below one hour at most sixty minutes are shown. -/
theorem displayedMinutes_le_sixty {hours : ℚ} (h : hours < 1) : displayedMinutes hours ≤ 60 := by
  have hsixty : round (60 : ℚ) = 60 := by norm_num
  rw [displayedMinutes_short h, ← hsixty]
  apply round_le_round
  linarith

/-- And from one hour on at least sixty. -/
theorem sixty_le_displayedMinutes {hours : ℚ} (h : 1 ≤ hours) : 60 ≤ displayedMinutes hours := by
  have htwelve : 12 ≤ round (hours * 12) := by
    have : round (12 : ℚ) = 12 := by norm_num
    rw [← this]
    apply round_le_round
    linarith
  rw [displayedMinutes_long h]
  omega

theorem displayedMinutes_mono {h1 h2 : ℚ} (h : h1 ≤ h2) : displayedMinutes h1 ≤ displayedMinutes h2 := by
  rcases lt_or_ge h2 1 with hlt2 | hge2
  · rw [displayedMinutes_short (h.trans_lt hlt2), displayedMinutes_short hlt2]
    apply round_le_round
    linarith
  rcases lt_or_ge h1 1 with hlt1 | hge1
  · -- The two kinds of rounding meet at sixty minutes.
    exact (displayedMinutes_le_sixty hlt1).trans (sixty_le_displayedMinutes hge2)
  · rw [displayedMinutes_long hge1, displayedMinutes_long hge2]
    have : round (h1 * 12) ≤ round (h2 * 12) := by
      apply round_le_round
      linarith
    omega

theorem displayedMinutes_near_short {hours : ℚ} (h : hours < 1) : |(displayedMinutes hours : ℚ) - 60 * hours| ≤ 1 / 2 := by
  have hround := abs_sub_round (hours * 60)
  rw [displayedMinutes_short h, abs_sub_comm, mul_comm 60]
  exact hround

theorem displayedMinutes_near_long {hours : ℚ} (h : 1 ≤ hours) : |(displayedMinutes hours : ℚ) - 60 * hours| ≤ 5 / 2 := by
  have hround := abs_sub_round (hours * 12)
  have hfactor : ((round (hours * 12) * 5 : ℤ) : ℚ) - 60 * hours = 5 * ((round (hours * 12) : ℚ) - hours * 12) := by
    push_cast
    ring
  rw [displayedMinutes_long h, hfactor, abs_mul, abs_sub_comm, abs_of_pos (by norm_num : (0 : ℚ) < 5)]
  linarith

/-! ## The written time -/

/-- The number of minutes a written time stands for. -/
def readTime (t : Text) : Nat :=
  match t.dropWhile Char.isDigit with
  | 'h' :: ' ' :: rest => 60 * leadingNumber t + leadingNumber rest
  | _ => leadingNumber t

theorem timeText_short {minutes : ℤ} (h0 : 0 < minutes) (h : minutes < 60) :
    timeText minutes = numberText minutes ++ text " min" := by
  have hhours : minutes / 60 = 0 := by omega
  rw [timeText, if_neg (by omega)]
  exact if_neg (not_not.2 hhours)

theorem timeText_long {minutes : ℤ} (h : 60 ≤ minutes) :
    timeText minutes = numberText (minutes / 60) ++ text "h " ++ numberText (minutes % 60) ++ text "m" := by
  have hhours : minutes / 60 ≠ 0 := by omega
  have hmod : minutes.tmod 60 = minutes % 60 := Int.tmod_eq_emod_of_nonneg (by omega)
  rw [timeText, if_neg (by omega), ← hmod]
  exact if_pos hhours

theorem readTime_timeText {minutes : ℤ} (h : 0 ≤ minutes) : readTime (timeText minutes) = minutes.toNat := by
  rcases h.eq_or_lt with rfl | h0
  · rfl
  rcases lt_or_ge minutes 60 with hlt | hge
  · have hblank : ∀ c ∈ (text " min").head?, c.isDigit = false := by
      intro c hc
      obtain rfl : ' ' = c := Option.some.inj hc
      rfl
    rw [timeText_short h0 hlt, numberText_of_nonneg h, readTime, dropWhile_number _ hblank]
    exact leadingNumber_digits _ hblank
  · have hhours : 0 ≤ minutes / 60 := by omega
    have hminutes : 0 ≤ minutes % 60 := by omega
    have hm : ∀ c ∈ (text "m").head?, c.isDigit = false := by
      intro c hc
      obtain rfl : 'm' = c := Option.some.inj hc
      rfl
    have hh : ∀ rest : Text, ∀ c ∈ (text "h " ++ rest).head?, c.isDigit = false := by
      intro rest c hc
      obtain rfl : 'h' = c := Option.some.inj hc
      rfl
    rw [timeText_long hge, numberText_of_nonneg hhours, numberText_of_nonneg hminutes, List.append_assoc,
      List.append_assoc, readTime, dropWhile_number _ (hh _)]
    have hread : 60 * leadingNumber (Nat.toDigits 10 (minutes / 60).toNat ++
          (text "h " ++ (Nat.toDigits 10 (minutes % 60).toNat ++ text "m"))) +
        leadingNumber (Nat.toDigits 10 (minutes % 60).toNat ++ text "m") = minutes.toNat := by
      rw [leadingNumber_digits _ (hh _), leadingNumber_digits _ hm]
      omega
    exact hread

theorem timeText_inj {m n : ℤ} (hm : 0 ≤ m) (hn : 0 ≤ n) (h : timeText m = timeText n) : m = n := by
  have hread := congrArg readTime h
  rw [readTime_timeText hm, readTime_timeText hn] at hread
  omega

theorem timeText_zero_iff {minutes : ℤ} (h : 0 ≤ minutes) : timeText minutes = text "< 1 min" ↔ minutes = 0 := by
  constructor
  · exact fun htext => timeText_inj h (le_refl 0) htext
  · rintro rfl
    rfl

/-! ## What is shown -/

/-- `minutes` and `time` are what is made of `hours`. -/
structure Shows (hours : ℚ) (minutes : ℤ) (time : Text) : Prop where
  nonneg : 0 ≤ minutes
  near_short : hours < 1 → |(minutes : ℚ) - 60 * hours| ≤ 1 / 2
  near_long : 1 ≤ hours → |(minutes : ℚ) - 60 * hours| ≤ 5 / 2
  zero : time = text "< 1 min" ↔ minutes = 0
  short : 0 < minutes → minutes < 60 → time = numberText minutes ++ text " min"
  long : 60 ≤ minutes → ∃ h r : ℤ, 60 * h + r = minutes ∧ 0 ≤ r ∧ r < 60 ∧
    time = numberText h ++ text "h " ++ numberText r ++ text "m"

theorem shows_displayedMinutes {hours : ℚ} (h : 0 ≤ hours) :
    Shows hours (displayedMinutes hours) (timeText (displayedMinutes hours)) where
  nonneg := displayedMinutes_nonneg h
  near_short := displayedMinutes_near_short
  near_long := displayedMinutes_near_long
  zero := timeText_zero_iff (displayedMinutes_nonneg h)
  short := timeText_short
  long hlong := ⟨displayedMinutes hours / 60, displayedMinutes hours % 60, by omega, by omega, by omega,
    timeText_long hlong⟩

/-- Of two estimates the longer is never shown as the shorter one, and they look
alike only if they were rounded to the same number of minutes. -/
theorem formatRuntime_monotone {h1 h2 : ℚ} (h0 : 0 ≤ h1) (h : h1 ≤ h2) (d1 d2 : Direction) (a1 a2 w1 w2 : ℚ) :
    let m1 := displayedMinutes h1
    let m2 := displayedMinutes h2
    (formatRuntime (.ready d1 h1 a1 w1)).value = text "≈ " ++ timeText m1 ∧
      (formatRuntime (.ready d2 h2 a2 w2)).value = text "≈ " ++ timeText m2 ∧
      Shows h1 m1 (timeText m1) ∧ Shows h2 m2 (timeText m2) ∧ m1 ≤ m2 ∧ (timeText m1 = timeText m2 → m1 = m2) := by
  intro m1 m2
  have hnonneg := h0.trans h
  exact ⟨rfl, rfl, shows_displayedMinutes h0, shows_displayedMinutes hnonneg, displayedMinutes_mono h,
    timeText_inj (displayedMinutes_nonneg h0) (displayedMinutes_nonneg hnonneg)⟩

/-- Just below and just above the change of rounding: sixty minutes and sixty-five. -/
theorem formatRuntime_monotone_hour :
    let m1 := displayedMinutes (239 / 240)
    let m2 := displayedMinutes (25 / 24)
    (formatRuntime (.ready .charging (239 / 240) 2 60)).value = text "≈ " ++ timeText m1 ∧
      (formatRuntime (.ready .discharging (25 / 24) (-2) 120)).value = text "≈ " ++ timeText m2 ∧
      Shows (239 / 240) m1 (timeText m1) ∧ Shows (25 / 24) m2 (timeText m2) ∧ m1 ≤ m2 ∧
      (timeText m1 = timeText m2 → m1 = m2) :=
  formatRuntime_monotone (by norm_num) (by norm_num) .charging .discharging 2 (-2) 60 120

end LiTimeGateway.Dashboard
