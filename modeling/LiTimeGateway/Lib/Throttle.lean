import Mathlib.Data.Nat.Basic
/-!
# Throttles on a clock that wraps

`millis` is a 32-bit reading of a clock that runs on for ever. A throttle
remembers a reading and lets an action through when the difference to the
current one reaches an interval. `Since last now e` says the remembered reading
is `e` old. The difference the throttle sees is `e` modulo 2^32: it never
exceeds the age, and it is the age while that is below 2^32.

A log holds the times at which the throttle let an action through. The clock may
start again at zero, and the throttle with it; `Remembers` is what it takes of
the remembered reading for the log to stay `Spaced`.
-/

namespace Lib.Throttle

/-- What the clock shows at a time. -/
def millis (time : Nat) : UInt32 := UInt32.ofNat time

/-- The reading `last` was shown `e` before `now`. -/
def Since (last : UInt32) (now e : Nat) : Prop := last + millis e = millis now

theorem millis_add (a b : Nat) : millis (a + b) = millis a + millis b := UInt32.ofNat_add a b

theorem since_now (time : Nat) : Since (millis time) time 0 := UInt32.add_zero _

theorem Since.later {last : UInt32} {a b e : Nat} (h : Since last a e) (hab : a ≤ b) : Since last b (e + (b - a)) := by
  have hb : b = a + (b - a) := by omega
  unfold Since at *
  rw [millis_add, ← UInt32.add_assoc, h, ← millis_add, ← hb]

/-- The difference to the remembered reading. -/
theorem Since.elapsed {last : UInt32} {now e : Nat} (h : Since last now e) : millis now - last = millis e := by
  rw [← h, UInt32.add_comm, UInt32.add_sub_cancel]

/-- Every reading has an age. -/
theorem since_elapsed (last : UInt32) (now : Nat) : Since last now (millis now - last).toNat := by
  rw [Since, millis, UInt32.ofNat_toNat, UInt32.add_comm, UInt32.sub_add_cancel]

/-- What has been let through is as old as the interval. -/
theorem Since.interval_le {last : UInt32} {now e : Nat} (h : Since last now e) {interval : UInt32}
    (hpass : ¬ millis now - last < interval) : interval.toNat ≤ e := by
  rw [h.elapsed, UInt32.not_lt, UInt32.le_iff_toNat_le, millis, UInt32.toNat_ofNat'] at hpass
  exact Nat.le_trans hpass (Nat.mod_le _ _)

/-- What is held back is younger than the interval, if it has not wrapped. -/
theorem Since.lt_interval {last : UInt32} {now e : Nat} (h : Since last now e) (he : e < UInt32.size) {interval : UInt32}
    (hheld : millis now - last < interval) : e < interval.toNat := by
  rw [h.elapsed, UInt32.lt_iff_toNat_lt, millis, UInt32.toNat_ofNat', Nat.mod_eq_of_lt he] at hheld
  exact hheld

/-! ## Logs -/

/-- Every time is at least `interval` after each time before it. -/
def Spaced (interval : Nat) (log : List Nat) : Prop := log.Pairwise fun a b => a + interval ≤ b

theorem Spaced.append {interval : Nat} {log : List Nat} (h : Spaced interval log) {time : Nat}
    (htime : ∀ a ∈ log, a + interval ≤ time) : Spaced interval (log ++ [time]) := by
  refine List.pairwise_append.2 ⟨h, List.pairwise_singleton _ _, ?_⟩
  intro a ha b hb
  rw [List.mem_singleton] at hb
  rw [hb]
  exact htime a ha

/-- The clock started at `bootAt` showed `last` at a time that no time of the log is after. -/
def Remembers (last : UInt32) (bootAt now : Nat) (log : List Nat) : Prop :=
  ∃ time, bootAt ≤ time ∧ time ≤ now ∧ last = millis (time - bootAt) ∧ ∀ a ∈ log, a ≤ time

/-- A throttle that starts with the clock, at zero. -/
theorem remembers_boot {bootAt now : Nat} (hboot : bootAt ≤ now) {log : List Nat} (hlog : ∀ a ∈ log, a ≤ bootAt) :
    Remembers 0 bootAt now log := by
  refine ⟨bootAt, Nat.le_refl _, hboot, ?_, hlog⟩
  rw [Nat.sub_self]
  rfl

theorem remembers_read {bootAt time now : Nat} (hboot : bootAt ≤ time) (hnow : time ≤ now) {log : List Nat}
    (hlog : ∀ a ∈ log, a ≤ time) : Remembers (millis (time - bootAt)) bootAt now log :=
  ⟨time, hboot, hnow, rfl, hlog⟩

theorem Remembers.later {last : UInt32} {bootAt now : Nat} {log : List Nat} (h : Remembers last bootAt now log)
    {later : Nat} (hlater : now ≤ later) : Remembers last bootAt later log := by
  obtain ⟨time, hboot, hnow, hlast, hlog⟩ := h
  exact ⟨time, hboot, Nat.le_trans hnow hlater, hlast, hlog⟩

theorem Remembers.subset {last : UInt32} {bootAt now : Nat} {log log' : List Nat} (h : Remembers last bootAt now log)
    (hsub : ∀ a ∈ log', a ∈ log) : Remembers last bootAt now log' := by
  obtain ⟨time, hboot, hnow, hlast, hlog⟩ := h
  exact ⟨time, hboot, hnow, hlast, fun a ha => hlog a (hsub a ha)⟩

theorem Remembers.le_now {last : UInt32} {bootAt now : Nat} {log : List Nat} (h : Remembers last bootAt now log) :
    ∀ a ∈ log, a ≤ now := by
  obtain ⟨time, -, hnow, -, hlog⟩ := h
  exact fun a ha => Nat.le_trans (hlog a ha) hnow

/-- A check that passes comes an interval after everything in the log. -/
theorem Remembers.interval_le {last : UInt32} {bootAt now : Nat} {log : List Nat} (h : Remembers last bootAt now log)
    {check : Nat} (hcheck : now ≤ check) {interval : UInt32} (hpass : ¬ millis (check - bootAt) - last < interval) :
    ∀ a ∈ log, a + interval.toNat ≤ check := by
  obtain ⟨time, hboot, hnow, rfl, hlog⟩ := h
  have hage := (since_now (time - bootAt)).later (b := check - bootAt) (by omega)
  have hle := hage.interval_le hpass
  intro a ha
  have := hlog a ha
  omega

/-- The time is logged and remembered when a later read of it is stored. -/
theorem Remembers.passed {last : UInt32} {bootAt now : Nat} {log : List Nat} (h : Remembers last bootAt now log)
    (hboot : bootAt ≤ now) {check stored : Nat} (hcheck : now ≤ check) (hstored : check ≤ stored) {interval : UInt32}
    (hpass : ¬ millis (check - bootAt) - last < interval) (hspaced : Spaced interval.toNat log) :
    Spaced interval.toNat (log ++ [stored]) ∧ Remembers (millis (stored - bootAt)) bootAt stored (log ++ [stored]) := by
  have hle := h.interval_le hcheck hpass
  refine ⟨hspaced.append fun a ha => Nat.le_trans (hle a ha) hstored, remembers_read (by omega) (Nat.le_refl _) ?_⟩
  intro a ha
  rcases List.mem_append.1 ha with ha | ha
  · have := hle a ha
    omega
  · rw [List.mem_singleton] at ha
    omega

end Lib.Throttle
