import LiTimeGateway.Dashboard.RuntimeReference
/-!
# The estimator never misleads

What holds of every number the page shows. A session holds readings of one sign
and idle ones, so its mean is on the side of its direction or within the idle
band; and what came before a boundary has no part in it (`run_boundary`).
-/

namespace LiTimeGateway.Dashboard

open Lib.StepMean

/-! ## Signs -/

theorem startsSession_of_last {session : List Arrival} {a last : Arrival} (hl : session.getLast? = some last) :
    startsSession session a = true ↔
      STALE_MS ≤ a.time - last.time ∨ a.battery.updatedAt < last.battery.updatedAt ∨
        a.active = true ∧ ((∃ b, latestActive session = some b ∧ opposite a b = true) ∨
          idledAt session a.time = true) := by
  simp only [startsSession, hl, Bool.or_eq_true, Bool.and_eq_true, decide_eq_true_eq, Option.any_eq_true, or_assoc]

/-- An active reading that joins a session goes its way. -/
theorem joins_direction {session : List Arrival} {a b : Arrival} (hj : startsSession session a = false)
    (ha : a.active = true) (hb : latestActive session = some b) : b.battery.direction = a.battery.direction := by
  obtain ⟨last, hl⟩ : ∃ last, session.getLast? = some last := by
    cases h : session.getLast? with
    | none => simp [startsSession, h] at hj
    | some last => exact ⟨last, rfl⟩
  have hsame : ¬ opposite a b = true := fun ho =>
    Bool.eq_false_iff.1 hj ((startsSession_of_last hl).2 (.inr (.inr ⟨ha, .inl ⟨b, hb, ho⟩⟩)))
  have hba := latestActive_active hb
  rw [opposite, decide_eq_true_iff, ← sign_ne_iff_opposite (active_ne_zero ha) (active_ne_zero hba), not_not] at hsame
  rw [direction_of_active ha, direction_of_active hba, hsame]

theorem single_direction (a : Arrival) : a.battery.direction = 0 ∨ a.battery.direction = sessionDirection [a] := by
  have := sessionDirection_concat [] a
  cases ha : a.active with
  | false => exact .inl (direction_of_idle ha)
  | true =>
    rw [ha] at this
    exact .inr this.symm

/-- Every reading of a session is idle or goes the session's way. -/
theorem session_direction (accepted : List Arrival) :
    ∀ a ∈ session accepted, a.battery.direction = 0 ∨ a.battery.direction = sessionDirection (session accepted) := by
  induction accepted using List.reverseRecOn with
  | nil => nofun
  | append_singleton accepted b ih =>
    rw [session_concat, extend]
    cases hs : startsSession (session accepted) b with
    | true => exact List.forall_mem_singleton.2 (single_direction b)
    | false =>
      rw [if_neg Bool.false_ne_true, sessionDirection_concat]
      refine List.forall_mem_append.2 ⟨?_, List.forall_mem_singleton.2 ?_⟩
      · intro a ha
        rcases ih a ha with hidle | hdir
        · exact .inl hidle
        cases hb : b.active with
        | false => exact .inr hdir
        | true =>
          -- An active reading that joins either sets the direction or agrees with it.
          cases hlatest : latestActive (session accepted) with
          | none => exact .inl (by rw [hdir, sessionDirection, hlatest]; rfl)
          | some c =>
            rw [sessionDirection, hlatest] at hdir
            exact .inr (hdir.trans (joins_direction hs hb hlatest))
      · cases hb : b.active with
        | false => exact .inl (direction_of_idle hb)
        | true => exact .inr rfl

theorem spans_value {s : List Arrival} : ∀ p ∈ spans s, ∃ a ∈ s, p.value = a.battery.current := by
  induction s with
  | nil => nofun
  | cons a s ih =>
    cases s with
    | nil => nofun
    | cons b s =>
      refine List.forall_mem_cons.2 ⟨⟨a, List.mem_cons_self .., rfl⟩, fun p hp => ?_⟩
      obtain ⟨c, hc, hv⟩ := ih p hp
      exact ⟨c, List.mem_cons_of_mem _ hc, hv⟩

/-- A reading that does not discharge has a current of at least `-IDLE_AMPS`. -/
theorem neg_idle_le_current {a : Arrival} (h : a.battery.direction = 0 ∨ a.battery.direction = 1) :
    -IDLE_AMPS ≤ a.battery.current := by
  cases ha : a.active with
  | false =>
    rw [Arrival.active, decide_eq_false_iff_not, not_lt] at ha
    exact (abs_le.1 ha).1
  | true =>
    rw [direction_of_active ha, sign_eq_zero_iff, sign_eq_one_iff] at h
    have hpos := h.resolve_left (active_ne_zero ha)
    exact (neg_nonpos.2 idle_amps_pos.le).trans hpos.le

theorem current_le_idle {a : Arrival} (h : a.battery.direction = 0 ∨ a.battery.direction = -1) :
    a.battery.current ≤ IDLE_AMPS := by
  cases ha : a.active with
  | false =>
    rw [Arrival.active, decide_eq_false_iff_not, not_lt] at ha
    exact (abs_le.1 ha).2
  | true =>
    rw [direction_of_active ha, sign_eq_zero_iff, sign_eq_neg_one_iff] at h
    have hneg := h.resolve_left (active_ne_zero ha)
    exact hneg.le.trans idle_amps_pos.le

/-- The currents of a session stay off the far side of its direction. -/
theorem session_currents (accepted : List Arrival) : ∀ p ∈ spans (session accepted),
    (sessionDirection (session accepted) = 1 → -IDLE_AMPS ≤ p.value) ∧
      (sessionDirection (session accepted) = -1 → p.value ≤ IDLE_AMPS) := by
  intro p hp
  obtain ⟨a, ha, hv⟩ := spans_value p hp
  have hdir := session_direction accepted a ha
  rw [hv]
  exact ⟨fun h => neg_idle_le_current (h ▸ hdir), fun h => current_le_idle (h ▸ hdir)⟩

/-! ## Numbers -/

/-- What a number on the page promises, for the latest reading. -/
structure Honest (latest : Reading) (direction : Direction) (hours averageAmps windowSeconds : ℚ) : Prop where
  sign : direction = .charging ∧ IDLE_AMPS < averageAmps ∨ direction = .discharging ∧ averageAmps < -IDLE_AMPS
  window : 15 ≤ windowSeconds ∧ windowSeconds ≤ 120
  hours : 0 ≤ hours ∧ hours < latest.capacityAh / IDLE_AMPS

/-- How a number comes about. -/
theorem referenceAt_ready {session : List Arrival} {t hours averageAmps windowSeconds : ℚ} {direction : Direction}
    (h : referenceAt session t = .ready direction hours averageAmps windowSeconds) :
    ∃ last turned, session.getLast? = some last ∧ latestActive session = some turned ∧
      direction = (if 0 < turned.battery.current then .charging else .discharging) ∧
      WARMUP_MS ≤ measure (last.time - WINDOW_MS) last.time (spans session) ∧
      windowSeconds = measure (last.time - WINDOW_MS) last.time (spans session) / 1000 ∧
      averageAmps = integral (last.time - WINDOW_MS) last.time (spans session) /
        measure (last.time - WINDOW_MS) last.time (spans session) ∧
      IDLE_AMPS < |averageAmps| ∧
      ∃ room, 0 ≤ room ∧ room ≤ last.battery.capacityAh ∧ hours = room / |averageAmps| := by
  unfold referenceAt at h
  cases hl : session.getLast? with
  | none => simp [hl] at h
  | some last =>
    obtain hturned | ⟨turned, hturned⟩ := Option.eq_none_or_eq_some (latestActive session)
    · simp only [hl, hturned] at h
      split at h <;> cases h
    · simp only [hl, hturned] at h
      split at h
      · cases h
      split at h
      · cases h
      split at h
      · cases h
      · next hwarm =>
        split at h
        · cases h
        · next hamps =>
          obtain ⟨rfl, rfl, rfl, rfl⟩ := Snapshot.ready.inj h
          refine ⟨last, turned, rfl, hturned, rfl, not_lt.1 hwarm, rfl, rfl, not_le.1 hamps, _, ?_, ?_, rfl⟩
          · split
            · exact sub_nonneg.2 last.battery.remaining_le
            · exact last.battery.remaining_nonneg
          · split
            · exact sub_le_self _ last.battery.remaining_nonneg
            · exact last.battery.remaining_le

theorem referenceAt_honest {accepted : List Arrival} {t hours averageAmps windowSeconds : ℚ} {direction : Direction}
    (hsorted : (session accepted).Pairwise (·.time ≤ ·.time))
    (h : referenceAt (session accepted) t = .ready direction hours averageAmps windowSeconds) :
    ∃ last, (session accepted).getLast? = some last ∧
      Honest last.battery direction hours averageAmps windowSeconds := by
  obtain ⟨last, turned, hl, hturned, hdir, hwarm, hw, hmean, hamps, room, hroom0, hroom, hhours⟩ :=
    referenceAt_ready h
  have hactive := latestActive_active hturned
  have hsession : sessionDirection (session accepted) = turned.battery.direction := by
    rw [sessionDirection, hturned]
    rfl
  have hduration := warmup_pos.trans_le hwarm
  have hamps0 := idle_amps_pos.trans hamps
  refine ⟨last, hl, ?_, ?_, ?_⟩
  · -- The mean is outside the idle band, and the readings keep it off the other side.
    by_cases hpos : 0 < turned.battery.current
    · rw [if_pos hpos] at hdir
      have hone : sessionDirection (session accepted) = 1 := by
        rw [hsession, direction_of_active hactive, sign_pos hpos]
      have hge : -IDLE_AMPS ≤ averageAmps :=
        hmean ▸ le_mean (fun p hp => (session_currents accepted p hp).1 hone) hduration
      refine .inl ⟨hdir, ?_⟩
      rcases lt_abs.1 hamps with hlt | hlt
      · exact hlt
      · linarith
    · rw [if_neg hpos] at hdir
      have hneg : sessionDirection (session accepted) = -1 := by
        rw [hsession, direction_of_active hactive,
          sign_neg (lt_of_le_of_ne (not_lt.1 hpos) (active_ne_zero hactive))]
      have hle : averageAmps ≤ IDLE_AMPS :=
        hmean ▸ mean_le (fun p hp => (session_currents accepted p hp).2 hneg) hduration
      refine .inr ⟨hdir, ?_⟩
      rcases lt_abs.1 hamps with hlt | hlt
      · linarith
      · linarith
  · -- The spans are a chain that ends at the last reading, so they fit the window.
    have hmax : measure (last.time - WINDOW_MS) last.time (spans (session accepted)) ≤ WINDOW_MS := by
      cases hs : session accepted with
      | nil => rw [hs] at hl; cases hl
      | cons a rest =>
        rw [hs] at hl hsorted
        have hwin : 0 ≤ WINDOW_MS := by decide +kernel
        have := measure_chain_le (chain_spans hsorted hl) (sub_le_self last.time hwin)
        rwa [sub_sub_cancel] at this
    have h15 : WARMUP_MS = 15000 := rfl
    have h120 : WINDOW_MS = 120000 := rfl
    constructor <;> linarith
  · rw [hhours]
    refine ⟨div_nonneg hroom0 hamps0.le, ?_⟩
    calc room / |averageAmps| ≤ last.battery.capacityAh / |averageAmps| :=
          div_le_div_of_nonneg_right hroom hamps0.le
      _ < last.battery.capacityAh / IDLE_AMPS :=
          div_lt_div_of_pos_left last.battery.capacity_pos idle_amps_pos hamps

/-! ## Boundaries -/

/-- An accepted poll that is no repetition of the last one before it. -/
structure Accepted (before : List Call) (battery : Option Battery) (reading : Reading) (last : Arrival) : Prop where
  checked_eq : checked battery = some reading
  last_eq : (acceptedSince before).getLast? = some last
  is_new : reading.updatedAt ≠ last.battery.updatedAt

theorem Accepted.session_last {before : List Call} {battery : Option Battery} {reading : Reading} {last : Arrival}
    (h : Accepted before battery reading last) : (session (acceptedSince before)).getLast? = some last :=
  (getLast?_session _).trans h.last_eq

/-- A call before which nothing may count: a reset, an invalid poll, a gap, a
restarted device, or a turn of the current. -/
inductive Boundary (before : List Call) : Call → Prop where
  | reset : Boundary before .reset
  | invalid {battery : Option Battery} {now : ℚ} (h : checked battery = none) : Boundary before (.update battery now)
  | gap {battery : Option Battery} {now : ℚ} {reading : Reading} {last : Arrival}
      (h : Accepted before battery reading last) (late : STALE_MS ≤ now - last.time) :
      Boundary before (.update battery now)
  | decrease {battery : Option Battery} {now : ℚ} {reading : Reading} {last : Arrival}
      (h : Accepted before battery reading last) (older : reading.updatedAt < last.battery.updatedAt) :
      Boundary before (.update battery now)
  | turn {battery : Option Battery} {now : ℚ} {reading : Reading} {last turned : Arrival}
      (h : Accepted before battery reading last) (active : (⟨now, reading⟩ : Arrival).active = true)
      (latest : latestActive (session (acceptedSince before)) = some turned)
      (opposite : opposite ⟨now, reading⟩ turned = true) : Boundary before (.update battery now)

theorem update_starts {before : List Call} (hsorted : (times before).Pairwise (· ≤ ·)) {battery : Option Battery}
    {reading : Reading} {last : Arrival} {now : ℚ} (h : Accepted before battery reading last)
    (hs : startsSession (session (acceptedSince before)) ⟨now, reading⟩ = true) :
    (run before).update battery now = RuntimeEstimator.reset.update battery now := by
  have htracks := tracks_run hsorted
  have hd : (run before).isDuplicate reading = false := by
    rw [RuntimeEstimator.isDuplicate, htracks.last, h.session_last, Option.any_some, decide_eq_false_iff_not]
    exact h.is_new
  rw [RuntimeEstimator.update_accepted h.checked_eq hd, RuntimeEstimator.update_accepted h.checked_eq rfl, ite_self,
    htracks.restarts_eq (a := ⟨now, reading⟩) h.session_last, if_pos hs]

/-- After a boundary the estimator is where it would be had it just been made. -/
theorem run_boundary {before after : List Call} {c : Call} (hsorted : (times before).Pairwise (· ≤ ·))
    (h : Boundary before c) : run (before ++ c :: after) = run (c :: after) := by
  have hcall : (run before).call c = RuntimeEstimator.reset.call c := by
    cases h with
    | reset => rfl
    | invalid h => simp only [RuntimeEstimator.call, RuntimeEstimator.update, h]
    | gap h late => exact update_starts hsorted h ((startsSession_of_last h.session_last).2 (.inl late))
    | decrease h older => exact update_starts hsorted h ((startsSession_of_last h.session_last).2 (.inr (.inl older)))
    | turn h active latest opposite =>
      exact update_starts hsorted h ((startsSession_of_last h.session_last).2
        (.inr (.inr ⟨active, .inl ⟨_, latest, opposite⟩⟩)))
  rw [run, Lib.Runs.run_append, Lib.Runs.run_cons]
  exact congrArg (Lib.Runs.run RuntimeEstimator.call · after) hcall

/-- Whatever arrives, at times that do not go back: no quotient by zero is
reached, every number shown is honest about the latest reading, every current
averaged stays off the far side of the direction, and nothing before a boundary
has a part in the state. -/
theorem estimator_honest (calls : List Call) (t : ℚ) (h : (times calls ++ [t]).Pairwise (· ≤ ·)) :
    (∃ result, (run calls).snapshot t = some result) ∧
      (∀ direction hours averageAmps windowSeconds,
        (run calls).snapshot t = some (.ready direction hours averageAmps windowSeconds) →
        ∃ last, (run calls).last = some last ∧ Honest last.battery direction hours averageAmps windowSeconds) ∧
      (∀ s ∈ (run calls).segments, ((run calls).direction = 1 → -IDLE_AMPS ≤ s.current) ∧
        ((run calls).direction = -1 → s.current ≤ IDLE_AMPS)) ∧
      ∀ before c after, calls = before ++ c :: after → Boundary before c → run calls = run (c :: after) := by
  have hcalls := (List.pairwise_append.1 h).1
  have htracks := tracks_run hcalls
  have hsorted := session_sorted hcalls
  have hsnap := htracks.snapshot_eq hsorted t
  refine ⟨⟨_, hsnap⟩, ?_, ?_, ?_⟩
  · intro direction hours averageAmps windowSeconds hr
    obtain ⟨last, hl, honest⟩ := referenceAt_honest hsorted (Option.some.inj (hsnap.symm.trans hr))
    exact ⟨last, htracks.last.trans hl, honest⟩
  · intro s hs
    rw [htracks.direction]
    exact session_currents _ _ (htracks.segment_mem hs)
  · rintro before c after rfl hb
    rw [times_append] at hcalls
    exact run_boundary (List.pairwise_append.1 hcalls).1 hb

/-- 18 seconds of discharging at 6 A on average, with 40 Ah left. -/
theorem estimator_honest_alternating : ∃ last,
    (run [poll (-2) 0, poll (-8) 3000, poll (-2) 15000, poll (-8) 18000]).last = some last ∧
      Honest last.battery .discharging (20 / 3) (-6) 18 :=
  (estimator_honest [poll (-2) 0, poll (-8) 3000, poll (-2) 15000, poll (-8) 18000] 18000
    (by decide +kernel)).2.1 _ _ _ _ (by decide +kernel)

end LiTimeGateway.Dashboard
