import Mathlib.Data.List.DropRight
import Mathlib.Tactic.Linarith
import LiTimeGateway.Lib.StepMean
import LiTimeGateway.Dashboard.RuntimeEstimator
/-!
# The estimator against the whole history

The reference keeps every accepted reading since the last clear, cuts the
current session out of them and averages over all of it, pruning nothing and
caching nothing. `Tracks` says how the four fields of the estimator follow from
the session; every call keeps it, so a snapshot is the reference's answer.
-/

namespace LiTimeGateway.Dashboard

open Lib.StepMean

/-! ## The reference -/

/-- A reading that is not idle. -/
def Arrival.active (a : Arrival) : Bool := IDLE_AMPS < |a.battery.current|

/-- The readings accepted since the last clear: all of the valid ones but
repetitions of the one before. -/
def accept (accepted : List Arrival) : Call → List Arrival
  | .reset => []
  | .update battery now =>
    match checked battery with
    | none => []
    | some reading =>
      if accepted.getLast?.any fun last => reading.updatedAt = last.battery.updatedAt then accepted
      else accepted ++ [⟨now, reading⟩]

def acceptedSince (calls : List Call) : List Arrival := calls.foldl accept []

def latestActive (session : List Arrival) : Option Arrival := (session.filter (·.active)).getLast?

/-- The idle readings at the end of the session. -/
def idleRun (session : List Arrival) : List Arrival := session.rtakeWhile (!·.active)

/-- The idle run has lasted a warm-up time at `t`. -/
def idledAt (session : List Arrival) (t : ℚ) : Bool :=
  (idleRun session).head?.any fun first => WARMUP_MS ≤ t - first.time

def opposite (a b : Arrival) : Bool := a.battery.current * b.battery.current < 0

/-- Why a reading does not join the session before it. -/
def startsSession (session : List Arrival) (a : Arrival) : Bool :=
  match session.getLast? with
  | none => true
  | some last =>
    STALE_MS ≤ a.time - last.time || a.battery.updatedAt < last.battery.updatedAt ||
      a.active && ((latestActive session).any (opposite a) || idledAt session a.time)

def extend (session : List Arrival) (a : Arrival) : List Arrival :=
  if startsSession session a then [a] else session ++ [a]

/-- The session the last of these readings is in. -/
def session (accepted : List Arrival) : List Arrival := accepted.foldl extend []

/-- A reading's current holds until the next one. -/
def spans : List Arrival → List (Piece ℚ)
  | a :: b :: rest => ⟨a.time, b.time, a.battery.current⟩ :: spans (b :: rest)
  | _ => []

def referenceAt (session : List Arrival) (t : ℚ) : Snapshot :=
  match session.getLast?, latestActive session with
  | none, _ => .unavailable
  | some last, turned =>
    if STALE_MS ≤ t - last.time then .unavailable
    else
      match turned with
      | none => .idle
      | some turned =>
        if idledAt session t then .idle
        else
          let duration := measure (last.time - WINDOW_MS) last.time (spans session)
          let averageAmps := integral (last.time - WINDOW_MS) last.time (spans session) / duration
          let direction := if 0 < turned.battery.current then Direction.charging else .discharging
          if duration < WARMUP_MS then .warming direction
          else if |averageAmps| ≤ IDLE_AMPS then .idle
          else
            let room := match direction with
              | .charging => last.battery.capacityAh - last.battery.remainingAh
              | .discharging => last.battery.remainingAh
            .ready direction (room / |averageAmps|) averageAmps (duration / 1000)

def reference (calls : List Call) (t : ℚ) : Snapshot := referenceAt (session (acceptedSince calls)) t

/-! ## Directions -/

theorem idle_amps_pos : 0 < IDLE_AMPS := by decide +kernel

theorem active_ne_zero {a : Arrival} (h : a.active = true) : a.battery.current ≠ 0 := by
  have : IDLE_AMPS < |a.battery.current| := by simpa [Arrival.active] using h
  exact abs_pos.1 (idle_amps_pos.trans this)

theorem direction_of_active {a : Arrival} (h : a.active = true) :
    a.battery.direction = SignType.sign a.battery.current := by
  rw [Arrival.active, decide_eq_true_eq] at h
  exact if_pos h

theorem direction_of_idle {a : Arrival} (h : a.active = false) : a.battery.direction = 0 := by
  rw [Arrival.active, decide_eq_false_iff_not] at h
  exact if_neg h

theorem direction_ne_zero_iff (a : Arrival) : a.battery.direction ≠ 0 ↔ a.active = true := by
  cases h : a.active with
  | false => simp [direction_of_idle h]
  | true => simp [direction_of_active h, active_ne_zero h]

/-- The direction of the latest active reading. -/
def sessionDirection (session : List Arrival) : SignType :=
  ((latestActive session).map (·.battery.direction)).getD 0

theorem latestActive_active {session : List Arrival} {a : Arrival} (h : latestActive session = some a) :
    a.active = true :=
  List.of_mem_filter (p := fun a : Arrival => a.active) (List.mem_of_getLast? h)

theorem latestActive_concat (session : List Arrival) (a : Arrival) :
    latestActive (session ++ [a]) = if a.active then some a else latestActive session := by
  cases h : a.active <;> simp [latestActive, h]

theorem idleRun_concat (session : List Arrival) (a : Arrival) :
    idleRun (session ++ [a]) = if a.active then [] else idleRun session ++ [a] := by
  cases h : a.active with
  | false => exact List.rtakeWhile_concat_pos _ _ _ (by simp [h])
  | true => exact List.rtakeWhile_concat_neg _ _ _ (by simp [h])

theorem sign_ne_iff_opposite {x y : ℚ} (hx : x ≠ 0) (hy : y ≠ 0) :
    SignType.sign x ≠ SignType.sign y ↔ x * y < 0 := by
  rcases lt_or_gt_of_ne hx with hx | hx <;> rcases lt_or_gt_of_ne hy with hy | hy
  · simp [sign_neg hx, sign_neg hy, (mul_pos_of_neg_of_neg hx hy).le]
  · simp [sign_neg hx, sign_pos hy, mul_neg_of_neg_of_pos hx hy]
  · simp [sign_pos hx, sign_neg hy, mul_neg_of_pos_of_neg hx hy]
  · simp [sign_pos hx, sign_pos hy, (mul_pos hx hy).le]

/-! ## Spans -/

theorem spans_concat {session : List Arrival} {last : Arrival} (h : session.getLast? = some last) (a : Arrival) :
    spans (session ++ [a]) = spans session ++ [⟨last.time, a.time, last.battery.current⟩] := by
  induction session with
  | nil => cases h
  | cons b session ih =>
    cases session with
    | nil =>
      cases h
      rfl
    | cons c session => exact congrArg (_ :: ·) (ih h)

/-- The spans of a session lead from its first reading to its last. -/
theorem chain_spans {a last : Arrival} {session : List Arrival} (h : (a :: session).Pairwise (·.time ≤ ·.time))
    (hl : (a :: session).getLast? = some last) : Chain a.time last.time (spans (a :: session)) := by
  induction session generalizing a with
  | nil =>
    cases hl
    exact .nil _
  | cons b session ih =>
    exact .cons (List.rel_of_pairwise_cons h (List.mem_cons_self ..)) (ih (List.Pairwise.of_cons h) hl)

theorem stop_le_of_chain {a b : ℚ} {ps : List (Piece ℚ)} (h : Chain a b ps) : ∀ p ∈ ps, p.stop ≤ b := by
  induction h with
  | nil a => nofun
  | cons le rest ih => exact List.forall_mem_cons.2 ⟨rest.le, ih⟩

/-- What is left of the spans once the window has moved up to the last reading. -/
def windowed (session : List Arrival) : List (Piece ℚ) :=
  match session.getLast? with
  | none => []
  | some last => recent (last.time - WINDOW_MS) (spans session)

/-! ## The simulation -/

def Segment.piece (segment : Segment) : Piece ℚ := ⟨segment.start, segment.stop, segment.current⟩

/-- The fields of the estimator, as they follow from the session. -/
structure Tracks (e : RuntimeEstimator) (session : List Arrival) : Prop where
  last : e.last = session.getLast?
  direction : e.direction = sessionDirection session
  idleSince : e.idleSince = (idleRun session).head?.map Arrival.time
  segments : e.segments.map Segment.piece = windowed session

theorem tracks_reset : Tracks .reset [] := ⟨rfl, rfl, rfl, rfl⟩

theorem Tracks.eq_reset {e : RuntimeEstimator} (h : Tracks e []) : e = .reset := by
  obtain ⟨segments, last, direction, idleSince⟩ := e
  obtain ⟨rfl, rfl, rfl, hs⟩ := h
  obtain rfl : segments = [] := List.map_eq_nil_iff.1 hs
  rfl

theorem Tracks.idleLong_eq {e : RuntimeEstimator} {session : List Arrival} (h : Tracks e session) (t : ℚ) :
    e.idleLong t = idledAt session t := by
  rw [RuntimeEstimator.idleLong, h.idleSince, idledAt, Option.any_map]

namespace RuntimeEstimator

theorem turn_direction (e : RuntimeEstimator) (direction : SignType) (now : ℚ) :
    (e.turn direction now).direction = if direction ≠ 0 then direction else e.direction := by
  unfold turn
  split
  · rfl
  · split <;> rfl

theorem turn_idleSince (e : RuntimeEstimator) (direction : SignType) (now : ℚ) :
    (e.turn direction now).idleSince = if direction ≠ 0 then none else e.idleSince.or (some now) := by
  unfold turn
  split
  · rfl
  · cases h : e.idleSince <;> simp [h]

theorem turn_keeps (e : RuntimeEstimator) (direction : SignType) (now : ℚ) :
    (e.turn direction now).last = e.last ∧ (e.turn direction now).segments = e.segments := by
  unfold turn
  split
  · exact ⟨rfl, rfl⟩
  · split <;> exact ⟨rfl, rfl⟩

theorem push_segments (e : RuntimeEstimator) (reading : Reading) (now : ℚ) :
    (e.push reading now).segments.map Segment.piece =
      recent (now - WINDOW_MS)
        (e.segments.map Segment.piece ++ (e.last.map fun last => ⟨last.time, now, last.battery.current⟩).toList) := by
  have hfilter : ∀ segments : List Segment,
      (segments.filter fun segment => now - WINDOW_MS < segment.stop).map Segment.piece =
        recent (now - WINDOW_MS) (segments.map Segment.piece) := fun segments => by
    rw [recent, List.filter_map]
    rfl
  unfold push
  cases h : e.last with
  | none => simp [hfilter]
  | some last => simp [hfilter, recent_append, Segment.piece]

end RuntimeEstimator

theorem sessionDirection_concat (session : List Arrival) (a : Arrival) :
    sessionDirection (session ++ [a]) = if a.active then a.battery.direction else sessionDirection session := by
  rw [sessionDirection, latestActive_concat]
  split <;> rfl

/-- A reading that joins the session. -/
theorem Tracks.advance {e : RuntimeEstimator} {session : List Arrival} (h : Tracks e session) {a : Arrival}
    (hle : ∀ last ∈ session.getLast?, last.time ≤ a.time) :
    Tracks ((e.turn a.battery.direction a.time).push a.battery a.time) (session ++ [a]) := by
  obtain ⟨hlast, hseg⟩ := e.turn_keeps a.battery.direction a.time
  have hactive := direction_ne_zero_iff a
  refine ⟨List.getLast?_concat.symm, ?_, ?_, ?_⟩
  · rw [RuntimeEstimator.push, e.turn_direction, sessionDirection_concat, h.direction]
    simp only [hactive]
  · rw [RuntimeEstimator.push, e.turn_idleSince, idleRun_concat, h.idleSince]
    simp only [hactive]
    split
    · rfl
    · simp [List.head?_append]
  · rw [RuntimeEstimator.push_segments, hlast, hseg, h.segments, h.last, windowed, windowed, List.getLast?_concat]
    cases hs : session.getLast? with
    | none =>
      obtain rfl := List.getLast?_eq_none_iff.1 hs
      rfl
    | some last =>
      -- The window only moves forward, so what was pruned before would be pruned now.
      have hle := sub_le_sub_right (hle last hs) WINDOW_MS
      rw [recent_append, recent_recent hle, ← recent_append, spans_concat hs]
      rfl

/-! ## One call -/

theorem getLast?_session (accepted : List Arrival) : (session accepted).getLast? = accepted.getLast? := by
  induction accepted using List.reverseRecOn with
  | nil => rfl
  | append_singleton accepted a _ =>
    rw [session, List.foldl_append, List.foldl_cons, List.foldl_nil, extend, List.getLast?_concat]
    split
    · rfl
    · exact List.getLast?_concat

theorem session_concat (accepted : List Arrival) (a : Arrival) :
    session (accepted ++ [a]) = extend (session accepted) a := by
  rw [session, List.foldl_append]
  rfl

/-- Why the estimator starts again at a reading that is not a repetition. -/
def RuntimeEstimator.restarts (e : RuntimeEstimator) (reading : Reading) (now : ℚ) : Bool :=
  e.isBroken reading now ||
    reading.direction ≠ 0 && (e.direction ≠ 0 && reading.direction ≠ e.direction || e.idleLong now)

/-- The three resets of `update`, one after the other, are one. -/
theorem RuntimeEstimator.update_accepted {e : RuntimeEstimator} {battery : Option Battery} {reading : Reading}
    {now : ℚ} (hc : checked battery = some reading) (hd : e.isDuplicate reading = false) :
    e.update battery now =
      ((if e.restarts reading now then .reset else e).turn reading.direction now).push reading now := by
  unfold update restarts
  rw [hc]
  simp only [hd, Bool.false_eq_true, if_false]
  cases hb : e.isBroken reading now with
  | true =>
    -- A reset estimator has no direction and has not been idle: the other two do nothing.
    simp [reset, idleLong]
  | false =>
    by_cases hr : reading.direction = 0
    · simp [hr]
    · cases hi : e.idleLong now <;> simp [hr, hi, reset]

theorem Tracks.restarts_eq {e : RuntimeEstimator} {session : List Arrival} (h : Tracks e session) {a last : Arrival}
    (hl : session.getLast? = some last) : e.restarts a.battery a.time = startsSession session a := by
  have hlast : e.last = some last := h.last.trans hl
  have hopposite : (decide (e.direction ≠ 0) && decide (a.battery.direction ≠ e.direction) && a.active) =
      (a.active && (latestActive session).any (opposite a)) := by
    rw [h.direction, sessionDirection]
    cases hb : latestActive session with
    | none => simp
    | some b =>
      have hba := latestActive_active hb
      cases ha : a.active with
      | false => simp
      | true =>
        have := sign_ne_iff_opposite (active_ne_zero ha) (active_ne_zero hba)
        rw [← direction_of_active ha, ← direction_of_active hba] at this
        simp [opposite, this, (direction_ne_zero_iff b).2 hba]
  have hactive : decide (a.battery.direction ≠ 0) = a.active := by
    rw [Bool.eq_iff_iff, decide_eq_true_iff, direction_ne_zero_iff]
  rw [RuntimeEstimator.restarts, RuntimeEstimator.isBroken, hlast, startsSession, hl, h.idleLong_eq, hactive,
    Bool.and_or_distrib_left, Bool.and_comm a.active, hopposite, Bool.and_or_distrib_left]
  rfl

/-- A call does to the session what it does to the estimator. -/
theorem Tracks.call {e : RuntimeEstimator} {accepted : List Arrival} (h : Tracks e (session accepted)) {c : Call}
    (hle : ∀ last ∈ accepted.getLast?, ∀ now ∈ times [c], last.time ≤ now) :
    Tracks (e.call c) (session (accept accepted c)) := by
  cases c with
  | reset => exact tracks_reset
  | update battery now =>
    have hlast := h.last.trans (getLast?_session accepted)
    cases hc : checked battery with
    | none =>
      simp only [RuntimeEstimator.call, RuntimeEstimator.update, accept, hc]
      exact tracks_reset
    | some reading =>
      cases hd : e.isDuplicate reading with
      | true =>
        have hrepeat := hd
        rw [RuntimeEstimator.isDuplicate, hlast] at hrepeat
        simpa [RuntimeEstimator.call, RuntimeEstimator.update, accept, hc, hd, hrepeat] using h
      | false =>
        have hnew := hd
        rw [RuntimeEstimator.isDuplicate, hlast] at hnew
        rw [RuntimeEstimator.call, RuntimeEstimator.update_accepted hc hd]
        simp only [accept, hc, hnew, Bool.false_eq_true, if_false]
        rw [session_concat, extend]
        cases hl : (session accepted).getLast? with
        | none =>
          -- With no session yet the estimator is new, and a reset changes nothing.
          have hs := List.getLast?_eq_none_iff.1 hl
          rw [hs] at h
          rw [h.eq_reset, ite_self, hs]
          exact tracks_reset.advance (a := ⟨now, reading⟩) nofun
        | some last =>
          rw [h.restarts_eq (a := ⟨now, reading⟩) hl]
          split
          · exact tracks_reset.advance (a := ⟨now, reading⟩) nofun
          · apply h.advance (a := ⟨now, reading⟩)
            intro last hm
            rw [getLast?_session] at hm
            exact hle last hm now (by simp [times])

/-! ## Runs -/

theorem run_concat (calls : List Call) (c : Call) : run (calls ++ [c]) = (run calls).call c :=
  Lib.Runs.run_concat _ _ _

theorem acceptedSince_concat (calls : List Call) (c : Call) :
    acceptedSince (calls ++ [c]) = accept (acceptedSince calls) c := by
  rw [acceptedSince, List.foldl_append]
  rfl

theorem times_append (before after : List Call) : times (before ++ after) = times before ++ times after :=
  List.filterMap_append

theorem times_accepted (calls : List Call) : ((acceptedSince calls).map Arrival.time).Sublist (times calls) := by
  induction calls using List.reverseRecOn with
  | nil => exact List.Sublist.refl _
  | append_singleton calls c ih =>
    rw [acceptedSince_concat, times_append]
    cases c with
    | reset => exact List.nil_sublist _
    | update battery now =>
      cases hc : checked battery with
      | none =>
        simp only [accept, hc]
        exact List.nil_sublist _
      | some reading =>
        simp only [accept, hc]
        split
        · exact ih.trans (List.sublist_append_left _ _)
        · rw [List.map_append]
          exact ih.append (List.Sublist.refl _)

theorem session_suffix (accepted : List Arrival) : session accepted <:+ accepted := by
  induction accepted using List.reverseRecOn with
  | nil => exact List.suffix_rfl
  | append_singleton accepted a ih =>
    rw [session_concat, extend]
    split
    · exact List.suffix_append _ _
    · obtain ⟨before, h⟩ := ih
      exact ⟨before, by rw [← List.append_assoc, h]⟩

theorem session_sorted {calls : List Call} (h : (times calls).Pairwise (· ≤ ·)) :
    (session (acceptedSince calls)).Pairwise (·.time ≤ ·.time) :=
  List.pairwise_map.1 (h.sublist (((session_suffix _).sublist.map _).trans (times_accepted calls)))

theorem tracks_run {calls : List Call} (h : (times calls).Pairwise (· ≤ ·)) :
    Tracks (run calls) (session (acceptedSince calls)) := by
  induction calls using List.reverseRecOn with
  | nil => exact tracks_reset
  | append_singleton calls c ih =>
    rw [times_append, List.pairwise_append] at h
    rw [run_concat, acceptedSince_concat]
    apply (ih h.1).call
    intro last hl now hn
    have hmem : last.time ∈ times calls :=
      (times_accepted calls).subset (List.mem_map_of_mem (List.mem_of_getLast? hl))
    exact h.2.2 _ hmem _ hn

/-! ## Snapshots -/

/-- The loop over the segments integrates them over the window. -/
theorem foldl_addSegment {lo hi : ℚ} {segments : List Segment} (h : ∀ s ∈ segments, s.stop ≤ hi) (sums : ℚ × ℚ) :
    segments.foldl (RuntimeEstimator.addSegment lo) sums =
      (sums.1 + measure lo hi (segments.map Segment.piece), sums.2 + integral lo hi (segments.map Segment.piece)) := by
  induction segments generalizing sums with
  | nil => simp
  | cons s segments ih =>
    obtain ⟨hs, hrest⟩ := List.forall_mem_cons.1 h
    have hms : max 0 (s.stop - max s.start lo) = overlap lo hi s.piece :=
      (overlap_of_stop_le lo (p := s.piece) hs).symm
    rw [List.foldl_cons, ih hrest, RuntimeEstimator.addSegment, hms, List.map_cons, measure_cons, integral_cons,
      add_assoc, add_assoc]
    rfl

theorem Tracks.segment_mem {e : RuntimeEstimator} {session : List Arrival} (h : Tracks e session) {s : Segment}
    (hs : s ∈ e.segments) : s.piece ∈ spans session := by
  have hmem : s.piece ∈ windowed session := h.segments ▸ List.mem_map_of_mem hs
  unfold windowed at hmem
  split at hmem
  · cases hmem
  · exact List.mem_of_mem_filter hmem

/-- What the estimator sums up is the session's step function in the window. -/
theorem Tracks.sums {e : RuntimeEstimator} {session : List Arrival} (h : Tracks e session) {last : Arrival}
    (hl : session.getLast? = some last) (hsorted : session.Pairwise (·.time ≤ ·.time)) :
    e.segments.foldl (RuntimeEstimator.addSegment (last.time - WINDOW_MS)) (0, 0) =
      (measure (last.time - WINDOW_MS) last.time (spans session),
        integral (last.time - WINDOW_MS) last.time (spans session)) := by
  have hseg : e.segments.map Segment.piece = recent (last.time - WINDOW_MS) (spans session) := by
    rw [h.segments, windowed, hl]
  have hstop : ∀ s ∈ e.segments, s.stop ≤ last.time := by
    intro s hs
    cases session with
    | nil => cases hl
    | cons a session => exact stop_le_of_chain (chain_spans hsorted hl) _ (h.segment_mem hs)
  rw [foldl_addSegment hstop, hseg, measure_recent, integral_recent, zero_add, zero_add]

theorem divide_of_ne {x y : ℚ} (h : y ≠ 0) : RuntimeEstimator.divide x y = some (x / y) := if_neg h

theorem warmup_pos : 0 < WARMUP_MS := by decide +kernel

theorem Tracks.snapshot_eq {e : RuntimeEstimator} {session : List Arrival} (h : Tracks e session)
    (hsorted : session.Pairwise (·.time ≤ ·.time)) (t : ℚ) : e.snapshot t = some (referenceAt session t) := by
  unfold RuntimeEstimator.snapshot referenceAt
  rw [h.last, h.direction, h.idleLong_eq]
  cases hl : session.getLast? with
  | none => rfl
  | some last =>
    simp only [h.sums hl hsorted, sessionDirection]
    split
    · rfl
    obtain hturned | ⟨turned, hturned⟩ := Option.eq_none_or_eq_some (latestActive session)
    · simp [hturned]
    · have hactive := latestActive_active hturned
      have hne : turned.battery.direction ≠ 0 := (direction_ne_zero_iff turned).2 hactive
      have hpos : 0 < turned.battery.direction ↔ 0 < turned.battery.current := by
        rw [direction_of_active hactive, ← not_le, sign_nonpos_iff, not_le]
      simp only [hturned, Option.map_some, Option.getD_some, hne, hpos, decide_false, Bool.false_or]
      split
      · rfl
      split
      · rfl
      · next hwarm =>
        have hduration := (warmup_pos.trans_le (not_lt.1 hwarm)).ne'
        rw [divide_of_ne hduration, Option.bind_eq_bind, Option.bind_some]
        split
        · rfl
        · next hamps =>
          have hmean := (idle_amps_pos.trans (not_le.1 hamps)).ne'
          rw [divide_of_ne hmean, divide_of_ne (by decide)]
          by_cases hdir : 0 < turned.battery.current <;> simp [hdir]

/-- Over every sequence of calls at times that do not go back, a snapshot at any
later time is what the whole history gives. -/
theorem snapshot_eq_reference (calls : List Call) (t : ℚ) (h : (times calls ++ [t]).Pairwise (· ≤ ·)) :
    (run calls).snapshot t = some (reference calls t) := by
  have hcalls := (List.pairwise_append.1 h).1
  exact (tracks_run hcalls).snapshot_eq (session_sorted hcalls) t

/-- A poll of a connected battery at 40 of 100 Ah, stamped with the time. -/
def poll (current now : ℚ) : Call :=
  .update (some ⟨true, true, some current, some 40, some 100, some now⟩) now

/-- Alternating loads at irregular times: time-weighted, the mean is 6 A. -/
theorem snapshot_eq_reference_alternating :
    reference [poll (-2) 0, poll (-8) 3000, poll (-2) 15000, poll (-8) 18000] 18000 =
      .ready .discharging (20 / 3) (-6) 18 :=
  Option.some.inj
    ((snapshot_eq_reference [poll (-2) 0, poll (-8) 3000, poll (-2) 15000, poll (-8) 18000] 18000
      (by decide +kernel)).symm.trans (by decide +kernel))

end LiTimeGateway.Dashboard
