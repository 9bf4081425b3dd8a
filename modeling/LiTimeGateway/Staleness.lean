import Mathlib.Data.List.Chain
import LiTimeGateway.Ble.BatteryLoop
import LiTimeGateway.Dashboard.RuntimeReference
/-!
# Whether a silent battery can be detected

The dashboard takes a status with an unchanged `updatedAt` for a repetition and
shows nothing 15 s after the last change. `StampLaw` is what that needs of the
firmware: two successive syncs publish different stamps only if a
notification was decoded between them. `syncData` stamps the clock at every
pass, so the law holds just on the runs where each sync finds the clock where
the last one left it or a notification decoded since.
-/

namespace LiTimeGateway

open Lib

/-! ## The law -/

namespace LiTimeBLEProvider

def StampLaw (syncs : List Sync) : Prop :=
  syncs.IsChain fun a b => a.updatedAt ≠ b.updatedAt → a.frames < b.frames

/-- Where the step syncs, the clock reads what the last sync read, or a
notification was decoded since. -/
def Stamped (s : LiTimeBLEProvider) (op : Op) : Prop :=
  ∀ sync ∈ s.runsSync op, ∀ last ∈ s.syncs.getLast?,
    last.updatedAt = sync.now ∨ last.frames < s.bms.frames + (s.delivered op).countP HostEvent.accepted

/-- A step that syncs adds the clock read and the notifications decoded so far. -/
theorem step_syncs (s : LiTimeBLEProvider) (op : Op) :
    (s.step op).syncs = s.syncs ++ ((s.runsSync op).map fun sync =>
      ⟨sync.now, s.bms.frames + (s.delivered op).countP HostEvent.accepted⟩).toList := by
  rw [← (s.decoded_step op).frames]
  cases hsync : s.runsSync op with
  | none =>
    rw [(step_kept hsync).syncs]
    exact (List.append_nil _).symm
  | some io =>
    obtain ⟨bms, hsynced⟩ := step_synced hsync
    exact hsynced.syncs

theorem stampLaw_step {s : LiTimeBLEProvider} {op : Op} (h : StampLaw s.syncs) :
    StampLaw (s.step op).syncs ↔ s.Stamped op := by
  unfold StampLaw Stamped at *
  rw [step_syncs]
  cases hr : s.runsSync op with
  | none => simpa using h
  | some sync =>
    simp only [Option.map_some, Option.toList_some, List.isChain_append, h, List.isChain_singleton, true_and,
      Option.mem_some_iff, List.head?_cons, forall_eq', ne_eq]
    exact forall₂_congr fun last _ => or_iff_not_imp_left.symm

theorem stampLaw_of_run {s : LiTimeBLEProvider} {ops : List Op} (h : StampLaw (Runs.run step s ops).syncs) :
    StampLaw s.syncs := by
  induction ops generalizing s with
  | nil => exact h
  | cons op ops ih =>
    have hstep := ih h
    unfold StampLaw at hstep ⊢
    rw [step_syncs] at hstep
    exact (List.isChain_append.1 hstep).1

theorem stampLaw_run_iff {s : LiTimeBLEProvider} (h : StampLaw s.syncs) (ops : List Op) :
    StampLaw (Runs.run step s ops).syncs ↔ Runs.Along step Stamped s ops := by
  induction ops generalizing s with
  | nil => exact iff_of_true h trivial
  | cons op ops ih =>
    constructor
    · intro hrun
      have hstep := stampLaw_of_run (s := s.step op) hrun
      exact ⟨(stampLaw_step h).1 hstep, (ih hstep).1 hrun⟩
    · rintro ⟨hop, hops⟩
      exact (ih ((stampLaw_step h).2 hop)).2 hops

/-! ## Silence -/

/-- The syncs keep count of the notifications decoded. -/
structure Counts (s : LiTimeBLEProvider) : Prop where
  sorted : s.syncs.Pairwise (·.frames ≤ ·.frames)
  bound : ∀ x ∈ s.syncs, x.frames ≤ s.bms.frames

theorem Counts.step {s : LiTimeBLEProvider} (h : s.Counts) (op : Op) : (s.step op).Counts := by
  have hframes := (s.decoded_step op).frames
  have hsyncs := s.step_syncs op
  rw [← hframes] at hsyncs
  have hle : s.bms.frames ≤ (s.step op).bms.frames := by omega
  cases hr : s.runsSync op with
  | none =>
    rw [hr, Option.map_none, Option.toList_none, List.append_nil] at hsyncs
    exact ⟨hsyncs ▸ h.sorted, fun x hx => (h.bound x (hsyncs ▸ hx)).trans hle⟩
  | some sync =>
    rw [hr, Option.map_some, Option.toList_some] at hsyncs
    constructor
    · rw [hsyncs, List.pairwise_append]
      exact ⟨h.sorted, List.pairwise_singleton _ _, fun x hx =>
        List.forall_mem_singleton.2 ((h.bound x hx).trans hle)⟩
    · rw [hsyncs]
      exact List.forall_mem_append.2 ⟨fun x hx => (h.bound x hx).trans hle,
        List.forall_mem_singleton.2 (Nat.le_refl _)⟩

theorem counts_run (ops : List Op) : (Runs.run step {} ops).Counts :=
  Runs.run_inv (C := fun _ _ => True) (fun _ op hs _ => hs.step op) ⟨List.Pairwise.nil, nofun⟩
    (Runs.along_true (fun _ _ => trivial) _ ops)

/-- While nothing is decoded the law keeps the stamp where it is. -/
theorem silent_stamps {syncs : List Sync} (hsorted : syncs.Pairwise (·.frames ≤ ·.frames)) (h : StampLaw syncs) :
    syncs.Pairwise fun a b => a.frames = b.frames → a.updatedAt = b.updatedAt := by
  induction syncs with
  | nil => exact .nil
  | cons a syncs ih =>
    cases syncs with
    | nil => exact List.pairwise_singleton _ _
    | cons b syncs =>
      -- Equal counts at the ends mean equal counts, hence equal stamps, all the way between.
      obtain ⟨hab, hrest⟩ := List.isChain_cons_cons.1 h
      obtain ⟨hle, hsorted⟩ := List.pairwise_cons.1 hsorted
      have hlater := ih hsorted hrest
      refine List.pairwise_cons.2 ⟨?_, hlater⟩
      intro c hc hframes
      have h1 := hle b List.mem_cons_self
      have h2 : b.frames ≤ c.frames := by
        rcases List.mem_cons.1 hc with rfl | hc
        · exact Nat.le_refl _
        · exact List.rel_of_pairwise_cons hsorted hc
      have hstamp : a.updatedAt = b.updatedAt := by
        by_contra hne
        have := hab hne
        omega
      rcases List.mem_cons.1 hc with rfl | hc
      · exact hstamp
      · exact hstamp.trans (List.rel_of_pairwise_cons hlater hc (by omega))

theorem same_stamp {syncs : List Sync} (hsorted : syncs.Pairwise (·.frames ≤ ·.frames)) (h : StampLaw syncs)
    {a b : Sync} (ha : a ∈ syncs) (hb : b ∈ syncs) (hf : a.frames = b.frames) : a.updatedAt = b.updatedAt :=
  have : Std.Symm fun a b : Sync => a.frames = b.frames → a.updatedAt = b.updatedAt :=
    ⟨fun _ _ h hf => (h hf.symm).symm⟩
  (silent_stamps hsorted h).forall_of_forall (fun _ _ _ => rfl) ha hb hf

end LiTimeBLEProvider

/-! ## The dashboard -/

namespace Dashboard

/-- A valid poll with this stamp. -/
def StampedPoll (updatedAt : ℚ) (c : Call) : Prop :=
  ∃ battery now reading, c = .update battery now ∧ checked battery = some reading ∧ reading.updatedAt = updatedAt

theorem repeats_change_nothing {e : RuntimeEstimator} {last : Arrival} (hl : e.last = some last) {polls : List Call}
    (h : ∀ c ∈ polls, StampedPoll last.battery.updatedAt c) : Runs.run RuntimeEstimator.call e polls = e := by
  induction polls with
  | nil => rfl
  | cons c polls ih =>
    obtain ⟨hc, hpolls⟩ := List.forall_mem_cons.1 h
    obtain ⟨battery, now, reading, rfl, hchecked, hstamp⟩ := hc
    have hd : e.isDuplicate reading = true := by
      rw [RuntimeEstimator.isDuplicate, hl, Option.any_some, hstamp, decide_eq_true rfl]
    have hstep : e.call (.update battery now) = e := by
      simp [RuntimeEstimator.call, RuntimeEstimator.update, hchecked, hd]
    rw [Runs.run_cons, hstep, ih hpolls]

/-- Polls that keep repeating a stamp are stale 15 s after the first of them. -/
theorem unavailable_after_repetition {before polls : List Call} {u first t : ℚ}
    (hsorted : (times (before ++ polls)).Pairwise (· ≤ ·)) (hfirst : first ∈ (times polls).head?)
    (hpolls : ∀ c ∈ polls, StampedPoll u c) (ht : STALE_MS ≤ t - first) :
    (run (before ++ polls)).snapshot t = some .unavailable := by
  cases polls with
  | nil => cases hfirst
  | cons c polls =>
    obtain ⟨hc, hrest⟩ := List.forall_mem_cons.1 hpolls
    obtain ⟨battery, now, reading, rfl, hchecked, hstamp⟩ := hc
    obtain rfl : now = first := Option.some.inj hfirst
    -- The first poll is a repetition itself, or is accepted when it arrives.
    have hlast : ∃ last, ((run before).update battery now).last = some last ∧ last.time ≤ now ∧
        last.battery.updatedAt = u := by
      cases hd : (run before).isDuplicate reading with
      | true =>
        obtain ⟨last, hl, hsame⟩ := (Option.any_eq_true ..).1 hd
        have hsame : reading.updatedAt = last.battery.updatedAt := by simpa using hsame
        have hkeep : (run before).update battery now = run before := by
          simp [RuntimeEstimator.update, hchecked, hd]
        refine ⟨last, by rw [hkeep, hl], ?_, hsame.symm.trans hstamp⟩
        rw [times_append, List.pairwise_append] at hsorted
        have htracks := (tracks_run hsorted.1).last.trans (getLast?_session _)
        have hmem : last.time ∈ times before :=
          (times_accepted before).subset (List.mem_map_of_mem (List.mem_of_getLast? (htracks.symm.trans hl)))
        exact hsorted.2.2 _ hmem _ List.mem_cons_self
      | false =>
        rw [RuntimeEstimator.update_accepted hchecked hd]
        exact ⟨⟨now, reading⟩, rfl, le_refl _, hstamp⟩
    obtain ⟨last, hl, hle, hu⟩ := hlast
    have hrun : run (before ++ .update battery now :: polls) = (run before).update battery now := by
      rw [run, Runs.run_append, Runs.run_cons]
      exact repeats_change_nothing hl (by rwa [hu])
    have hstale : STALE_MS ≤ t - last.time := by linarith
    rw [hrun, RuntimeEstimator.snapshot, hl]
    exact if_pos hstale

end Dashboard

/-! ## The firmware loop -/

open LiTimeBLEProvider BatteryLoop

/-- In a run of the firmware the stamps obey the law exactly when every sync finds
the clock where the last one left it, or a notification decoded since; and under the law,
statuses of a battery that has stopped notifying are stale 15 s after the first of them. -/
theorem stamp_law_iff (scanner : Bool) (io : ScanIo) (es : List Event) :
    (StampLaw (Runs.run BatteryLoop.step (setup scanner io) es).battery.syncs ↔
        Runs.Along LiTimeBLEProvider.step Stamped {} (firmwareOps scanner io es)) ∧
      (StampLaw (Runs.run BatteryLoop.step (setup scanner io) es).battery.syncs →
        ∀ (frames : Nat) (before polls : List Dashboard.Call) (first t : ℚ),
          (Dashboard.times (before ++ polls)).Pairwise (· ≤ ·) → first ∈ (Dashboard.times polls).head? →
          (∀ c ∈ polls, ∃ x ∈ (Runs.run BatteryLoop.step (setup scanner io) es).battery.syncs,
            x.frames = frames ∧ Dashboard.StampedPoll x.updatedAt.toNat c) →
          Dashboard.STALE_MS ≤ t - first → (Dashboard.run (before ++ polls)).snapshot t = some .unavailable) := by
  rw [firmware_battery]
  refine ⟨stampLaw_run_iff (s := {}) .nil _, ?_⟩
  intro hlaw frames before polls first t hsorted hfirst hpolls ht
  cases polls with
  | nil => cases hfirst
  | cons c polls =>
    obtain ⟨x, hx, hframes, -⟩ := hpolls c List.mem_cons_self
    apply Dashboard.unavailable_after_repetition hsorted hfirst (u := x.updatedAt.toNat) _ ht
    intro c hc
    obtain ⟨y, hy, hsame, hpoll⟩ := hpolls c hc
    rwa [same_stamp (counts_run _).sorted hlaw hy hx (hsame.trans hframes.symm)] at hpoll

/-- A reading of 2 A that has decoded once, stamped anew. -/
def restamped (updatedAt now : ℚ) : Dashboard.Call :=
  .update (some ⟨true, true, some (-2), some 40, some 100, some updatedAt⟩) now

/-- A pass that finds the battery connected and does not scan. -/
def connectedPass (now : UInt32) : PassIo where
  sync := { update := ⟨now, now + 5, [], true⟩, now := now + 10 }
  rescan := now + 20
  scan := { now, sync := { update := ⟨now, now, [], true⟩, now } }

/-- One notification, and then silence with the link up: each pass stamps what it
has again, and 24 s into the silence the dashboard still counts the statuses as new readings. -/
theorem silent_battery_restamped :
    let g := Runs.run BatteryLoop.step
      (setup true
        { now := 100
          whileScanning := []
          found := some (ascii "c8:47:80:0f:1a:02")
          connect := { whileSubscribing := [.notify 0 (List.replicate 104 1)] }
          sync := { update := ⟨500, 500, [], true⟩, now := 510 } })
      [.pass (connectedPass 12500), .pass (connectedPass 24500)]
    g.battery.syncs = [⟨510, 1⟩, ⟨12510, 1⟩, ⟨24510, 1⟩] ∧ ¬ StampLaw g.battery.syncs ∧
      (Dashboard.run [restamped 510 0, restamped 12510 12000, restamped 24510 24000]).snapshot 24000 ≠
        some .unavailable := by
  refine ⟨by decide +kernel, fun h => ?_, by decide +kernel⟩
  exact absurd ((List.isChain_cons_cons.1 h).1 (by decide +kernel)) (by decide +kernel)

end LiTimeGateway
