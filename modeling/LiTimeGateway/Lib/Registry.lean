import LiTimeGateway.Lib.Runs
/-!
# One record for each key

A registry is a list of records that events are entered into: an event whose key
no record has appends a new record, and another one changes the first record of
its key in place. However the events of different keys interleave, the records
stand in the order in which their keys first occurred (`keys_run`), and each is
what the events of its own key make of it (`mem_run`).
-/

namespace Lib

/-- What a new record is, and what an event makes of a record; neither leaves the key. -/
structure Registry (κ ρ ε : Type*) where
  keyOf : ρ → κ
  key : ε → κ
  new : ε → ρ
  update : ρ → ε → ρ
  keyOf_new : ∀ e, keyOf (new e) = key e
  keyOf_update : ∀ r e, keyOf (update r e) = keyOf r

namespace Registry

variable {κ ρ ε : Type*} (R : Registry κ ρ ε)

/-- What an event makes of the record that was there, if one was. -/
def next (r : Option ρ) (e : ε) : ρ := (r.map fun r => R.update r e).getD (R.new e)

/-- The record after events of one key. -/
def record (es : List ε) : Option ρ := es.foldl (fun r e => some (R.next r e)) none

theorem record_concat {R : Registry κ ρ ε} (es : List ε) (e : ε) :
    R.record (es ++ [e]) = some (R.next (R.record es) e) := by
  rw [record, List.foldl_append]
  rfl

variable [DecidableEq κ]

def enter : List ρ → ε → List ρ
  | [], e => [R.new e]
  | r :: rest, e => if R.keyOf r = R.key e then R.update r e :: rest else r :: enter rest e

/-- The first record of this key. -/
def lookup (table : List ρ) (k : κ) : Option ρ := table.find? fun r => R.keyOf r = k

variable {R}

theorem lookup_enter (table : List ρ) (e : ε) (k : κ) :
    R.lookup (R.enter table e) k = if R.key e = k then some (R.next (R.lookup table k) e) else R.lookup table k := by
  induction table with
  | nil =>
    rw [enter, lookup, lookup, List.find?_cons, R.keyOf_new]
    by_cases hk : R.key e = k <;> simp [hk, next]
  | cons r table ih =>
    rw [lookup] at ih
    rw [enter, lookup, lookup, List.find?_cons]
    by_cases hr : R.keyOf r = R.key e
    · rw [if_pos hr, List.find?_cons, R.keyOf_update, hr]
      by_cases hk : R.key e = k <;> simp [hk, next]
    · rw [if_neg hr, List.find?_cons, ih]
      by_cases hk : R.keyOf r = k
      · have hne : R.key e ≠ k := fun h => hr (hk.trans h.symm)
        simp [hk, hne]
      · simp [hk, lookup]

theorem keys_enter (table : List ρ) (e : ε) :
    (R.enter table e).map R.keyOf =
      if R.key e ∈ table.map R.keyOf then table.map R.keyOf else table.map R.keyOf ++ [R.key e] := by
  induction table with
  | nil => simp [enter, R.keyOf_new]
  | cons r table ih =>
    rw [enter]
    by_cases hr : R.keyOf r = R.key e
    · rw [if_pos hr, List.map_cons, R.keyOf_update, if_pos (by rw [List.map_cons, hr]; exact List.mem_cons_self)]
      rfl
    · rw [if_neg hr, List.map_cons, ih, List.map_cons]
      by_cases hmem : R.key e ∈ table.map R.keyOf
      · rw [if_pos hmem, if_pos (List.mem_cons_of_mem _ hmem)]
      · rw [if_neg hmem, if_neg (mt (List.mem_of_ne_of_mem (Ne.symm hr)) hmem)]
        rfl

/-- The records stand in the order in which their keys first occurred. -/
theorem keys_run (es : List ε) : (Runs.run R.enter [] es).map R.keyOf = (es.map R.key).eraseDups := by
  induction es using List.reverseRecOn with
  | nil => rfl
  | append_singleton es e ih =>
    rw [Runs.run_concat, keys_enter, ih, List.map_append, List.eraseDups_append, List.map_singleton, List.removeAll]
    by_cases hmem : R.key e ∈ es.map R.key
    · rw [if_pos (List.mem_eraseDups.2 hmem), List.filter_cons_of_neg (by simpa using hmem)]
      exact (List.append_nil _).symm
    · rw [if_neg (mt List.mem_eraseDups.1 hmem), List.filter_cons_of_pos (by simpa using hmem)]
      rfl

theorem lookup_run (es : List ε) (k : κ) :
    R.lookup (Runs.run R.enter [] es) k = R.record (es.filter fun e => R.key e = k) := by
  induction es using List.reverseRecOn with
  | nil => rfl
  | append_singleton es e ih =>
    rw [Runs.run_concat, lookup_enter, List.filter_append, ih]
    by_cases hk : R.key e = k
    · rw [if_pos hk, List.filter_cons_of_pos (by simpa using hk), List.filter_nil, record_concat]
    · rw [if_neg hk, List.filter_cons_of_neg (by simpa using hk), List.filter_nil, List.append_nil]

theorem nodup_eraseDups (keys : List κ) : keys.eraseDups.Nodup := by
  induction hlength : keys.length using Nat.strongRecOn generalizing keys with
  | ind n ih =>
    cases keys with
    | nil => exact List.nodup_nil
    | cons k keys =>
      rw [List.eraseDups_cons, List.nodup_cons, List.mem_eraseDups]
      refine ⟨by simp, ih _ ?_ _ rfl⟩
      rw [← hlength, List.length_cons]
      exact Nat.lt_succ_of_le (List.length_filter_le _ _)

/-- Where no key occurs twice, a record is in the list when a search for its key finds it. -/
theorem mem_iff_lookup {table : List ρ} (h : (table.map R.keyOf).Nodup) {r : ρ} :
    r ∈ table ↔ R.lookup table (R.keyOf r) = some r := by
  constructor
  · intro hr
    induction table with
    | nil => cases hr
    | cons s table ih =>
      rw [List.map_cons, List.nodup_cons] at h
      rw [lookup, List.find?_cons]
      rcases List.mem_cons.1 hr with rfl | hr
      · simp
      · have hne : R.keyOf s ≠ R.keyOf r := fun heq => h.1 (heq ▸ List.mem_map_of_mem hr)
        rw [decide_eq_false hne]
        exact ih h.2 hr
  · exact List.mem_of_find?_eq_some

/-- Each record is what the events of its own key make of it. -/
theorem mem_run (es : List ε) (r : ρ) :
    r ∈ Runs.run R.enter [] es ↔ R.record (es.filter fun e => R.key e = R.keyOf r) = some r := by
  rw [mem_iff_lookup (by rw [keys_run]; exact nodup_eraseDups _), lookup_run]

end Registry

end Lib
