import Mathlib.Algebra.Order.Field.Basic
import Mathlib.Algebra.BigOperators.Group.List.Basic
/-!
# Step functions seen through a window

A list of pieces is a step function of time: `value` from `start` to `stop`.
`measure lo hi` is how long it is defined inside the window from `lo` to `hi`,
and `integral lo hi` what it accumulates there; their quotient is its mean.

The rules: pieces that stop before the window can be dropped (`measure_recent`,
`integral_recent`), a chain of pieces without gaps fills the window from where it
starts (`measure_chain`), and the mean lies between bounds on the values
(`le_mean`, `mean_le`).
-/

namespace Lib.StepMean

structure Piece (α : Type*) where
  start : α
  stop : α
  value : α

variable {α : Type*} [LinearOrder α]

/-- The pieces that stop inside the window or after it. -/
def recent (lo : α) (ps : List (Piece α)) : List (Piece α) := ps.filter fun p => lo < p.stop

/-- The pieces lead from `a` to `b` without gaps. -/
inductive Chain : α → α → List (Piece α) → Prop where
  | nil (a : α) : Chain a a []
  | cons {a b c v : α} {ps : List (Piece α)} (le : a ≤ b) (rest : Chain b c ps) : Chain a c (⟨a, b, v⟩ :: ps)

theorem recent_append (lo : α) (ps qs : List (Piece α)) : recent lo (ps ++ qs) = recent lo ps ++ recent lo qs :=
  List.filter_append ..

/-- Pruning to an earlier window first changes nothing. -/
theorem recent_recent {lo lo' : α} (h : lo ≤ lo') (ps : List (Piece α)) :
    recent lo' (recent lo ps) = recent lo' ps := by
  rw [recent, recent, recent, List.filter_filter]
  refine List.filter_congr fun p _ => ?_
  by_cases hp : lo' < p.stop
  · simp [hp, h.trans_lt hp]
  · simp [hp]

theorem Chain.le {a b : α} {ps : List (Piece α)} (h : Chain a b ps) : a ≤ b := by
  induction h with
  | nil a => exact le_rfl
  | cons le _ ih => exact le.trans ih

variable [Field α]

/-- How long the piece lasts inside the window. -/
def overlap (lo hi : α) (p : Piece α) : α := max 0 (min p.stop hi - max p.start lo)

def measure (lo hi : α) (ps : List (Piece α)) : α := (ps.map (overlap lo hi)).sum

def integral (lo hi : α) (ps : List (Piece α)) : α := (ps.map fun p => p.value * overlap lo hi p).sum

@[simp] theorem measure_nil (lo hi : α) : measure lo hi ([] : List (Piece α)) = 0 := rfl

@[simp] theorem measure_cons (lo hi : α) (p : Piece α) (ps : List (Piece α)) :
    measure lo hi (p :: ps) = overlap lo hi p + measure lo hi ps := by simp [measure]

@[simp] theorem integral_nil (lo hi : α) : integral lo hi ([] : List (Piece α)) = 0 := rfl

@[simp] theorem integral_cons (lo hi : α) (p : Piece α) (ps : List (Piece α)) :
    integral lo hi (p :: ps) = p.value * overlap lo hi p + integral lo hi ps := by simp [integral]

theorem overlap_nonneg (lo hi : α) (p : Piece α) : 0 ≤ overlap lo hi p := le_max_left _ _

theorem overlap_of_stop_le (lo : α) {hi : α} {p : Piece α} (h : p.stop ≤ hi) :
    overlap lo hi p = max 0 (p.stop - max p.start lo) := by
  rw [overlap, min_eq_left h]

variable [IsStrictOrderedRing α]

/-! ## Dropping what is out of the window -/

theorem overlap_of_stop_le_lo {lo : α} (hi : α) {p : Piece α} (h : p.stop ≤ lo) : overlap lo hi p = 0 := by
  refine max_eq_left (sub_nonpos.2 ?_)
  exact (min_le_left _ _).trans (h.trans (le_max_right _ _))

theorem measure_recent (lo hi : α) (ps : List (Piece α)) : measure lo hi (recent lo ps) = measure lo hi ps := by
  unfold recent
  induction ps with
  | nil => rfl
  | cons p ps ih =>
    by_cases h : lo < p.stop
    · simp [h, ih]
    · simp [h, ih, overlap_of_stop_le_lo hi (not_lt.1 h)]

theorem integral_recent (lo hi : α) (ps : List (Piece α)) : integral lo hi (recent lo ps) = integral lo hi ps := by
  unfold recent
  induction ps with
  | nil => rfl
  | cons p ps ih =>
    by_cases h : lo < p.stop
    · simp [h, ih]
    · simp [h, ih, overlap_of_stop_le_lo hi (not_lt.1 h)]

/-! ## Chains -/

/-- A chain that stops inside the window fills the part of it behind its start. -/
theorem measure_chain {a b : α} {ps : List (Piece α)} (h : Chain a b ps) (lo : α) {hi : α} (hb : b ≤ hi) :
    measure lo hi ps = max b lo - max a lo := by
  induction h with
  | nil a => simp
  | @cons a b c v ps le rest ih =>
    have hov : overlap lo hi ⟨a, b, v⟩ = max b lo - max a lo := by
      rw [overlap_of_stop_le lo (rest.le.trans hb)]
      rcases le_total b lo with h | h
      · rw [max_eq_right h, max_eq_right (le.trans h), sub_self]
        exact max_eq_left (sub_nonpos.2 h)
      · rw [max_eq_left h]
        exact max_eq_right (sub_nonneg.2 (max_le le h))
    rw [measure_cons, hov, ih hb, add_comm, sub_add_sub_cancel]

theorem measure_chain_le {a b lo : α} {ps : List (Piece α)} (h : Chain a b ps) (hlo : lo ≤ b) :
    measure lo b ps ≤ b - lo := by
  rw [measure_chain h lo le_rfl, max_eq_left hlo]
  exact sub_le_sub_left (le_max_right _ _) _

/-! ## The mean -/

theorem le_integral {m lo hi : α} {ps : List (Piece α)} (h : ∀ p ∈ ps, m ≤ p.value) :
    m * measure lo hi ps ≤ integral lo hi ps := by
  induction ps with
  | nil => simp
  | cons p ps ih =>
    obtain ⟨hp, hps⟩ := List.forall_mem_cons.1 h
    rw [measure_cons, integral_cons, mul_add]
    exact add_le_add (mul_le_mul_of_nonneg_right hp (overlap_nonneg lo hi p)) (ih hps)

theorem integral_le {m lo hi : α} {ps : List (Piece α)} (h : ∀ p ∈ ps, p.value ≤ m) :
    integral lo hi ps ≤ m * measure lo hi ps := by
  induction ps with
  | nil => simp
  | cons p ps ih =>
    obtain ⟨hp, hps⟩ := List.forall_mem_cons.1 h
    rw [measure_cons, integral_cons, mul_add]
    exact add_le_add (mul_le_mul_of_nonneg_right hp (overlap_nonneg lo hi p)) (ih hps)

theorem le_mean {m lo hi : α} {ps : List (Piece α)} (h : ∀ p ∈ ps, m ≤ p.value) (hd : 0 < measure lo hi ps) :
    m ≤ integral lo hi ps / measure lo hi ps := (le_div_iff₀ hd).2 (le_integral h)

theorem mean_le {m lo hi : α} {ps : List (Piece α)} (h : ∀ p ∈ ps, p.value ≤ m) (hd : 0 < measure lo hi ps) :
    integral lo hi ps / measure lo hi ps ≤ m := (div_le_iff₀ hd).2 (integral_le h)

end Lib.StepMean
