import Mathlib.Data.List.Basic
import Mathlib.Tactic.Cases
/-!
# Texts joined by a separator

`sep.intercalate ts` and the loop that writes it: a separator in front of every
text but the first, which the loop tells from the number of texts written.
-/

namespace Lib.Join

variable {α : Type*} (sep : List α)

theorem intercalate_concat {ts : List (List α)} (hne : ts ≠ []) (t : List α) :
    sep.intercalate (ts ++ [t]) = sep.intercalate ts ++ sep ++ t := by
  induction ts with
  | nil => exact absurd rfl hne
  | cons u ts ih =>
    cases ts with
    | nil => rw [List.singleton_append, List.intercalate_cons_cons, List.intercalate_singleton, List.intercalate_singleton]
    | cons v ts =>
      have ht := ih (List.cons_ne_nil v ts)
      rw [List.cons_append] at ht
      simp only [List.cons_append, List.intercalate_cons_cons, ht, List.append_assoc]

/-- One pass of the loop: the separator if anything has been written, and the next text. -/
theorem append_separated (start : List α) {ts : List (List α)} {n : Nat} (h : 0 < n ↔ ts ≠ []) (t : List α) :
    (if n > 0 then start ++ sep.intercalate ts ++ sep else start ++ sep.intercalate ts) ++ t =
      start ++ sep.intercalate (ts ++ [t]) := by
  cases ts with
  | nil =>
    have hn : ¬ n > 0 := fun hn => h.1 hn rfl
    rw [if_neg hn]
    simp
  | cons u ts =>
    rw [if_pos (h.2 (List.cons_ne_nil u ts)), intercalate_concat sep (List.cons_ne_nil u ts)]
    simp only [List.append_assoc]

end Lib.Join
