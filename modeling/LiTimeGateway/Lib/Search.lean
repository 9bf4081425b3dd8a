import Mathlib.Data.List.Infix
/-!
# Finding a text in a text

`indexOf pat t` is where `pat` first stands in `t`, and `after pat t` what
follows it there. The rules step over a symbol the pattern does not start at
(`after_cons`), over symbols that are not its first one (`after_skip`), and stop
at an occurrence (`after_append`). What is found in the start of a text is found
in the whole of it (`after_of_prefix`).
-/

namespace Lib.Search

variable {α : Type*} [DecidableEq α]

/-- The first position in `t` where `pat` stands. -/
def indexOf (pat : List α) : List α → Option Nat
  | [] => if pat.isPrefixOf [] then some 0 else none
  | c :: cs => if pat.isPrefixOf (c :: cs) then some 0 else (indexOf pat cs).map (· + 1)

/-- What follows the first occurrence of `pat`. -/
def after (pat t : List α) : Option (List α) := (indexOf pat t).map fun i => t.drop (i + pat.length)

theorem after_cons {pat : List α} {c : α} {cs : List α} (h : ¬ pat <+: c :: cs) :
    after pat (c :: cs) = after pat cs := by
  rw [after, indexOf, if_neg (by rwa [List.isPrefixOf_iff_prefix]), after, Option.map_map]
  congr 1
  funext i
  rw [Function.comp_apply, Nat.add_right_comm, List.drop_succ_cons]

theorem after_append (pat t : List α) : after pat (pat ++ t) = some t := by
  have hpre : pat.isPrefixOf (pat ++ t) = true := List.isPrefixOf_iff_prefix.2 (List.prefix_append pat t)
  have h0 : indexOf pat (pat ++ t) = some 0 := by
    cases hp : pat ++ t with
    | nil => rw [indexOf, ← hp, if_pos hpre]
    | cons c cs => rw [indexOf, ← hp, if_pos hpre]
  rw [after, h0, Option.map_some, Nat.zero_add, List.drop_left]

/-- Nothing that lacks the first symbol of the pattern holds the start of it. -/
theorem after_skip {c : α} {pat pre : List α} (h : c ∉ pre) (t : List α) :
    after (c :: pat) (pre ++ t) = after (c :: pat) t := by
  induction pre with
  | nil => rfl
  | cons d pre ih =>
    rw [List.mem_cons, not_or] at h
    have hd : ¬ c :: pat <+: d :: (pre ++ t) := fun hp => h.1 (List.cons_prefix_cons.1 hp).1
    rw [List.cons_append, after_cons hd, ih h.2]

theorem length_le_of_after {pat t r : List α} (h : after pat t = some r) : pat.length ≤ t.length := by
  induction t with
  | nil =>
    by_cases hp : pat.isPrefixOf ([] : List α) = true
    · exact (List.isPrefixOf_iff_prefix.1 hp).length_le
    · rw [after, indexOf, if_neg hp] at h
      cases h
  | cons c cs ih =>
    by_cases hp : pat <+: c :: cs
    · exact hp.length_le
    · rw [after_cons hp] at h
      exact Nat.le_succ_of_le (ih h)

/-- The first occurrence in the start of a text is the first in the text. -/
theorem after_of_prefix {pat t r : List α} (h : after pat t = some r) (v : List α) :
    after pat (t ++ v) = some (r ++ v) := by
  induction t with
  | nil =>
    obtain rfl : pat = [] := List.eq_nil_of_length_eq_zero (Nat.le_zero.1 (length_le_of_after h))
    have hr : after ([] : List α) [] = some [] := after_append [] []
    rw [hr] at h
    rw [← Option.some.inj h]
    exact after_append [] v
  | cons c cs ih =>
    by_cases hp : pat <+: c :: cs
    · obtain ⟨r', hr'⟩ := hp
      rw [← hr', after_append] at h
      rw [← hr', List.append_assoc, after_append, Option.some.inj h]
    · rw [after_cons hp] at h
      -- An occurrence in the rest leaves no room for one that reaches past the end.
      have hlen := length_le_of_after h
      have hnot : ¬ pat <+: c :: (cs ++ v) := by
        intro hlong
        exact hp (List.prefix_of_prefix_length_le hlong (List.prefix_append (c :: cs) v) (Nat.le_succ_of_le hlen))
      rw [List.cons_append, after_cons hnot]
      exact ih h

end Lib.Search
