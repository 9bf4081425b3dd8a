import Mathlib.Data.List.DropRight
import Mathlib.Data.List.Infix
import Mathlib.Tactic.Cases
/-!
# Line-oriented text

Text is a list over any alphabet, cut into lines at a separator the way a
stream reader does it: `readUntil` takes what stands before the next separator
and drops the separator, and `lines` repeats it while text is left. A last
line without a separator counts; an empty rest does not.

`strip p` drops the blanks (`p`) at both ends of a line and `items` is what a
reader sees that strips each line and skips the blank ones.
-/

namespace Lib.Lines

variable {α : Type*}

section Read
variable [DecidableEq α] (sep : α)

/-- What stands before the first separator, and what follows it. -/
def readUntil : List α → List α × List α
  | [] => ([], [])
  | c :: cs => if c = sep then ([], cs) else ((c :: (readUntil cs).1), (readUntil cs).2)

/-- The results of `readUntil`, repeated while text is left. -/
def lines : List α → List (List α)
  | [] => []
  | c :: cs =>
    if c = sep then [] :: lines cs
    else match lines cs with
      | [] => [[c]]
      | l :: ls => (c :: l) :: ls

@[simp] theorem lines_nil : lines sep [] = [] := rfl

/-- One pass of the reader's loop. -/
theorem lines_eq_readUntil {t : List α} (h : t ≠ []) :
    lines sep t = (readUntil sep t).1 :: lines sep (readUntil sep t).2 := by
  induction t with
  | nil => exact absurd rfl h
  | cons c cs ih =>
    by_cases hc : c = sep
    · simp [lines, readUntil, hc]
    · cases cs with
      | nil => simp [lines, readUntil, hc]
      | cons d ds =>
        have h2 : readUntil sep (c :: d :: ds) =
            (c :: (readUntil sep (d :: ds)).1, (readUntil sep (d :: ds)).2) := by rw [readUntil, if_neg hc]
        rw [lines, if_neg hc, ih (List.cons_ne_nil d ds), h2]

/-- A line followed by its separator is read back as it is. -/
theorem lines_terminated {l : List α} (hl : sep ∉ l) (t : List α) :
    lines sep (l ++ sep :: t) = l :: lines sep t := by
  induction l with
  | nil => simp [lines]
  | cons c cs ih =>
    have hc : c ≠ sep := fun h => hl (by simp [h])
    rw [List.cons_append, lines, if_neg hc, ih (fun h => hl (List.mem_cons_of_mem _ h))]

theorem lines_unterminated {l : List α} (hl : sep ∉ l) (hne : l ≠ []) : lines sep l = [l] := by
  induction l with
  | nil => exact absurd rfl hne
  | cons c cs ih =>
    have hc : c ≠ sep := fun h => hl (by simp [h])
    cases cs with
    | nil => simp [lines, hc]
    | cons d ds => rw [lines, if_neg hc, ih (fun h => hl (List.mem_cons_of_mem _ h)) (List.cons_ne_nil d ds)]

/-- Lines written with their separators are read back as they are. -/
theorem lines_flatMap_terminated {ls : List (List α)} (h : ∀ l ∈ ls, sep ∉ l) (t : List α) :
    lines sep (ls.flatMap (· ++ [sep]) ++ t) = ls ++ lines sep t := by
  induction ls with
  | nil => rfl
  | cons l ls ih =>
    have hl := h l List.mem_cons_self
    rw [List.flatMap_cons, List.append_assoc, List.append_assoc, List.singleton_append,
      lines_terminated sep hl, ih fun m hm => h m (List.mem_cons_of_mem _ hm), List.cons_append]

theorem sep_not_mem_of_mem_lines {t l : List α} (h : l ∈ lines sep t) : sep ∉ l := by
  induction t generalizing l with
  | nil => simp at h
  | cons c cs ih =>
    rw [lines] at h
    split at h
    · rcases List.mem_cons.1 h with rfl | h
      · simp
      · exact ih h
    · next hc =>
      cases hls : lines sep cs with
      | nil =>
        rw [hls, List.mem_singleton] at h
        subst h
        simp [Ne.symm hc]
      | cons m ms =>
        rw [hls] at h
        rcases List.mem_cons.1 h with rfl | h
        · have := ih (l := m) (by simp [hls])
          simp [Ne.symm hc, this]
        · exact ih (by simp [hls, h])

end Read

/-! ## Stripping blanks -/

section Strip
variable (p : α → Bool)

/-- The line without the blanks at both ends. -/
def strip (l : List α) : List α := (l.dropWhile p).rdropWhile p

@[simp] theorem strip_nil : strip p [] = [] := by simp [strip]

theorem strip_eq_nil_iff {l : List α} : strip p l = [] ↔ ∀ c ∈ l, p c = true := by
  rw [strip, List.rdropWhile_eq_nil_iff]
  constructor
  · intro h
    have hnil : l.dropWhile p = [] := by
      cases hd : l.dropWhile p with
      | nil => rfl
      | cons c cs =>
        have h1 := h c (by simp [hd])
        have h2 := List.head_dropWhile_not p (l := l) (by simp [hd])
        simp only [hd, List.head_cons] at h2
        rw [h1] at h2
        cases h2
    exact List.dropWhile_eq_nil_iff.1 hnil
  · intro h c hc
    exact h c ((List.dropWhile_suffix p).subset hc)

/-- A blank at the end of a line does not show. -/
theorem strip_concat {l : List α} {c : α} (hc : p c = true) : strip p (l ++ [c]) = strip p l := by
  unfold strip
  by_cases h : ∀ d ∈ l, p d = true
  · have h1 : l.dropWhile p = [] := List.dropWhile_eq_nil_iff.2 h
    have h2 : (l ++ [c]).dropWhile p = [] := by
      rw [List.dropWhile_append, h1]
      simp [hc]
    rw [h1, h2]
  · have hne : l.dropWhile p ≠ [] := fun hn => h (List.dropWhile_eq_nil_iff.1 hn)
    rw [List.dropWhile_append]
    simp [hne, List.rdropWhile_concat_pos _ _ _ hc]

theorem strip_append_blanks {l t : List α} (ht : ∀ c ∈ t, p c = true) : strip p (l ++ t) = strip p l := by
  induction t using List.reverseRecOn with
  | nil => simp
  | append_singleton t c ih =>
    rw [← List.append_assoc, strip_concat p (ht c (by simp)), ih fun d hd => ht d (by simp [hd])]

/-- A stripped line does not end in a blank. -/
theorem strip_ne_concat {c : α} (hc : p c = true) (l t : List α) : strip p l ≠ t ++ [c] := by
  intro h
  have hself : (t ++ [c]).rdropWhile p = t ++ [c] := by rw [← h, strip, List.rdropWhile_idempotent]
  have hlast := List.rdropWhile_eq_self_iff.1 hself (by simp)
  rw [List.getLast_append_singleton] at hlast
  exact hlast hc

/-- A line with no blank at either end is its own stripped form. -/
theorem strip_of_ends {l : List α} (hne : l ≠ []) (hh : p (l.head hne) = false)
    (hl : p (l.getLast hne) = false) : strip p l = l := by
  have h1 : l.dropWhile p = l := by
    cases l with
    | nil => rfl
    | cons c cs => simp only [List.head_cons] at hh; simp [hh]
  rw [strip, h1, List.rdropWhile_eq_self_iff]
  intro _
  simp [hl]

end Strip

/-! ## Items -/

section Items
variable (p : α → Bool)

/-- The stripped lines that are not blank. -/
def itemsOf (ls : List (List α)) : List (List α) := (ls.map (strip p)).filter (!·.isEmpty)

/-- What a reader sees that strips each line and skips the blank ones. -/
def items [DecidableEq α] (sep : α) (t : List α) : List (List α) := itemsOf p (lines sep t)

@[simp] theorem itemsOf_nil : itemsOf p ([] : List (List α)) = [] := rfl

theorem itemsOf_cons_blank {l : List α} (h : strip p l = []) (ls : List (List α)) :
    itemsOf p (l :: ls) = itemsOf p ls := by
  simp [itemsOf, h]

theorem itemsOf_cons_item {l : List α} (h : strip p l ≠ []) (ls : List (List α)) :
    itemsOf p (l :: ls) = strip p l :: itemsOf p ls := by
  simp [itemsOf, h]

theorem itemsOf_append (ls ms : List (List α)) : itemsOf p (ls ++ ms) = itemsOf p ls ++ itemsOf p ms := by
  simp [itemsOf]

theorem itemsOf_length_le (ls : List (List α)) : (itemsOf p ls).length ≤ ls.length := by
  have := List.length_filter_le (!·.isEmpty) (ls.map (strip p))
  rwa [List.length_map] at this

/-- Dropping empty lines drops no item. -/
theorem itemsOf_filter_nonempty (ls : List (List α)) :
    itemsOf p (ls.filter (!·.isEmpty)) = itemsOf p ls := by
  induction ls with
  | nil => rfl
  | cons l ls ih =>
    cases l with
    | nil => rw [itemsOf_cons_blank p (strip_nil p), ← ih]; rfl
    | cons c cs =>
      rw [List.filter_cons_of_pos (by simp)]
      by_cases h : strip p (c :: cs) = []
      · rw [itemsOf_cons_blank p h, itemsOf_cons_blank p h, ih]
      · rw [itemsOf_cons_item p h, itemsOf_cons_item p h, ih]

theorem itemsOf_eq_nil_iff (ls : List (List α)) : itemsOf p ls = [] ↔ ∀ l ∈ ls, strip p l = [] := by
  simp [itemsOf]

/-- Every line carries an item exactly when there are as many items as lines. -/
theorem itemsOf_length_eq_iff (ls : List (List α)) :
    (itemsOf p ls).length = ls.length ↔ ∀ l ∈ ls, strip p l ≠ [] := by
  induction ls with
  | nil => simp
  | cons l ls ih =>
    by_cases h : strip p l = []
    · have := itemsOf_length_le p ls
      rw [itemsOf_cons_blank p h, List.length_cons]
      refine ⟨fun he => by omega, fun hall => absurd h (hall l List.mem_cons_self)⟩
    · rw [itemsOf_cons_item p h, List.length_cons, List.length_cons, Nat.add_right_cancel_iff, ih]
      simp [h]

/-- Dropping `k` lines drops `k` items exactly when each of them carries one,
or no item follows them. -/
theorem itemsOf_drop_iff (ls : List (List α)) (k : Nat) :
    itemsOf p (ls.drop k) = (itemsOf p ls).drop k ↔
      (∀ l ∈ ls.take k, strip p l ≠ []) ∨ ∀ l ∈ ls.drop k, strip p l = [] := by
  have hsplit : itemsOf p ls = itemsOf p (ls.take k) ++ itemsOf p (ls.drop k) := by
    rw [← itemsOf_append, List.take_append_drop]
  have hle := itemsOf_length_le p (ls.take k)
  have htake := List.length_take_le k ls
  constructor
  · intro h
    have hlen := congrArg List.length h
    rw [List.length_drop, hsplit, List.length_append] at hlen
    by_cases h0 : itemsOf p (ls.drop k) = []
    · exact .inr ((itemsOf_eq_nil_iff p _).1 h0)
    · have := List.length_pos_of_ne_nil h0
      exact .inl ((itemsOf_length_eq_iff p _).1 (by omega))
  · rintro (h | h)
    · have hall := (itemsOf_length_eq_iff p _).2 h
      by_cases hk : k ≤ ls.length
      · rw [List.length_take_of_le hk] at hall
        rw [hsplit]
        exact (List.drop_left' hall).symm
      · rw [List.drop_eq_nil_of_le (by omega), itemsOf_nil]
        have := itemsOf_length_le p ls
        exact (List.drop_eq_nil_of_le (by omega)).symm
    · rw [(itemsOf_eq_nil_iff p _).2 h, hsplit, (itemsOf_eq_nil_iff p _).2 h, List.append_nil]
      exact (List.drop_eq_nil_of_le (by omega)).symm

/-- Lines changed without changing what is left after stripping carry the same items. -/
theorem itemsOf_map_congr {f : List α → List α} {ls : List (List α)}
    (h : ∀ l ∈ ls, strip p (f l) = strip p l) : itemsOf p (ls.map f) = itemsOf p ls := by
  rw [itemsOf, itemsOf, List.map_map]
  exact congrArg _ (List.map_congr_left h)

end Items

end Lib.Lines
