import LiTimeGateway.Lib.Lines
import Mathlib.Algebra.BigOperators.Group.List.Basic
import Mathlib.Algebra.Order.Ring.Nat
/-!
# Text written in chunks

A writer that puts a separator behind every line may be cut short: a `Chunk` is
what it wrote of one line, with or without the separator. Chunks without one
run into the next. `Separated` says that no two chunks that are not blank run
into each other; then, and only then, a reader sees an item for each
(`items_text`, `separated_of_length`). The solid symbols of a text, those that
are no blanks, are the solid symbols of its items (`solid_items`).
-/

namespace Lib.Lines

variable {α : Type*}

structure Chunk (α : Type*) where
  written : List α
  terminated : Bool

def Chunk.text (sep : α) (c : Chunk α) : List α := c.written ++ if c.terminated then [sep] else []

/-- The chunks, one after the other. -/
def text (sep : α) (cs : List (Chunk α)) : List α := cs.flatMap (Chunk.text sep)

/-- Something that is not blank. -/
def isSolid (p : α → Bool) (l : List α) : Bool := !(strip p l).isEmpty

/-- No chunk that is not blank runs into another one; `pending` says that the
text before them ends in an unterminated line that is not blank. -/
def Separated (p : α → Bool) : (pending : Bool) → List (Chunk α) → Prop
  | _, [] => True
  | pending, c :: cs =>
    (pending && isSolid p c.written) = false ∧
      Separated p (!c.terminated && (pending || isSolid p c.written)) cs

/-! ## Two lines run together -/

section Merge
variable (p : α → Bool)

theorem isSolid_eq_false_iff {l : List α} : isSolid p l = false ↔ strip p l = [] := by simp [isSolid]

theorem strip_blanks_append {l t : List α} (hl : ∀ c ∈ l, p c = true) : strip p (l ++ t) = strip p t := by
  rw [strip, strip, List.dropWhile_append, List.dropWhile_eq_nil_iff.2 hl]
  rfl

theorem isSolid_append (l t : List α) : isSolid p (l ++ t) = (isSolid p l || isSolid p t) := by
  rw [Bool.eq_iff_iff, Bool.or_eq_true, ← not_iff_not, not_or]
  simp only [Bool.not_eq_true, isSolid_eq_false_iff, strip_eq_nil_iff, List.forall_mem_append]

/-- Where one of two lines is blank, they can run together. -/
theorem itemsOf_merge {l t : List α} (h : (isSolid p l && isSolid p t) = false) (ls : List (List α)) :
    itemsOf p ((l ++ t) :: ls) = itemsOf p (l :: t :: ls) := by
  have hstrip : itemsOf p [l ++ t] = itemsOf p [l, t] := by
    rcases Bool.and_eq_false_iff.1 h with h | h
    · have hb := (isSolid_eq_false_iff p).1 h
      rw [itemsOf_cons_blank p hb, itemsOf, itemsOf, List.map_singleton, List.map_singleton,
        strip_blanks_append p ((strip_eq_nil_iff p).1 hb)]
    · have hb := (isSolid_eq_false_iff p).1 h
      rw [← List.singleton_append (l := [t]), itemsOf_append, itemsOf_cons_blank p hb, itemsOf_nil, List.append_nil,
        itemsOf, itemsOf, List.map_singleton, List.map_singleton, strip_append_blanks p ((strip_eq_nil_iff p).1 hb)]
  rw [← List.singleton_append, itemsOf_append, hstrip, ← itemsOf_append]
  rfl

theorem toNat_or_add_and (a b : Bool) : (a || b).toNat + (a && b).toNat = a.toNat + b.toNat := by
  cases a <;> cases b <;> rfl

theorem itemsOf_cons_length (l : List α) (ls : List (List α)) :
    (itemsOf p (l :: ls)).length = (isSolid p l).toNat + (itemsOf p ls).length := by
  by_cases h : strip p l = []
  · simp [itemsOf_cons_blank p h, (isSolid_eq_false_iff p).2 h]
  · have hs : isSolid p l = true := by simpa [isSolid] using h
    rw [itemsOf_cons_item p h, hs, List.length_cons, Bool.toNat_true, Nat.add_comm]

end Merge

/-! ## What a reader sees -/

section Items
variable [DecidableEq α] (p : α → Bool) {sep : α}

theorem items_line {l : List α} (hl : sep ∉ l) : items p sep l = itemsOf p [l] := by
  by_cases hne : l = []
  · rw [hne, itemsOf_cons_blank p (strip_nil p)]
    rfl
  · rw [items, lines_unterminated sep hl hne]

theorem items_text {cs : List (Chunk α)} {l : List α} (hl : sep ∉ l) (hcs : ∀ c ∈ cs, sep ∉ c.written)
    (h : Separated p (isSolid p l) cs) :
    items p sep (l ++ text sep cs) = itemsOf p (l :: cs.map Chunk.written) := by
  induction cs generalizing l with
  | nil => rw [text, List.flatMap_nil, List.append_nil, items_line p hl, List.map_nil]
  | cons c cs ih =>
    obtain ⟨hmerge, hrest⟩ := h
    obtain ⟨hc, hcs⟩ := List.forall_mem_cons.1 hcs
    have hlc : sep ∉ l ++ c.written := by simp [hl, hc]
    rw [List.map_cons, ← itemsOf_merge p hmerge]
    cases ht : c.terminated with
    | true =>
      rw [ht] at hrest
      have hnil : isSolid p ([] : List α) = false := (isSolid_eq_false_iff p).2 (strip_nil p)
      have hread := ih (l := []) (by simp) hcs (by rw [hnil]; exact hrest)
      have htext : l ++ text sep (c :: cs) = (l ++ c.written) ++ sep :: text sep cs := by
        simp [text, Chunk.text, ht]
      rw [List.nil_append, itemsOf_cons_blank p (strip_nil p), items] at hread
      rw [htext, items, lines_terminated sep hlc, ← List.singleton_append, itemsOf_append, hread,
        ← itemsOf_append]
      rfl
    | false =>
      rw [ht, Bool.not_false, Bool.true_and, ← isSolid_append] at hrest
      have htext : l ++ text sep (c :: cs) = (l ++ c.written) ++ text sep cs := by
        simp [text, Chunk.text, ht]
      rw [htext]
      exact ih hlc hcs hrest

/-- Running together only loses items, and loses one when two that are not blank do. -/
theorem separated_of_length {cs : List (Chunk α)} {l : List α} (hl : sep ∉ l) (hcs : ∀ c ∈ cs, sep ∉ c.written) :
    (items p sep (l ++ text sep cs)).length ≤ (itemsOf p (l :: cs.map Chunk.written)).length ∧
      ((items p sep (l ++ text sep cs)).length = (itemsOf p (l :: cs.map Chunk.written)).length →
        Separated p (isSolid p l) cs) := by
  induction cs generalizing l with
  | nil =>
    rw [text, List.flatMap_nil, List.append_nil, items_line p hl, List.map_nil]
    exact ⟨Nat.le_refl _, fun _ => trivial⟩
  | cons c cs ih =>
    obtain ⟨hc, hcs⟩ := List.forall_mem_cons.1 hcs
    have hlc : sep ∉ l ++ c.written := by simp [hl, hc]
    have hcount := toNat_or_add_and (isSolid p l) (isSolid p c.written)
    rw [List.map_cons, itemsOf_cons_length p l, itemsOf_cons_length p c.written, Separated]
    cases ht : c.terminated with
    | true =>
      have htext : l ++ text sep (c :: cs) = (l ++ c.written) ++ sep :: text sep cs := by
        simp [text, Chunk.text, ht]
      have hread : (items p sep (l ++ text sep (c :: cs))).length =
          (isSolid p l || isSolid p c.written).toNat + (items p sep (text sep cs)).length := by
        rw [htext, items, lines_terminated sep hlc, itemsOf_cons_length, isSolid_append, items]
      obtain ⟨hle, hsep⟩ := ih (l := []) (by simp) hcs
      rw [List.nil_append, itemsOf_cons_blank p (strip_nil p)] at hle hsep
      rw [hread]
      rw [(isSolid_eq_false_iff p).2 (strip_nil p)] at hsep
      exact ⟨by omega, fun h => ⟨Bool.toNat_eq_zero.1 (by omega), hsep (by omega)⟩⟩
    | false =>
      have htext : l ++ text sep (c :: cs) = (l ++ c.written) ++ text sep cs := by
        simp [text, Chunk.text, ht]
      obtain ⟨hle, hsep⟩ := ih hlc hcs
      rw [itemsOf_cons_length, isSolid_append] at hle hsep
      rw [htext]
      exact ⟨by omega, fun h => ⟨Bool.toNat_eq_zero.1 (by omega), hsep (by omega)⟩⟩

end Items

/-! ## Solid symbols -/

section Solid
variable (p : α → Bool)

/-- How many symbols are no blanks. -/
def solid (l : List α) : Nat := l.countP (!p ·)

theorem solid_append (l t : List α) : solid p (l ++ t) = solid p l + solid p t := List.countP_append

theorem solid_eq_zero_iff {l : List α} : solid p l = 0 ↔ ∀ c ∈ l, p c = true := by
  simp [solid, List.countP_eq_zero]

theorem solid_dropWhile (l : List α) : solid p (l.dropWhile p) = solid p l := by
  have hw : solid p (l.takeWhile p) = 0 := (solid_eq_zero_iff p).2 fun c hc => List.mem_takeWhile_imp hc
  conv_rhs => rw [← List.takeWhile_append_dropWhile (p := p) (l := l)]
  rw [solid_append, hw, Nat.zero_add]

theorem solid_strip (l : List α) : solid p (strip p l) = solid p l := by
  have hrev : ∀ l : List α, solid p l.reverse = solid p l := fun l => l.countP_reverse
  rw [strip, List.rdropWhile, hrev, solid_dropWhile, hrev, solid_dropWhile]

theorem solid_itemsOf (ls : List (List α)) : ((itemsOf p ls).map (solid p)).sum = (ls.map (solid p)).sum := by
  induction ls with
  | nil => rfl
  | cons l ls ih =>
    by_cases h : strip p l = []
    · have h0 : solid p l = 0 := by rw [← solid_strip, h]; rfl
      rw [itemsOf_cons_blank p h, ih, List.map_cons, List.sum_cons, h0, Nat.zero_add]
    · rw [itemsOf_cons_item p h, List.map_cons, List.map_cons, List.sum_cons, List.sum_cons, ih, solid_strip]

theorem solid_lines [DecidableEq α] {sep : α} (hsep : p sep = true) (t : List α) :
    ((lines sep t).map (solid p)).sum = solid p t := by
  induction t with
  | nil => rfl
  | cons c cs ih =>
    have hcons : ∀ l : List α, solid p (c :: l) = solid p l + solid p [c] := fun l => by
      rw [← List.singleton_append, solid_append, Nat.add_comm]
    by_cases hc : c = sep
    · have h0 : solid p [c] = 0 := by simp [solid, hc, hsep]
      rw [lines, if_pos hc, List.map_cons, List.sum_cons, ih, hcons, h0]
      exact Nat.zero_add _
    · rw [lines, if_neg hc, hcons, ← ih]
      cases lines sep cs with
      | nil => exact (Nat.zero_add _).symm ▸ rfl
      | cons m ms =>
        simp only [List.map_cons, List.sum_cons, hcons m]
        exact Nat.add_right_comm _ _ _

theorem solid_items [DecidableEq α] {sep : α} (hsep : p sep = true) (t : List α) :
    ((items p sep t).map (solid p)).sum = solid p t := by
  rw [items, solid_itemsOf, solid_lines p hsep]

end Solid

end Lib.Lines
