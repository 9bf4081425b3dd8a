import Mathlib.Algebra.BigOperators.Group.List.Basic
import Mathlib.Algebra.Order.Ring.Nat
/-!
# Length-type-value fields

A field is a length byte, a type byte and a value of one byte less than the
length says. A reader walks from field to field by their lengths, and stops
where a field would not end before the last byte or where fewer than three bytes
are left; a length of zero makes it step on by one byte. `fields` is that walk.
Every field lies in the text (`fields_within`), and the fields of well-formed
data are read back (`fields_encode`).
-/

namespace Lib.Tlv

abbrev Bytes := List UInt8

structure Field where
  /-- Where the length byte stands. -/
  offset : Nat
  length : UInt8
  type : UInt8
  value : Bytes
  deriving DecidableEq

def Field.ad (f : Field) : UInt8 × Bytes := (f.type, f.value)

/-- The fields of `data`, which starts at `offset`. -/
def fieldsFrom : (fuel offset : Nat) → (data : Bytes) → List Field
  | fuel + 1, offset, length :: type :: rest =>
    if rest = [] ∨ rest.length + 2 ≤ length.toNat then []
    else
      ⟨offset, length, type, rest.take (length.toNat - 1)⟩ ::
        fieldsFrom fuel (offset + 1 + length.toNat) ((length :: type :: rest).drop (1 + length.toNat))
  | _, _, _ => []

def fields (text : Bytes) : List Field := fieldsFrom text.length 0 text

/-- The field is what the text says at its offset, and ends in the text. -/
structure Field.Within (f : Field) (text : Bytes) : Prop where
  length_at : text[f.offset]? = some f.length
  type_at : text[f.offset + 1]? = some f.type
  value_eq : f.value = (text.drop (f.offset + 2)).take (f.length.toNat - 1)
  ends : f.offset + 1 + f.length.toNat ≤ text.length
  offset_lt : f.offset + 2 < text.length

/-- More fuel than bytes does not matter. -/
theorem fieldsFrom_fuel {fuel : Nat} {data : Bytes} (h : data.length ≤ fuel) (offset : Nat) :
    fieldsFrom fuel offset data = fieldsFrom data.length offset data := by
  induction fuel using Nat.strongRecOn generalizing data offset with
  | ind fuel ih =>
    match fuel, data, h with
    | 0, [], _ => rfl
    | fuel + 1, [], _ => rfl
    | fuel + 1, [_], _ => rfl
    | fuel + 1, length :: type :: rest, h =>
      rw [List.length_cons, fieldsFrom, fieldsFrom]
      split
      · rfl
      · have hshort : ((length :: type :: rest).drop (1 + length.toNat)).length ≤ (type :: rest).length := by
          rw [List.length_drop, List.length_cons]
          omega
        have hfuel : (type :: rest).length < fuel + 1 := h
        rw [ih fuel (Nat.lt_succ_self _) (Nat.le_trans hshort (Nat.le_of_lt_succ hfuel)), ih _ hfuel hshort]

theorem fieldsFrom_within {text : Bytes} {fuel offset : Nat} {f : Field}
    (h : f ∈ fieldsFrom fuel offset (text.drop offset)) : f.Within text ∧ offset ≤ f.offset := by
  induction fuel generalizing offset with
  | zero => cases h
  | succ fuel ih =>
    match hdata : text.drop offset with
    | [] => rw [hdata] at h; cases h
    | [_] => rw [hdata] at h; cases h
    | length :: type :: rest =>
      rw [hdata, fieldsFrom] at h
      have hlength : text.length - offset = rest.length + 2 := by
        rw [← List.length_drop, hdata]
        rfl
      split at h
      · cases h
      · next hfits =>
        rw [not_or, Nat.not_le, ← ne_eq, ← List.length_pos_iff] at hfits
        rcases List.mem_cons.1 h with rfl | h
        · refine ⟨⟨?_, ?_, ?_, ?_, ?_⟩, Nat.le_refl _⟩
          · rw [← List.head?_drop, hdata]
            rfl
          · rw [← List.getElem?_drop (i := offset), hdata]
            rfl
          · rw [← List.drop_drop, hdata]
            rfl
          · dsimp only
            omega
          · dsimp only
            omega
        · rw [← hdata, List.drop_drop, ← Nat.add_assoc] at h
          obtain ⟨hwithin, hle⟩ := ih h
          exact ⟨hwithin, by omega⟩

theorem fields_within {text : Bytes} {f : Field} (h : f ∈ fields text) : f.Within text :=
  (@fieldsFrom_within text _ 0 f h).1

theorem Field.Within.value_length {f : Field} {text : Bytes} (h : f.Within text) :
    f.value.length = f.length.toNat - 1 := by
  have hends := h.ends
  rw [h.value_eq, List.length_take, List.length_drop]
  omega

/-- Together the fields are no longer than the text. -/
theorem sizes_le (fuel offset : Nat) (data : Bytes) :
    ((fieldsFrom fuel offset data).map fun f => f.length.toNat + 1).sum ≤ data.length := by
  induction fuel generalizing offset data with
  | zero => exact Nat.zero_le _
  | succ fuel ih =>
    match data with
    | [] => exact Nat.zero_le _
    | [_] => exact Nat.zero_le _
    | length :: type :: rest =>
      rw [fieldsFrom]
      split
      · exact Nat.zero_le _
      · next hfits =>
        rw [not_or, Nat.not_le] at hfits
        have hrest := ih (offset + 1 + length.toNat) ((length :: type :: rest).drop (1 + length.toNat))
        rw [List.length_drop] at hrest
        simp only [List.map_cons, List.sum_cons, List.length_cons] at hrest ⊢
        omega

/-- A list of types and values, written one after the other. -/
def encode (ads : List (UInt8 × Bytes)) : Bytes :=
  ads.flatMap fun ad => UInt8.ofNat (ad.2.length + 1) :: ad.1 :: ad.2

theorem length_le_encode {ads : List (UInt8 × Bytes)} {ad : UInt8 × Bytes} (h : ad ∈ ads) :
    ad.2.length + 2 ≤ (encode ads).length := by
  obtain ⟨before, after, rfl⟩ := List.append_of_mem h
  simp only [encode, List.flatMap_append, List.flatMap_cons, List.length_append, List.length_cons]
  omega

theorem fieldsFrom_encode {ads : List (UInt8 × Bytes)} (h : ∀ ad ∈ ads, ad.2 ≠ [] ∧ ad.2.length < 255) (offset : Nat) :
    (fieldsFrom (encode ads).length offset (encode ads)).map Field.ad = ads := by
  induction ads generalizing offset with
  | nil => rfl
  | cons ad ads ih =>
    obtain ⟨⟨hne, hlt⟩, hads⟩ := List.forall_mem_cons.1 h
    obtain ⟨type, value⟩ := ad
    have htext : encode ((type, value) :: ads) = UInt8.ofNat (value.length + 1) :: type :: (value ++ encode ads) := rfl
    have hbyte : (UInt8.ofNat (value.length + 1)).toNat = value.length + 1 := by
      rw [UInt8.toNat_ofNat']
      exact Nat.mod_eq_of_lt (by dsimp only at hlt; omega)
    have hfits : ¬ (value ++ encode ads = [] ∨
        (value ++ encode ads).length + 2 ≤ (UInt8.ofNat (value.length + 1)).toNat) := by
      rw [hbyte, List.length_append, not_or]
      exact ⟨fun hnil => hne (List.append_eq_nil_iff.1 hnil).1, by omega⟩
    have hrest : (UInt8.ofNat (value.length + 1) :: type :: (value ++ encode ads)).drop (1 + (value.length + 1)) =
        encode ads := by
      rw [Nat.add_comm 1, List.drop_succ_cons, List.drop_succ_cons, List.drop_left]
    rw [htext, List.length_cons, fieldsFrom, if_neg hfits, hbyte, hrest, List.map_cons, Field.ad, Nat.add_sub_cancel,
      List.take_left, fieldsFrom_fuel (by rw [List.length_cons, List.length_append]; omega), ih hads]

theorem fields_encode {ads : List (UInt8 × Bytes)} (h : ∀ ad ∈ ads, ad.2 ≠ [] ∧ ad.2.length < 255) :
    (fields (encode ads)).map Field.ad = ads :=
  fieldsFrom_encode h 0

end Lib.Tlv
