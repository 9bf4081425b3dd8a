import LiTimeGateway.Ble.Advertisement
import Mathlib.Data.List.Pairwise
import Mathlib.Data.List.TakeDrop
/-!
# Reading advertisements safely

No payload makes `NimBLEAdvertisedDevice` read outside of it: its walk is the
one over the fields (`findAdvField_eq`), which lie in the payload. The name is
the first complete one, or else the last incomplete one. A service that is
found is listed in one of the fields; one that is listed is found unless a kind
of list occurs twice, where entries of the later list are read in place of others.
-/

namespace LiTimeGateway.NimBLEAdvertisedDevice

open Lib.Tlv

/-! ## The walk over the fields -/

/-- The search, over fields instead of bytes. -/
def find (type : UInt8) (hasLoc : Bool) :
    List Field → (count index : UInt8) → (dataLoc : Option Nat) → UInt8 × Option Nat
  | [], count, _, dataLoc => (count, dataLoc)
  | f :: fs, count, index, dataLoc =>
    if answers type f.type then
      let dataLoc := if isPart type hasLoc f.type then some f.offset else dataLoc
      let index := if isPart type hasLoc f.type then index + 1 else index
      let count := count + entries type f.length
      if hasLoc && count > index then (count, some f.offset) else find type hasLoc fs count index dataLoc
    else find type hasLoc fs count index dataLoc

theorem findLoop_eq {payload : Bytes} {type : UInt8} {hasLoc : Bool} {fuel length data : Nat} {count index : UInt8}
    (hlength : data + length = payload.length) (hfuel : length ≤ fuel) (hcount : hasLoc = true → count ≤ index)
    (dataLoc : Option Nat) :
    findLoop payload type hasLoc fuel length data count index dataLoc =
      some (find type hasLoc (fieldsFrom fuel data (payload.drop data)) count index dataLoc) := by
  have hexit : (hasLoc && decide (count > index)) = false := by
    cases hasLoc with
    | false => rfl
    | true => simpa using hcount rfl
  induction fuel generalizing length data count index dataLoc with
  | zero => rw [findLoop, hexit]; rfl
  | succ fuel ih =>
    have hdrop : (payload.drop data).length = length := by rw [List.length_drop]; omega
    rw [findLoop]
    match hrest : payload.drop data with
    | [] =>
      rw [hrest] at hdrop
      rw [if_pos (hdrop ▸ Nat.zero_le 2), hexit]
      rfl
    | [_] =>
      rw [hrest, List.length_singleton] at hdrop
      rw [if_pos (by omega), hexit]
      rfl
    | fieldLength :: fieldType :: rest =>
      rw [hrest, List.length_cons, List.length_cons] at hdrop
      have hlengthAt : payload[data]? = some fieldLength := by
        rw [← List.head?_drop, hrest]
        rfl
      have htypeAt : payload[data + 1]? = some fieldType := by
        rw [← List.getElem?_drop (i := data), hrest]
        rfl
      rw [fieldsFrom]
      by_cases hshort : rest = []
      · rw [if_pos (by rw [← hdrop, hshort]; rfl), hexit, if_neg Bool.false_ne_true, if_pos (.inl hshort)]
        rfl
      have hpos : 0 < rest.length := List.length_pos_iff.2 hshort
      rw [if_neg (by omega), hlengthAt, Option.bind_eq_bind, Option.bind_some]
      by_cases hfits : length ≤ fieldLength.toNat
      · rw [if_pos hfits, if_pos (.inr (by omega))]
        rfl
      rw [if_neg hfits, if_neg (by simp only [hshort, false_or]; omega), htypeAt, Option.bind_some, find]
      have hnext : (fieldLength :: fieldType :: rest).drop (1 + fieldLength.toNat) =
          payload.drop (data + 1 + fieldLength.toNat) := by
        rw [← hrest, List.drop_drop, Nat.add_assoc]
      have hsame : data + (1 + fieldLength.toNat) = data + 1 + fieldLength.toNat := (Nat.add_assoc _ _ _).symm
      dsimp only
      rw [hnext, hsame]
      by_cases hanswers : answers type fieldType = true
      · rw [if_pos hanswers, if_pos hanswers]
        generalize (if isPart type hasLoc fieldType then index + 1 else index) = index'
        by_cases hbreak : (hasLoc && decide (count + entries type fieldLength > index')) = true
        · rw [if_pos hbreak, if_pos hbreak]
        · have hstill : hasLoc = true → count + entries type fieldLength ≤ index' := by
            intro hloc
            simpa [hloc] using hbreak
          rw [if_neg hbreak, if_neg hbreak]
          exact ih (by omega) (by omega) hstill _ (by simpa using hbreak)
      · rw [if_neg hanswers, if_neg hanswers]
        exact ih (by omega) (by omega) hcount _ hexit

theorem findAdvField_eq (payload : Bytes) (type index : UInt8) (hasLoc : Bool) :
    findAdvField payload type index hasLoc = some (find type hasLoc (fields payload) 0 index none) :=
  findLoop_eq (Nat.zero_add _) (Nat.le_refl _) (fun _ => UInt8.zero_le) none

/-- The entries of all fields that answer. -/
def total (type : UInt8) : List Field → Nat
  | [] => 0
  | f :: fs => (if answers type f.type then (entries type f.length).toNat else 0) + total type fs

theorem ofNat_add_total (type : UInt8) (f : Field) (fs : List Field) (count : UInt8) (h : answers type f.type) :
    UInt8.ofNat ((count + entries type f.length).toNat + total type fs) =
      UInt8.ofNat (count.toNat + total type (f :: fs)) := by
  apply UInt8.toNat_inj.1
  rw [UInt8.toNat_ofNat', UInt8.toNat_ofNat', UInt8.toNat_add, total, if_pos h]
  omega

theorem find_count (type : UInt8) (fs : List Field) (count index : UInt8) (dataLoc : Option Nat) :
    (find type false fs count index dataLoc).1 = UInt8.ofNat (count.toNat + total type fs) := by
  induction fs generalizing count index dataLoc with
  | nil => simp [find, total]
  | cons f fs ih =>
    rw [find]
    by_cases hanswers : answers type f.type = true
    · rw [if_pos hanswers, ← ofNat_add_total type f fs count hanswers]
      exact ih _ _ _
    · rw [if_neg hanswers, total, if_neg hanswers, Nat.zero_add]
      exact ih _ _ _

/-! ## Services -/

section Service

variable {type : UInt8} (htype : type ∈ serviceTypes)
include htype

theorem uuidBytes_ge : 2 ≤ uuidBytes type := by
  simp only [serviceTypes, List.mem_cons, List.not_mem_nil, or_false] at htype
  rcases htype with rfl | rfl | rfl | rfl | rfl | rfl <;> decide

theorem answers_service (fieldType : UInt8) : answers type fieldType = (fieldType == type) := by
  simp only [serviceTypes, List.mem_cons, List.not_mem_nil, or_false] at htype
  rcases htype with rfl | rfl | rfl | rfl | rfl | rfl <;> exact Bool.or_false _

theorem isPart_service (hasLoc : Bool) (fieldType : UInt8) : isPart type hasLoc fieldType = false := by
  simp only [serviceTypes, List.mem_cons, List.not_mem_nil, or_false] at htype
  rcases htype with rfl | rfl | rfl | rfl | rfl | rfl <;> rfl

theorem entries_service (length : UInt8) : (entries type length).toNat = length.toNat / uuidBytes type := by
  simp only [serviceTypes, List.mem_cons, List.not_mem_nil, or_false] at htype
  rcases htype with rfl | rfl | rfl | rfl | rfl | rfl <;> exact UInt8.toNat_div length _

/-- A search for an entry either counts all of them, or ends at the field that has it. -/
theorem find_service (fs : List Field) {count index : UInt8} (h : count ≤ index) (dataLoc : Option Nat) :
    (find type true fs count index dataLoc).1 = UInt8.ofNat (count.toNat + total type fs) ∧
        (find type true fs count index dataLoc).1 ≤ index ∨
      ∃ before f after, fs = before ++ f :: after ∧ f.type = type ∧
        UInt8.ofNat (count.toNat + total type before) ≤ index ∧
        index < UInt8.ofNat (count.toNat + total type before) + entries type f.length ∧
        find type true fs count index dataLoc =
          (UInt8.ofNat (count.toNat + total type before) + entries type f.length, some f.offset) := by
  induction fs generalizing count dataLoc with
  | nil => exact .inl ⟨by simp [find, total], h⟩
  | cons f fs ih =>
    rw [find, answers_service htype, isPart_service htype]
    by_cases hsame : (f.type == type) = true
    · have hanswers : answers type f.type = true := by rw [answers_service htype, hsame]
      simp only [hsame, if_true, Bool.false_eq_true, if_false, Bool.true_and, decide_eq_true_eq]
      by_cases hmore : count + entries type f.length > index
      · refine .inr ⟨[], f, fs, rfl, beq_iff_eq.1 hsame, ?_⟩
        simpa only [total, Nat.add_zero, UInt8.ofNat_toNat, if_pos hmore] using ⟨h, hmore, trivial⟩
      · rw [if_neg hmore]
        rcases ih (UInt8.not_lt.1 hmore) dataLoc with ⟨heq, hle⟩ | ⟨before, g, after, rfl, hg, hle, hlt, heq⟩
        · exact .inl ⟨heq.trans (ofNat_add_total type f fs count hanswers), hle⟩
        · rw [ofNat_add_total type f before count hanswers] at hle hlt heq
          exact .inr ⟨f :: before, g, after, rfl, hg, hle, hlt, heq⟩
    · have hanswers : ¬ answers type f.type = true := by rw [answers_service htype]; exact hsame
      have htotal : ∀ gs, total type (f :: gs) = total type gs := by
        intro gs
        rw [total, if_neg hanswers, Nat.zero_add]
      rw [if_neg hsame, htotal]
      rcases ih h dataLoc with hnone | ⟨before, g, after, rfl, hfound⟩
      · exact .inl hnone
      · exact .inr ⟨f :: before, g, after, rfl, by rw [htotal]; exact hfound⟩

end Service

/-- An entry of a list of services. -/
def uuidAt (ad : UInt8 × Bytes) (k : Nat) : NimBLEUUID := (ad.2.drop (k * uuidBytes ad.1)).take (uuidBytes ad.1)

def uuids (ad : UInt8 × Bytes) : List NimBLEUUID := (List.range (ad.2.length / uuidBytes ad.1)).map (uuidAt ad)

/-- One of the lists of services has the service. -/
def listsService (ads : List (UInt8 × Bytes)) (uuid : NimBLEUUID) : Bool :=
  ads.any fun ad => decide (ad.1 ∈ serviceTypes) && (uuids ad).any (sameUuid uuid)

/-- The entry that is read is one of the field, by its place in the field or among all of its type. -/
theorem serviceAt_eq {payload : Bytes} {f : Field} (hf : f.Within payload) (htype : f.type ∈ serviceTypes)
    {before index : UInt8} (hbefore : before ≤ index) (hindex : index < before + entries f.type f.length) :
    ∃ k, serviceAt payload ⟨f.type, index, before + entries f.type f.length, f.offset⟩ =
        some (if k < f.value.length / uuidBytes f.type then uuidAt f.ad k else []) ∧
      (before = 0 → k = index.toNat) := by
  have hentries := entries_service htype f.length
  have hsize := uuidBytes_ge htype
  have hhalf : f.length.toNat / uuidBytes f.type ≤ f.length.toNat / 2 := Nat.div_le_div_left hsize (by omega)
  have hbyte := f.length.toNat_lt
  rw [UInt8.le_iff_toNat_le] at hbefore
  rw [UInt8.lt_iff_toNat_lt, UInt8.toNat_add, hentries] at hindex
  have hnext : (index + 1).toNat = index.toNat + 1 := by
    rw [UInt8.toNat_add]
    exact Nat.mod_eq_of_lt (by rw [UInt8.toNat_one]; omega)
  have hcount : before + entries f.type f.length - UInt8.ofNat (f.length.toNat / uuidBytes f.type) = before := by
    rw [← hentries, UInt8.ofNat_toNat, UInt8.add_sub_cancel]
  -- Where the entry stands in the field.
  obtain ⟨k, hk, hzero⟩ : ∃ k, (if f.length.toNat < (index + 1).toNat * uuidBytes f.type then
      index + 1 - before else index + 1).toNat = k + 1 ∧ (before = 0 → k = index.toNat) := by
    split
    · refine ⟨index.toNat - before.toNat, ?_, fun hzero => by rw [hzero]; rfl⟩
      rw [UInt8.toNat_sub_of_le _ _ (by rw [UInt8.le_iff_toNat_le]; omega)]
      omega
    · exact ⟨index.toNat, hnext, fun _ => rfl⟩
  refine ⟨k, ?_, hzero⟩
  have hends := hf.ends
  have hvalue := hf.value_length
  rw [serviceAt]
  simp only [Option.bind_eq_bind, hf.length_at, Option.bind_some, hcount, hk]
  have hiff : f.length.toNat > uuidBytes f.type * (k + 1) ↔ k < f.value.length / uuidBytes f.type := by
    rw [hvalue, Nat.lt_iff_add_one_le (m := k), Nat.le_div_iff_mul_le (by omega), Nat.mul_comm]
    omega
  by_cases hread : k < f.value.length / uuidBytes f.type
  · have hfits := hiff.2 hread
    have hentry : uuidAt f.ad k = (f.value.drop (k * uuidBytes f.type)).take (uuidBytes f.type) := rfl
    rw [if_pos hfits, if_pos hread, readBefore, if_pos ⟨by rw [Nat.mul_succ]; omega, by omega⟩, hentry, hf.value_eq]
    rw [List.drop_take, List.drop_drop, List.take_take]
    congr 2
    · rw [Nat.mul_comm]
      exact (Nat.min_eq_left (by rw [Nat.mul_succ] at hfits; omega)).symm
    · rw [Nat.mul_succ, Nat.mul_comm]
      congr 1
      omega
  · rw [if_neg (mt hiff.1 hread), if_neg hread]

theorem findService_cases {payload : Bytes} {types : List UInt8} (htypes : ∀ type ∈ types, type ∈ serviceTypes)
    (index : UInt8) :
    findService payload types index = some none ∨
      ∃ f ∈ fields payload, f.type ∈ types ∧ ∃ before i, before ≤ i ∧ i < before + entries f.type f.length ∧
        findService payload types index = some (some ⟨f.type, i, before + entries f.type f.length, f.offset⟩) := by
  induction types generalizing index with
  | nil => exact .inl rfl
  | cons type types ih =>
    obtain ⟨htype, hrest⟩ := List.forall_mem_cons.1 htypes
    rw [findService, findAdvField_eq, Option.bind_eq_bind, Option.bind_some]
    dsimp only
    rcases find_service htype (fields payload) (UInt8.zero_le (a := index)) none with
      ⟨-, hle⟩ | ⟨pre, f, post, hfields, rfl, hle, hlt, heq⟩
    · rw [if_neg (UInt8.not_lt.2 hle)]
      rcases ih hrest (index - (find type true (fields payload) 0 index none).1) with hnone | ⟨f, hf, hmem, hfound⟩
      · exact .inl hnone
      · exact .inr ⟨f, hf, List.mem_cons_of_mem _ hmem, hfound⟩
    · have hf : f ∈ fields payload := hfields ▸ List.mem_append_right _ List.mem_cons_self
      rw [heq]
      dsimp only
      rw [if_pos hlt]
      exact .inr ⟨f, hf, List.mem_cons_self, _, index, hle, hlt, rfl⟩

/-- Every entry that is read is one of a list of services in the payload, or empty. -/
theorem getServiceUUID_cases (payload : Bytes) (index : UInt8) :
    ∃ u, getServiceUUID payload index = some u ∧
      (u = [] ∨ ∃ f ∈ fields payload, f.type ∈ serviceTypes ∧ u ∈ uuids f.ad) := by
  rw [getServiceUUID]
  rcases @findService_cases payload serviceTypes (fun _ h => h) index with
    hnone | ⟨f, hf, htype, before, i, hbefore, hi, hfound⟩
  · exact ⟨[], by rw [hnone]; rfl, .inl rfl⟩
  · obtain ⟨k, hk, -⟩ := serviceAt_eq (fields_within hf) htype hbefore hi
    refine ⟨_, by rw [hfound]; exact hk, ?_⟩
    split
    · next hlt => exact .inr ⟨f, hf, htype, List.mem_map.2 ⟨k, List.mem_range.2 hlt, rfl⟩⟩
    · exact .inl rfl

/-- What `getServiceUUID` returns. -/
def serviceUUID (payload : Bytes) (index : UInt8) : NimBLEUUID := (getServiceUUID payload index).getD []

theorem getServiceUUID_eq (payload : Bytes) (index : UInt8) :
    getServiceUUID payload index = some (serviceUUID payload index) := by
  obtain ⟨u, hu, -⟩ := getServiceUUID_cases payload index
  rw [serviceUUID, hu]
  rfl

/-- The entries of all lists of these types. -/
def entriesOf (types : List UInt8) (fs : List Field) : Nat := (types.map fun type => total type fs).sum

theorem entriesOf_cons (type : UInt8) (types : List UInt8) (fs : List Field) :
    entriesOf (type :: types) fs = total type fs + entriesOf types fs :=
  List.sum_cons

theorem getServiceUUIDCount_eq (payload : Bytes) (types : List UInt8) :
    getServiceUUIDCount payload types = some (UInt8.ofNat (entriesOf types (fields payload))) := by
  induction types with
  | nil => rfl
  | cons type types ih =>
    rw [getServiceUUIDCount, findAdvField_eq, ih]
    refine congrArg some (UInt8.toNat_inj.1 ?_)
    rw [find_count, UInt8.toNat_add, entriesOf_cons]
    simp only [UInt8.toNat_ofNat', UInt8.toNat_zero, Nat.zero_add]
    omega

theorem isAdvertisingService_eq (payload : Bytes) (uuid : NimBLEUUID) :
    isAdvertisingService payload uuid =
      some ((List.range (UInt8.ofNat (entriesOf serviceTypes (fields payload))).toNat).any fun i =>
        sameUuid uuid (serviceUUID payload (UInt8.ofNat i))) := by
  rw [isAdvertisingService, getServiceUUIDCount_eq, Option.bind_eq_bind, Option.bind_some]
  generalize List.range _ = is
  induction is with
  | nil => rfl
  | cons i is ih =>
    rw [advertisesOneOf, getServiceUUID_eq, Option.bind_eq_bind, Option.bind_some, List.any_cons, ih]
    cases sameUuid uuid (serviceUUID payload (UInt8.ofNat i)) <;> rfl

/-- Every field of the payload. -/
def advertised (payload : Bytes) : List (UInt8 × Bytes) := (fields payload).map Field.ad

theorem lists_of_advertising {payload : Bytes} {uuid : NimBLEUUID}
    (h : isAdvertisingService payload uuid = some true) : listsService (advertised payload) uuid := by
  rw [isAdvertisingService_eq, Option.some_inj, List.any_eq_true] at h
  obtain ⟨i, -, hsame⟩ := h
  rw [serviceUUID] at hsame
  obtain ⟨u, hu, hempty | ⟨f, hf, htype, hmem⟩⟩ := getServiceUUID_cases payload (UInt8.ofNat i)
  · rw [hu, hempty] at hsame
    simp [sameUuid] at hsame
  · rw [hu] at hsame
    rw [listsService, advertised, List.any_map, List.any_eq_true]
    refine ⟨f, hf, ?_⟩
    rw [Function.comp_apply, Bool.and_eq_true, List.any_eq_true]
    exact ⟨decide_eq_true htype, u, hmem, hsame⟩

/-! ## One list of each kind -/

/-- No kind of list occurs twice. -/
def OneOfEachList (ads : List (UInt8 × Bytes)) : Prop := ads.Pairwise fun ad other => ad.1 ∈ serviceTypes → ad.1 ≠ other.1

def OneList (fs : List Field) : Prop := fs.Pairwise fun f g => f.type ∈ serviceTypes → f.type ≠ g.type

theorem OneList.of_advertised {payload : Bytes} (h : OneOfEachList (advertised payload)) : OneList (fields payload) :=
  List.pairwise_map.1 h

theorem total_append (type : UInt8) (fs gs : List Field) : total type (fs ++ gs) = total type fs + total type gs := by
  induction fs with
  | nil => exact (Nat.zero_add _).symm
  | cons f fs ih => rw [List.cons_append, total, total, ih, Nat.add_assoc]

theorem total_eq_zero {type : UInt8} (htype : type ∈ serviceTypes) {fs : List Field} (h : ∀ f ∈ fs, f.type ≠ type) :
    total type fs = 0 := by
  induction fs with
  | nil => rfl
  | cons f fs ih =>
    obtain ⟨hne, hrest⟩ := List.forall_mem_cons.1 h
    rw [total, answers_service htype, if_neg (mt beq_iff_eq.1 hne), ih hrest]

theorem OneList.total {pre post : List Field} {f : Field} (h : OneList (pre ++ f :: post))
    (htype : f.type ∈ serviceTypes) :
    total f.type pre = 0 ∧ total f.type (pre ++ f :: post) = (entries f.type f.length).toNat := by
  obtain ⟨-, hpost, hpre⟩ := List.pairwise_append.1 h
  have hbefore : NimBLEAdvertisedDevice.total f.type pre = 0 := by
    refine total_eq_zero htype fun g hg heq => ?_
    exact hpre g hg f List.mem_cons_self (heq ▸ htype) heq
  have hafter : NimBLEAdvertisedDevice.total f.type post = 0 :=
    total_eq_zero htype fun g hg heq => (List.pairwise_cons.1 hpost).1 g hg htype heq.symm
  refine ⟨hbefore, ?_⟩
  rw [total_append, hbefore, NimBLEAdvertisedDevice.total, hafter, answers_service htype, if_pos (beq_self_eq_true _)]
  omega

theorem entriesOf_le {types : List UInt8} (htypes : ∀ type ∈ types, type ∈ serviceTypes) (hnodup : types.Nodup)
    (fs : List Field) : entriesOf types fs ≤ (fs.map fun f => f.length.toNat + 1).sum := by
  induction fs with
  | nil =>
    refine Nat.le_of_eq (List.sum_eq_zero fun n hn => ?_)
    obtain ⟨type, -, rfl⟩ := List.mem_map.1 hn
    rfl
  | cons f fs ih =>
    have hsplit : entriesOf types (f :: fs) =
        (types.map fun type => if answers type f.type then (entries type f.length).toNat else 0).sum +
          entriesOf types fs :=
      List.sum_map_add
    -- The field is of one type at most.
    have hone : (types.map fun type => if answers type f.type then (entries type f.length).toNat else 0).sum ≤
        f.length.toNat := by
      clear ih hsplit
      induction types with
      | nil => exact Nat.zero_le _
      | cons type types ih =>
        obtain ⟨htype, hrest⟩ := List.forall_mem_cons.1 htypes
        obtain ⟨hnot, hnodup⟩ := List.nodup_cons.1 hnodup
        rw [List.map_cons, List.sum_cons]
        by_cases hanswers : answers type f.type = true
        · have hzero : (types.map fun type => if answers type f.type then (entries type f.length).toNat else 0).sum =
              0 := by
            refine List.sum_eq_zero fun n hn => ?_
            obtain ⟨other, hother, rfl⟩ := List.mem_map.1 hn
            rw [answers_service (hrest other hother), if_neg]
            rw [answers_service htype, beq_iff_eq] at hanswers
            exact fun heq => hnot (hanswers ▸ beq_iff_eq.1 heq ▸ hother)
          rw [if_pos hanswers, hzero, entries_service htype]
          exact Nat.div_le_self _ _
        · rw [if_neg hanswers, Nat.zero_add]
          exact ih hrest hnodup
    rw [hsplit, List.map_cons, List.sum_cons]
    omega

theorem OneList.eq_of_type {fs : List Field} (h : OneList fs) {f g : Field} (hf : f ∈ fs) (hg : g ∈ fs)
    (htype : f.type ∈ serviceTypes) (heq : f.type = g.type) : f = g := by
  have hsymm : Std.Symm fun f g : Field => f.type ∈ serviceTypes → f.type ≠ g.type :=
    ⟨fun _ _ hne htype heq => hne (heq ▸ htype) heq.symm⟩
  by_contra hne
  exact List.Pairwise.forall h hf hg hne htype heq

theorem OneList.total_lt {fs : List Field} (h : OneList fs) {type : UInt8} (htype : type ∈ serviceTypes) :
    NimBLEAdvertisedDevice.total type fs < 256 := by
  by_cases hsome : ∃ f ∈ fs, f.type = type
  · obtain ⟨f, hf, rfl⟩ := hsome
    obtain ⟨pre, post, rfl⟩ := List.append_of_mem hf
    rw [(h.total htype).2]
    exact UInt8.toNat_lt _
  · rw [total_eq_zero htype fun f hf heq => hsome ⟨f, hf, heq⟩]
    decide

/-- The loop of `getServiceUUID` reaches the field by the number of entries of the types before. -/
theorem findService_reaches {payload : Bytes} (hone : OneList (fields payload)) {f : Field}
    (hf : f ∈ fields payload) (htype : f.type ∈ serviceTypes) {k : Nat} (hk : k < (entries f.type f.length).toNat)
    (pre post : List UInt8) (hpre : ∀ type ∈ pre, type ∈ serviceTypes) {index : UInt8}
    (hindex : index.toNat = entriesOf pre (fields payload) + k) :
    findService payload (pre ++ f.type :: post) index =
      some (some ⟨f.type, UInt8.ofNat k, 0 + entries f.type f.length, f.offset⟩) := by
  induction pre generalizing index with
  | nil =>
    have hat : index = UInt8.ofNat k := by
      apply UInt8.toNat_inj.1
      rw [hindex, UInt8.toNat_ofNat', Nat.mod_eq_of_lt (Nat.lt_trans hk (UInt8.toNat_lt _))]
      exact Nat.zero_add k
    have htotal : total f.type (fields payload) = (entries f.type f.length).toNat := by
      obtain ⟨before, after, hfields⟩ := List.append_of_mem hf
      rw [hfields] at hone ⊢
      exact (hone.total htype).2
    rw [List.nil_append, findService, findAdvField_eq, Option.bind_eq_bind, Option.bind_some]
    dsimp only
    rcases find_service htype (fields payload) (UInt8.zero_le (a := index)) none with
      ⟨heq, hle⟩ | ⟨before, g, after, hfields, hg, hle, hlt, heq⟩
    · rw [heq, UInt8.le_iff_toNat_le, htotal, hindex] at hle
      simp [entriesOf] at hle
      omega
    · have hsame : g = f :=
        (hone.eq_of_type hf (hfields ▸ List.mem_append_right _ List.mem_cons_self) htype hg.symm).symm
      subst hsame
      rw [hfields] at hone
      rw [(hone.total htype).1] at heq hlt
      rw [heq]
      dsimp only
      rw [if_pos hlt, hat]
      rfl
  | cons type pre ih =>
    obtain ⟨htype', hpre⟩ := List.forall_mem_cons.1 hpre
    rw [entriesOf_cons] at hindex
    rw [List.cons_append, findService, findAdvField_eq, Option.bind_eq_bind, Option.bind_some]
    dsimp only
    rcases find_service htype' (fields payload) (UInt8.zero_le (a := index)) none with
      ⟨heq, hle⟩ | ⟨before, g, after, hfields, rfl, hle, hlt, heq⟩
    · rw [if_neg (UInt8.not_lt.2 hle)]
      refine ih hpre ?_
      have hmod : (UInt8.ofNat (UInt8.toNat 0 + total type (fields payload))).toNat = total type (fields payload) := by
        rw [UInt8.toNat_zero, Nat.zero_add, UInt8.toNat_ofNat', Nat.mod_eq_of_lt (hone.total_lt htype')]
      rw [UInt8.toNat_sub_of_le _ _ hle, heq, hmod]
      omega
    · rw [hfields] at hone hindex
      obtain ⟨hbefore, htotal⟩ := hone.total htype'
      rw [hbefore, UInt8.lt_iff_toNat_lt, UInt8.toNat_add] at hlt
      simp at hlt
      omega

/-- Where no kind of list occurs twice, a service that is listed is found. -/
theorem advertising_of_lists {payload : Bytes} (hshort : payload.length < 256)
    (hone : OneOfEachList (advertised payload)) {uuid : NimBLEUUID} (h : listsService (advertised payload) uuid) :
    isAdvertisingService payload uuid = some true := by
  replace hone := OneList.of_advertised hone
  rw [listsService, advertised, List.any_map, List.any_eq_true] at h
  obtain ⟨f, hf, h⟩ := h
  rw [Function.comp_apply, Bool.and_eq_true, List.any_eq_true] at h
  obtain ⟨htype, u, hu, hsame⟩ := h
  replace htype : f.type ∈ serviceTypes := of_decide_eq_true htype
  obtain ⟨k, hk, rfl⟩ := List.mem_map.1 hu
  rw [List.mem_range] at hk
  replace hk : k < (f.length.toNat - 1) / uuidBytes f.type := (fields_within hf).value_length ▸ hk
  have hlt : k < (entries f.type f.length).toNat := by
    rw [entries_service htype]
    exact Nat.lt_of_lt_of_le hk (Nat.div_le_div_right (Nat.sub_le _ _))
  obtain ⟨pre, post, htypes⟩ := List.append_of_mem htype
  have hall : entriesOf serviceTypes (fields payload) < 256 :=
    Nat.lt_of_le_of_lt (Nat.le_trans (entriesOf_le (fun _ h => h) (by decide) _) (sizes_le _ _ _)) hshort
  have htotal : total f.type (fields payload) = (entries f.type f.length).toNat := by
    obtain ⟨before, after, hfields⟩ := List.append_of_mem hf
    rw [hfields] at hone ⊢
    exact (hone.total htype).2
  have hplace : entriesOf pre (fields payload) + k < entriesOf serviceTypes (fields payload) := by
    have hsplit : entriesOf (pre ++ f.type :: post) (fields payload) =
        entriesOf pre (fields payload) + entriesOf (f.type :: post) (fields payload) := by
      rw [entriesOf, List.map_append, List.sum_append, entriesOf, entriesOf]
    rw [htypes, hsplit, entriesOf_cons, htotal]
    omega
  have hindex : (UInt8.ofNat (entriesOf pre (fields payload) + k)).toNat = entriesOf pre (fields payload) + k := by
    rw [UInt8.toNat_ofNat']
    exact Nat.mod_eq_of_lt (by omega)
  have hpre : ∀ type ∈ pre, type ∈ serviceTypes := by
    intro type hmem
    rw [htypes]
    exact List.mem_append_left _ hmem
  have hbyte : (UInt8.ofNat k).toNat = k := by
    rw [UInt8.toNat_ofNat']
    exact Nat.mod_eq_of_lt (Nat.lt_trans hlt (UInt8.toNat_lt _))
  obtain ⟨k', hat, hzero⟩ := serviceAt_eq (fields_within hf) htype (UInt8.zero_le (a := UInt8.ofNat k))
    (by rw [UInt8.zero_add, UInt8.lt_iff_toNat_lt, hbyte]; exact hlt)
  rw [hzero rfl, hbyte, (fields_within hf).value_length, if_pos hk] at hat
  have hfound := findService_reaches hone hf htype hlt pre post hpre hindex
  rw [← htypes] at hfound
  rw [isAdvertisingService_eq, Option.some_inj, List.any_eq_true]
  refine ⟨entriesOf pre (fields payload) + k, ?_, ?_⟩
  · rw [List.mem_range, UInt8.toNat_ofNat']
    rwa [Nat.mod_eq_of_lt hall]
  · rw [serviceUUID, getServiceUUID, hfound]
    simpa only [Option.bind_eq_bind, Option.bind_some, hat, Option.getD_some] using hsame

/-- Of two lists of one kind, the first entry of the second can be passed over. -/
example : isAdvertisingService [3, 3, 0x0f, 0x18, 5, 3, 0xe0, 0xff, 0x0a, 0x18] [0xe0, 0xff] = some false := by decide

/-! ## The name -/

/-- The first complete name, or else the last incomplete one. -/
def nameField (fs : List Field) : Option Field :=
  (fs.find? fun f => f.type == BLE_HS_ADV_TYPE_COMP_NAME).or
    (fs.reverse.find? fun f => f.type == BLE_HS_ADV_TYPE_INCOMP_NAME)

def advertisedName (ads : List (UInt8 × Bytes)) : Option Bytes :=
  ((ads.find? fun ad => ad.1 == BLE_HS_ADV_TYPE_COMP_NAME).or
    (ads.reverse.find? fun ad => ad.1 == BLE_HS_ADV_TYPE_INCOMP_NAME)).map Prod.snd

theorem nameField_value (fs : List Field) : (nameField fs).map Field.value = advertisedName (fs.map Field.ad) := by
  rw [advertisedName, ← List.map_reverse, List.find?_map, List.find?_map, nameField]
  change Option.map _ ((fs.find? fun f => f.type == BLE_HS_ADV_TYPE_COMP_NAME).or _) =
    Option.map _ (((fs.find? fun f => f.type == BLE_HS_ADV_TYPE_COMP_NAME).map Field.ad).or
      ((fs.reverse.find? fun f => f.type == BLE_HS_ADV_TYPE_INCOMP_NAME).map Field.ad))
  rw [← Option.map_or, Option.map_map]
  rfl

theorem nameField_cons (f : Field) (fs : List Field) :
    nameField (f :: fs) =
      if f.type = BLE_HS_ADV_TYPE_COMP_NAME then some f
      else if f.type = BLE_HS_ADV_TYPE_INCOMP_NAME then (nameField fs).or (some f) else nameField fs := by
  rw [nameField, nameField, List.find?_cons, List.reverse_cons, List.find?_append, List.find?_singleton]
  by_cases hcomplete : f.type = BLE_HS_ADV_TYPE_COMP_NAME
  · simp [hcomplete]
  · by_cases hpart : f.type = BLE_HS_ADV_TYPE_INCOMP_NAME
    · simp [hpart, BLE_HS_ADV_TYPE_INCOMP_NAME, BLE_HS_ADV_TYPE_COMP_NAME]
    · simp [hcomplete, hpart, beq_eq_false_iff_ne.2 hcomplete]

theorem nameField_mem {fs : List Field} {f : Field} (h : nameField fs = some f) : f ∈ fs := by
  rcases Option.or_eq_some_iff.1 h with h | ⟨-, h⟩
  · exact List.mem_of_find?_eq_some h
  · exact List.mem_reverse.1 (List.mem_of_find?_eq_some h)

theorem readValue {payload : Bytes} {f : Field} (hf : f.Within payload) :
    (if f.length > 1 then readBefore payload (f.offset + 1 + f.length.toNat) (f.length.toNat - 1) else some []) =
      some f.value := by
  have hends := hf.ends
  by_cases hlong : f.length > 1
  · have hlt : 1 < f.length.toNat := hlong
    rw [if_pos hlong, readBefore, if_pos ⟨by omega, hends⟩, hf.value_eq]
    congr 3
    omega
  · have hle : f.length.toNat ≤ 1 := UInt8.not_lt.1 hlong
    rw [if_neg hlong, hf.value_eq, Nat.sub_eq_zero_of_le hle, List.take_zero]

theorem entries_name (length : UInt8) : entries BLE_HS_ADV_TYPE_COMP_NAME length = 1 := rfl

/-- A place for a name is one of a name, or nothing has been counted. -/
theorem find_name_place {all fs : List Field} (hfs : ∀ f ∈ fs, f ∈ all) {count index : UInt8} {dataLoc : Option Nat}
    (h : (∃ f ∈ all, answers BLE_HS_ADV_TYPE_COMP_NAME f.type ∧ dataLoc = some f.offset) ∨ count = 0 ∧ index = 0) :
    (∃ f ∈ all, answers BLE_HS_ADV_TYPE_COMP_NAME f.type ∧
        (find BLE_HS_ADV_TYPE_COMP_NAME true fs count index dataLoc).2 = some f.offset) ∨
      (find BLE_HS_ADV_TYPE_COMP_NAME true fs count index dataLoc).1 = 0 := by
  induction fs generalizing count index dataLoc with
  | nil => exact h.imp (fun h => h) And.left
  | cons f fs ih =>
    obtain ⟨hf, hrest⟩ := List.forall_mem_cons.1 hfs
    rw [find]
    by_cases hanswers : answers BLE_HS_ADV_TYPE_COMP_NAME f.type = true
    · simp only [if_pos hanswers, Bool.true_and, decide_eq_true_eq]
      by_cases hbreak : count + entries BLE_HS_ADV_TYPE_COMP_NAME f.length >
          if isPart BLE_HS_ADV_TYPE_COMP_NAME true f.type then index + 1 else index
      · rw [if_pos hbreak]
        exact .inl ⟨f, hf, hanswers, rfl⟩
      · rw [if_neg hbreak]
        refine ih hrest (.inl ?_)
        by_cases hpart : isPart BLE_HS_ADV_TYPE_COMP_NAME true f.type = true
        · exact ⟨f, hf, hanswers, if_pos hpart⟩
        · rw [if_neg hpart] at hbreak ⊢
          rcases h with hplace | ⟨rfl, rfl⟩
          · exact hplace
          · exact absurd (by rw [entries_name]; decide) hbreak
    · rw [if_neg hanswers]
      exact ih hrest h

/-- Every name that is read is that of a field of the payload, or empty. -/
theorem getName_cases (payload : Bytes) :
    ∃ name, getName payload = some name ∧
      (name = [] ∨ ∃ ad ∈ advertised payload, answers BLE_HS_ADV_TYPE_COMP_NAME ad.1 ∧ name = ad.2) := by
  rw [getName, getPayloadByType, findAdvField_eq, Option.bind_eq_bind, Option.bind_some]
  dsimp only
  split
  · next hcount =>
    rcases find_name_place (fun _ h => h) (.inr ⟨rfl, rfl⟩) with ⟨f, hf, hanswers, hplace⟩ | hzero
    · rw [hplace]
      simp only [Option.bind_eq_bind, Option.bind_some, (fields_within hf).length_at, readValue (fields_within hf)]
      exact ⟨f.value, rfl, .inr ⟨f.ad, List.mem_map_of_mem hf, hanswers, rfl⟩⟩
    · rw [hzero] at hcount
      cases hcount
  · exact ⟨[], rfl, .inl rfl⟩

theorem length_le_sizes (fs : List Field) : fs.length ≤ (fs.map fun f => f.length.toNat + 1).sum := by
  induction fs with
  | nil => exact Nat.le_refl _
  | cons f fs ih =>
    rw [List.map_cons, List.sum_cons, List.length_cons]
    omega

/-- As long as the fields can be counted, the search for the name is for `nameField`. -/
theorem find_name (fs : List Field) {k : Nat} (hk : k + fs.length < 256) (dataLoc : Option Nat) :
    ∃ count, find BLE_HS_ADV_TYPE_COMP_NAME true fs (UInt8.ofNat k) (UInt8.ofNat k) dataLoc =
        (UInt8.ofNat count, ((nameField fs).map Field.offset).or dataLoc) ∧
      k ≤ count ∧ count < 256 ∧ (count = k ↔ nameField fs = none) := by
  have hsucc (k : Nat) : UInt8.ofNat k + 1 = UInt8.ofNat (k + 1) := by
    rw [UInt8.ofNat_add]
    rfl
  induction fs generalizing k dataLoc with
  | nil => exact ⟨k, rfl, Nat.le_refl k, hk, iff_of_true rfl rfl⟩
  | cons f fs ih =>
    rw [List.length_cons] at hk
    rw [find, nameField_cons, entries_name, hsucc]
    by_cases hcomplete : f.type = BLE_HS_ADV_TYPE_COMP_NAME
    · have hanswers : answers BLE_HS_ADV_TYPE_COMP_NAME f.type = true := by rw [hcomplete]; rfl
      have hwhole : ¬ isPart BLE_HS_ADV_TYPE_COMP_NAME true f.type = true := by rw [hcomplete]; decide
      have hmore : UInt8.ofNat (k + 1) > UInt8.ofNat k := by
        rw [gt_iff_lt, UInt8.lt_iff_toNat_lt, UInt8.toNat_ofNat', UInt8.toNat_ofNat']
        omega
      rw [if_pos hanswers, if_pos hcomplete, if_neg hwhole, if_neg hwhole]
      simp only [hmore, decide_true, Bool.and_self, if_true]
      exact ⟨k + 1, rfl, Nat.le_succ k, by omega, iff_of_false (by omega) (Option.some_ne_none f)⟩
    · rw [if_neg hcomplete]
      by_cases hpart : f.type = BLE_HS_ADV_TYPE_INCOMP_NAME
      · have hanswers : answers BLE_HS_ADV_TYPE_COMP_NAME f.type = true := by rw [hpart]; rfl
        have hisPart : isPart BLE_HS_ADV_TYPE_COMP_NAME true f.type = true := by rw [hpart]; rfl
        obtain ⟨count, heq, hle, hlt, -⟩ := ih (k := k + 1) (by omega) (some f.offset)
        rw [if_pos hanswers, if_pos hpart, if_pos hisPart, if_pos hisPart]
        simp only [gt_iff_lt, UInt8.lt_irrefl, decide_false, Bool.and_false, Bool.false_eq_true, if_false, heq]
        refine ⟨count, ?_, by omega, hlt, iff_of_false (by omega) ?_⟩
        · cases nameField fs <;> rfl
        · cases nameField fs <;> simp
      · have hanswers : ¬ answers BLE_HS_ADV_TYPE_COMP_NAME f.type = true := by
          simp [answers, hcomplete, hpart]
        rw [if_neg hanswers, if_neg hpart]
        exact ih (by omega) dataLoc

theorem total_name (fs : List Field) :
    total BLE_HS_ADV_TYPE_COMP_NAME fs ≤ fs.length ∧
      (0 < total BLE_HS_ADV_TYPE_COMP_NAME fs ↔ (nameField fs).isSome) := by
  induction fs with
  | nil => decide
  | cons f fs ih =>
    rw [nameField_cons, total, List.length_cons, entries_name]
    by_cases hcomplete : f.type = BLE_HS_ADV_TYPE_COMP_NAME
    · have hanswers : answers BLE_HS_ADV_TYPE_COMP_NAME f.type = true := by rw [hcomplete]; rfl
      rw [if_pos hanswers, if_pos hcomplete, UInt8.toNat_one, Option.isSome_some]
      exact ⟨by omega, by simp⟩
    · by_cases hpart : f.type = BLE_HS_ADV_TYPE_INCOMP_NAME
      · have hanswers : answers BLE_HS_ADV_TYPE_COMP_NAME f.type = true := by rw [hpart]; rfl
        rw [if_pos hanswers, if_neg hcomplete, if_pos hpart, UInt8.toNat_one]
        exact ⟨by omega, by cases nameField fs <;> simp⟩
      · have hanswers : ¬ answers BLE_HS_ADV_TYPE_COMP_NAME f.type = true := by
          simp [answers, hcomplete, hpart]
        rw [if_neg hanswers, if_neg hcomplete, if_neg hpart, Nat.zero_add]
        exact ⟨by omega, ih.2⟩

/-- A payload of no more than 255 bytes has the name of `nameField`. -/
theorem getName_eq {payload : Bytes} (h : payload.length < 256) :
    haveName payload = some (advertisedName (advertised payload)).isSome ∧
      getName payload = some ((advertisedName (advertised payload)).getD []) := by
  have hcount : (fields payload).length < 256 :=
    Nat.lt_of_le_of_lt (Nat.le_trans (length_le_sizes _) (sizes_le _ _ _)) h
  rw [advertised, ← nameField_value, Option.isSome_map]
  constructor
  · obtain ⟨hle, hpos⟩ := total_name (fields payload)
    rw [haveName, findAdvField_eq, Option.bind_eq_bind, Option.bind_some]
    refine congrArg some (Bool.eq_iff_iff.2 ?_)
    rw [decide_eq_true_iff, gt_iff_lt, UInt8.lt_iff_toNat_lt, find_count, UInt8.toNat_zero, UInt8.toNat_ofNat', ← hpos]
    omega
  · obtain ⟨count, heq, -, hlt, hzero⟩ := find_name (fields payload) (k := 0) (by omega) none
    have hbyte : (UInt8.ofNat count).toNat = count := by
      rw [UInt8.toNat_ofNat']
      exact Nat.mod_eq_of_lt hlt
    rw [getName, getPayloadByType, findAdvField_eq, Option.bind_eq_bind, Option.bind_some]
    have hfind : find BLE_HS_ADV_TYPE_COMP_NAME true (fields payload) 0 0 none = _ := heq
    rw [hfind]
    dsimp only
    cases hname : nameField (fields payload) with
    | none =>
      rw [hzero.2 hname]
      rfl
    | some f =>
      have hf : f ∈ fields payload := nameField_mem hname
      have hpos : UInt8.ofNat count > 0 := by
        rw [gt_iff_lt, UInt8.lt_iff_toNat_lt, hbyte, UInt8.toNat_zero]
        exact Nat.pos_of_ne_zero fun h => absurd (hzero.1 h) (by rw [hname]; exact Option.some_ne_none f)
      rw [if_pos hpos]
      simp only [Option.map_some, Option.some_or, Option.bind_eq_bind, Option.bind_some,
        (fields_within hf).length_at, readValue (fields_within hf)]
      rfl

end LiTimeGateway.NimBLEAdvertisedDevice
