import LiTimeGateway.Lib.Join
import LiTimeGateway.Storage.StorageManager
/-!
# Reading the last lines back

`historyJson` writes an object for every row among the last lines of
`/telemetry.csv`, `eventsJson` the last lines of `/events.ndjson` as they are.
A line that is no row is skipped, but not without a trace: once a row has been
written, a comma is.
-/

namespace LiTimeGateway.StorageManager

open Lib.Lines Lib.Join Lib.Json

/-! ## Cutting a row at its commas -/

/-- Where the commas between these fields stand, when the first field starts at `i`. -/
def offsets : (i : Nat) → List Bytes → List Nat
  | _, [] => []
  | _, [_] => []
  | i, f :: g :: fs => (i + f.length) :: offsets (i + f.length + 1) (g :: fs)

theorem findSeparators_plain {f : Bytes} (hf : ch ',' ∉ f) (rest : Bytes) (i : Nat) {found : List Nat}
    (hlt : found.length < 7) :
    findSeparators (f ++ rest) i found = findSeparators rest (i + f.length) found := by
  induction f generalizing i with
  | nil => rfl
  | cons c f ih =>
    rw [List.mem_cons, not_or] at hf
    rw [List.cons_append, findSeparators, if_pos hlt, if_neg (Ne.symm hf.1), ih hf.2, List.length_cons,
      Nat.add_assoc, Nat.add_comm 1]

theorem findSeparators_join {fields : List Bytes} (hne : fields ≠ []) (hcomma : ∀ f ∈ fields, ch ',' ∉ f) (i : Nat)
    (found : List Nat) (hlen : found.length + fields.length ≤ 8) :
    findSeparators ((ascii ",").intercalate fields) i found = found ++ offsets i fields := by
  induction fields generalizing i found with
  | nil => exact absurd rfl hne
  | cons f fields ih =>
    have hf := hcomma f List.mem_cons_self
    cases fields with
    | nil =>
      have hend : findSeparators f i found = found := by
        by_cases hlt : found.length < 7
        · have h := findSeparators_plain hf [] i hlt
          rwa [List.append_nil] at h
        · cases f with
          | nil => rfl
          | cons c f => rw [findSeparators, if_neg hlt]
      rw [List.intercalate_singleton, hend, offsets, List.append_nil]
    | cons g fields =>
      have hlt : found.length < 7 := by
        simp only [List.length_cons] at hlen
        omega
      have hlen' : (found ++ [i + f.length]).length + (g :: fields).length ≤ 8 := by
        simp only [List.length_append, List.length_cons, List.length_nil] at hlen ⊢
        omega
      have hnext := ih (List.cons_ne_nil g fields) (fun h hh => hcomma h (List.mem_cons_of_mem _ hh))
        (i + f.length + 1) (found ++ [i + f.length]) hlen'
      have hcomma' : ascii "," ++ (ascii ",").intercalate (g :: fields) =
          ch ',' :: (ascii ",").intercalate (g :: fields) := rfl
      rw [List.intercalate_cons_cons, List.append_assoc, findSeparators_plain hf _ i hlt, hcomma', findSeparators, if_pos hlt, if_pos rfl,
        hnext, List.append_assoc, List.singleton_append]
      rfl

theorem values_join {fields : List Bytes} (hne : fields ≠ []) (before : Bytes) :
    values (before ++ (ascii ",").intercalate fields) before.length (offsets before.length fields) = fields := by
  induction fields generalizing before with
  | nil => exact absurd rfl hne
  | cons f fields ih =>
    cases fields with
    | nil => rw [List.intercalate_singleton, offsets, values, List.drop_left]
    | cons g fields =>
      have hnext := ih (List.cons_ne_nil g fields) (before ++ f ++ ascii ",")
      have hlen : (before ++ f ++ ascii ",").length = before.length + f.length + 1 := by
        simp only [List.length_append]
        rfl
      have htake : (before ++ (f ++ (ascii "," ++ (ascii ",").intercalate (g :: fields)))).take
          (before.length + f.length) = before ++ f := by
        rw [← List.append_assoc, ← List.length_append, List.take_left]
      rw [hlen] at hnext
      simp only [List.append_assoc] at hnext
      rw [List.intercalate_cons_cons, List.append_assoc, offsets, values, htake, List.drop_left, hnext]

/-- A text has as many separators as commas, up to seven. -/
theorem length_findSeparators (line : Bytes) (i : Nat) (found : List Nat) (h : found.length ≤ 7) :
    (findSeparators line i found).length = min 7 (found.length + line.count (ch ',')) := by
  induction line generalizing i found with
  | nil =>
    rw [findSeparators, List.count_nil]
    omega
  | cons c line ih =>
    rw [findSeparators]
    by_cases hlt : found.length < 7
    · rw [if_pos hlt]
      by_cases hc : c = ch ','
      · rw [if_pos hc, ih (i + 1) (found ++ [i]) (by rw [List.length_append, List.length_singleton]; omega), List.length_append,
          List.length_singleton, hc, List.count_cons_self]
        omega
      · rw [if_neg hc, ih (i + 1) found h, List.count_cons_of_ne hc]
    · rw [if_neg hlt]
      omega

/-! ## What the loop makes of a line -/

inductive Reading where
  /-- Blank, or the header. -/
  | nothing
  | row (values : List Bytes)
  /-- Fewer than seven commas. -/
  | damaged

def reading (line : Bytes) : Reading :=
  let line := trim line
  if line.isEmpty || (ascii "uptime_ms,").isPrefixOf line then .nothing
  else if (findSeparators line 0 []).length ≠ 7 then .damaged
  else .row (values line 0 (findSeparators line 0 []))

/-- The texts between the commas; `begun` when there is one already. Behind the
first row a damaged line leaves an empty one. -/
def elementTexts : (begun : Bool) → List Reading → List Bytes
  | _, [] => []
  | begun, .nothing :: rs => elementTexts begun rs
  | _, .row vs :: rs => rowObject vs :: elementTexts true rs
  | true, .damaged :: rs => [] :: elementTexts true rs
  | false, .damaged :: rs => elementTexts false rs

theorem drop_sub_cons {α : Type*} (x : α) (xs : List α) {skip index : Nat} (h : index < skip) :
    (x :: xs).drop (skip - index) = xs.drop (skip - (index + 1)) := by
  rw [show skip - index = skip - (index + 1) + 1 by omega, List.drop_succ_cons]

theorem drop_sub_cons_of_le {α : Type*} (xs : List α) {skip index : Nat} (h : skip ≤ index) :
    xs.drop (skip - index) = xs := by
  rw [show skip - index = 0 by omega, List.drop_zero]

/-- One pass of the loop, by what it makes of the line. -/
theorem tailLoop_cons (skip : Nat) (l : Bytes) (ls : List Bytes) (index emitted : Nat) (json : Bytes) :
    tailLoop true skip (l :: ls) index emitted json =
      if index < skip then tailLoop true skip ls (index + 1) emitted json
      else
        match reading l with
        | .nothing => tailLoop true skip ls (index + 1) emitted json
        | .damaged => tailLoop true skip ls (index + 1) emitted (if emitted > 0 then json ++ ascii "," else json)
        | .row vs =>
          tailLoop true skip ls (index + 1) (emitted + 1)
            ((if emitted > 0 then json ++ ascii "," else json) ++ rowObject vs) := by
  rw [tailLoop, reading]
  by_cases hskip : index < skip
  · simp [hskip]
  · by_cases hblank : (trim l).isEmpty = true
    · simp [hskip, hblank]
    · by_cases hheader : (ascii "uptime_ms,").isPrefixOf (trim l) = true
      · simp [hskip, hblank, hheader]
      · by_cases hseven : (findSeparators (trim l) 0 []).length = 7
        · simp [hskip, hblank, hheader, hseven]
        · simp [hskip, hblank, hheader, hseven]

/-- The loop behind the texts in `written`. -/
theorem tailLoop_telemetry (skip : Nat) (start : Bytes) (ls written : List Bytes) (index emitted : Nat)
    (h : 0 < emitted ↔ written ≠ []) :
    tailLoop true skip ls index emitted (start ++ (ascii ",").intercalate written) =
      start ++ (ascii ",").intercalate
        (written ++ elementTexts (decide (0 < emitted)) ((ls.drop (skip - index)).map reading)) := by
  induction ls generalizing written index emitted with
  | nil => simp [tailLoop, elementTexts]
  | cons l ls ih =>
    rw [tailLoop_cons]
    by_cases hskip : index < skip
    · rw [if_pos hskip, drop_sub_cons l ls hskip, ih written (index + 1) emitted h]
    · have hle : skip ≤ index := Nat.le_of_not_lt hskip
      have hrest := fun (ts : List Bytes) (n : Nat) (hn : 0 < n ↔ ts ≠ []) => by
        have hnext := ih ts (index + 1) n hn
        rwa [drop_sub_cons_of_le ls (Nat.le_succ_of_le hle)] at hnext
      rw [if_neg hskip, drop_sub_cons_of_le _ hle, List.map_cons]
      cases reading l with
      | nothing => exact hrest written emitted h
      | row vs =>
        have hsome : 0 < emitted + 1 ↔ written ++ [rowObject vs] ≠ [] := by simp
        dsimp only
        rw [append_separated (ascii ",") start h, hrest _ _ hsome, List.append_assoc]
        cases decide (0 < emitted) <;> rfl
      | damaged =>
        dsimp only
        by_cases hz : 0 < emitted
        · have hsome : 0 < emitted ↔ written ++ [[]] ≠ [] := by simp [hz]
          have hcomma := append_separated (ascii ",") start h []
          rw [List.append_nil] at hcomma
          rw [hcomma, hrest _ _ hsome, List.append_assoc, decide_eq_true hz]
          rfl
        · rw [if_neg hz, hrest _ _ h, decide_eq_false hz]
          rfl

/-- The loop over events writes every line that is not blank. -/
theorem tailLoop_events (skip : Nat) (start : Bytes) (ls written : List Bytes) (index emitted : Nat)
    (h : 0 < emitted ↔ written ≠ []) :
    tailLoop false skip ls index emitted (start ++ (ascii ",").intercalate written) =
      start ++ (ascii ",").intercalate (written ++ itemsOf isspace (ls.drop (skip - index))) := by
  induction ls generalizing written index emitted with
  | nil => simp [tailLoop]
  | cons l ls ih =>
    rw [tailLoop]
    by_cases hskip : index < skip
    · simp only [hskip, decide_true, Bool.true_or, if_true]
      rw [drop_sub_cons l ls hskip, ih written (index + 1) emitted h]
    · have hle : skip ≤ index := Nat.le_of_not_lt hskip
      rw [drop_sub_cons_of_le _ hle]
      by_cases hblank : trim l = []
      · have hnext := ih written (index + 1) emitted h
        rw [drop_sub_cons_of_le ls (Nat.le_succ_of_le hle)] at hnext
        rw [itemsOf_cons_blank isspace hblank, ← hnext]
        simp [hblank]
      · have hsome : 0 < emitted + 1 ↔ written ++ [trim l] ≠ [] := by simp
        have hnext := ih (written ++ [trim l]) (index + 1) (emitted + 1) hsome
        rw [drop_sub_cons_of_le ls (Nat.le_succ_of_le hle), List.append_assoc, List.singleton_append] at hnext
        rw [itemsOf_cons_item isspace hblank]
        have hcond : ¬ (decide (index < skip) || (trim l).isEmpty) = true := by simp [hskip, hblank]
        rw [if_neg hcond, if_neg (by simp)]
        dsimp only
        rw [if_neg (by simp), append_separated (ascii ",") start h, hnext]
        rfl

/-- The last `limit` lines of a file. -/
def lastLines (content : Bytes) (limit : Nat) : List Bytes := (readLines content).rtake limit

theorem skip_eq (total limit : Nat) : (if total > limit then total - limit else 0) = total - limit := by
  split <;> omega

theorem historyJson_eq {s : StorageManager} (hm : s.mounted = true) {content : Bytes}
    (hf : s.files .telemetryCsv = some content) (limit : Nat) :
    s.historyJson limit = jsonArray (elementTexts false ((lastLines content limit).map reading)) := by
  have hloop := tailLoop_telemetry ((readLines content).length - limit) (ascii "[") (readLines content) [] 0 0
    (by simp)
  rw [List.intercalate_nil, List.append_nil] at hloop
  rw [historyJson, tailLinesJson, hm, hf]
  dsimp only
  rw [skip_eq, hloop]
  rfl

theorem eventsJson_eq {s : StorageManager} (hm : s.mounted = true) {content : Bytes}
    (hf : s.files .eventsNdjson = some content) (limit : Nat) :
    s.eventsJson limit = jsonArray (itemsOf isspace (lastLines content limit)) := by
  have hloop := tailLoop_events ((readLines content).length - limit) (ascii "[") (readLines content) [] 0 0
    (by simp)
  rw [List.intercalate_nil, List.append_nil] at hloop
  rw [eventsJson, tailLinesJson, hm, hf]
  dsimp only
  rw [skip_eq, hloop]
  rfl

end LiTimeGateway.StorageManager
