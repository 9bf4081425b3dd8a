import LiTimeGateway.Storage.History
/-!
# Damaged rows in the history

`tailLinesJson` writes the comma in front of a row before it looks whether the
line is one, and takes back its counter but not the comma. Behind the first row
of the window every damaged line therefore leaves an empty element, and the
document is no JSON any more.
-/

namespace LiTimeGateway.StorageManager

open Lib.Lines Lib.Json

/-- A line of `/telemetry.csv` without the white space around it: the header, a
row of eight numbers, or anything with fewer than seven commas. -/
inductive Line where
  | header
  | row (fields : List Bytes) (eight : fields.length = 8) (numeric : ∀ f ∈ fields, isNumber f = true)
  | fragment (text : Bytes) (short : text.count (ch ',') < 7)

namespace Line

def text : Line → Bytes
  | header => telemetryHeader
  | row fields _ _ => rowText fields
  | fragment text _ => text

def isRow : Line → Bool
  | row _ _ _ => true
  | _ => false

/-- The line is taken for a row: neither blank nor like the header. -/
def damages : Line → Bool
  | fragment text _ => !(text.isEmpty || (ascii "uptime_ms,").isPrefixOf text)
  | _ => false

/-- The object a reader should find for the line. -/
def value : Line → Option Value
  | row fields _ _ => some (rowValue fields)
  | _ => none

def reading : Line → Reading
  | header => .nothing
  | row fields _ _ => .row fields
  | fragment text _ =>
    if text.isEmpty || (ascii "uptime_ms,").isPrefixOf text then .nothing else .damaged

theorem row_or_other (line : Line) :
    (∃ fields eight numeric, line = .row fields eight numeric) ∨ line.isRow = false := by
  cases line with
  | header => exact .inr rfl
  | row fields eight numeric => exact .inl ⟨fields, eight, numeric, rfl⟩
  | fragment text short => exact .inr rfl

theorem reading_other {line : Line} (h : line.isRow = false) :
    line.reading = if line.damages then .damaged else .nothing := by
  cases line with
  | header => rfl
  | row fields eight numeric => cases h
  | fragment text short =>
    rw [reading, damages]
    cases text.isEmpty || (ascii "uptime_ms,").isPrefixOf text <;> rfl

theorem value_other {line : Line} (h : line.isRow = false) : line.value = none := by
  cases line with
  | header => rfl
  | row fields eight numeric => cases h
  | fragment text short => rfl

end Line

/-- A content of `/telemetry.csv`, with the lines that are read from it. -/
structure TelemetryFile where
  content : Bytes
  lines : List Line
  reads : (readLines content).map trim = lines.map Line.text

theorem reading_eq {l : Bytes} {line : Line} (h : trim l = line.text) : reading l = line.reading := by
  cases line with
  | header =>
    have hcond : (telemetryHeader.isEmpty || (ascii "uptime_ms,").isPrefixOf telemetryHeader) = true := by decide
    rw [reading, h, Line.text, if_pos hcond]
    rfl
  | row fields h8 hnum => exact reading_row h h8 hnum
  | fragment text short =>
    have hlen : (findSeparators text 0 []).length ≠ 7 := by
      rw [length_findSeparators text 0 [] (Nat.zero_le 7), List.length_nil]
      omega
    rw [reading, h, Line.text, if_pos hlen, Line.reading]

theorem readings_eq {ls : List Bytes} {lines : List Line} (h : ls.map trim = lines.map Line.text) :
    ls.map reading = lines.map Line.reading := by
  induction ls generalizing lines with
  | nil =>
    cases lines with
    | nil => rfl
    | cons line lines => cases h
  | cons l ls ih =>
    cases lines with
    | nil => cases h
    | cons line lines =>
      rw [List.map_cons, List.map_cons, List.cons.injEq] at h
      rw [List.map_cons, List.map_cons, reading_eq h.1, ih h.2]

/-! ## The elements of the document -/

/-- The elements between the commas, with what each scans as. -/
def elements : (begun : Bool) → List Line → List (Option Value × Bytes)
  | _, [] => []
  | _, .row fields _ _ :: lines => rowItem fields :: elements true lines
  | begun, line :: lines => if begun && line.damages then (none, []) :: elements begun lines else elements begun lines

theorem elements_cons_other {line : Line} (h : line.isRow = false) (begun : Bool) (lines : List Line) :
    elements begun (line :: lines) =
      if begun && line.damages then (none, []) :: elements begun lines else elements begun lines := by
  cases line with
  | header => rfl
  | row fields h8 hnum => cases h
  | fragment text short => rfl

theorem elements_texts (begun : Bool) (lines : List Line) :
    (elements begun lines).map (·.2) = elementTexts begun (lines.map Line.reading) := by
  induction lines generalizing begun with
  | nil => cases begun <;> rfl
  | cons line lines ih =>
    rcases line.row_or_other with ⟨fields, h8, hnum, rfl⟩ | hrow
    · rw [elements, List.map_cons, List.map_cons, ih, Line.reading, elementTexts, rowItem]
    · rw [elements_cons_other hrow, List.map_cons, Line.reading_other hrow]
      cases hd : line.damages with
      | true =>
        cases begun with
        | true => simp only [Bool.and_self, if_true, List.map_cons, ih, elementTexts]
        | false => simp only [Bool.and_true, Bool.false_eq_true, if_false, if_true, ih, elementTexts]
      | false => simp only [Bool.and_false, Bool.false_eq_true, if_false, ih, elementTexts]

theorem scans_elements (begun : Bool) (lines : List Line) : ∀ i ∈ elements begun lines, Scans i.1 i.2 := by
  induction lines generalizing begun with
  | nil => simp [elements]
  | cons line lines ih =>
    rcases line.row_or_other with ⟨fields, h8, hnum, rfl⟩ | hrow
    · rw [elements, List.forall_mem_cons, rowItem]
      exact ⟨scans_rowObject h8 hnum, ih true⟩
    · rw [elements_cons_other hrow]
      split
      · exact List.forall_mem_cons.2 ⟨scans_missing, ih begun⟩
      · exact ih begun

/-- Nothing is written in front of the first row. -/
theorem elements_first (lines : List Line) : ∀ i ∈ (elements false lines).head?, Solid i.2 := by
  induction lines with
  | nil => simp [elements]
  | cons line lines ih =>
    rcases line.row_or_other with ⟨fields, h8, hnum, rfl⟩ | hrow
    · intro i hi
      rw [elements, List.head?_cons, Option.mem_some_iff] at hi
      rw [← hi, rowItem]
      exact solid_rowObject h8
    · rw [elements_cons_other hrow, Bool.false_and, if_neg Bool.false_ne_true]
      exact ih

/-- Behind a row, the elements are values when no line damages them. -/
theorem allSome_elements_begun (lines : List Line) : allSome ((elements true lines).map (·.1)) =
    if ∀ line ∈ lines, line.damages = false then some (lines.filterMap Line.value) else none := by
  induction lines with
  | nil => rfl
  | cons line lines ih =>
    rcases line.row_or_other with ⟨fields, h8, hnum, rfl⟩ | hrow
    · have hvalue : (Line.row fields h8 hnum).value = some (rowValue fields) := rfl
      have hgood : (Line.row fields h8 hnum).damages = false := rfl
      simp only [elements, List.map_cons, rowItem, allSome, Option.bind_some, ih, List.forall_mem_cons, hgood,
        true_and, List.filterMap_cons_some hvalue]
      split <;> rfl
    · rw [elements_cons_other hrow, Bool.true_and, List.filterMap_cons_none (Line.value_other hrow)]
      simp only [List.forall_mem_cons]
      cases hd : line.damages with
      | true => simp only [if_true, List.map_cons, allSome, Option.bind_none, Bool.true_eq_false, false_and, if_false]
      | false => simp only [Bool.false_eq_true, if_false, ih, true_and]

/-- No damaged line stands behind a row. -/
def NoneBehindRow (lines : List Line) : Prop :=
  lines.Pairwise fun a b => a.isRow = true → b.damages = false

instance (lines : List Line) : Decidable (NoneBehindRow lines) := inferInstanceAs (Decidable (List.Pairwise _ _))

theorem allSome_elements (lines : List Line) : allSome ((elements false lines).map (·.1)) =
    if NoneBehindRow lines then some (lines.filterMap Line.value) else none := by
  induction lines with
  | nil => rfl
  | cons line lines ih =>
    rcases line.row_or_other with ⟨fields, h8, hnum, rfl⟩ | hrow
    · have hvalue : (Line.row fields h8 hnum).value = some (rowValue fields) := rfl
      -- Behind a row the condition of the rest follows from there being no damage at all.
      have hcond : NoneBehindRow (.row fields h8 hnum :: lines) ↔ ∀ line ∈ lines, line.damages = false := by
        rw [NoneBehindRow, List.pairwise_cons]
        constructor
        · intro h line hline
          exact h.1 line hline rfl
        · intro h
          refine ⟨fun line hline _ => h line hline, ?_⟩
          exact List.pairwise_of_forall_mem_list fun a _ b hb _ => h b hb
      simp only [elements, List.map_cons, rowItem, allSome, Option.bind_some, allSome_elements_begun, hcond,
        List.filterMap_cons_some hvalue]
      split <;> rfl
    · have hcond : NoneBehindRow (line :: lines) ↔ NoneBehindRow lines := by
        rw [NoneBehindRow, List.pairwise_cons, NoneBehindRow]
        constructor
        · exact fun h => h.2
        · intro h
          refine ⟨?_, h⟩
          intro other _ hr
          rw [hrow] at hr
          cases hr
      rw [elements_cons_other hrow, Bool.false_and, if_neg Bool.false_ne_true, ih,
        List.filterMap_cons_none (Line.value_other hrow)]
      simp only [hcond]

theorem parse_history (s : StorageManager) (file : TelemetryFile) (events : Bytes) (limit : Nat) :
    parse ((storing s file.content events).historyJson limit) =
      if NoneBehindRow (file.lines.rtake limit) then some (.array ((file.lines.rtake limit).filterMap Line.value))
      else none := by
  have hread : (lastLines file.content limit).map reading = (file.lines.rtake limit).map Line.reading := by
    rw [lastLines, map_rtake, map_rtake, readings_eq file.reads]
  rw [historyJson_eq rfl (storing_telemetry s file.content events), hread, ← elements_texts,
    parse_jsonArray (scans_elements false _) (elements_first _), allSome_elements]
  split <;> rfl

/-- The history is the array of the rows in the window exactly when no damaged
line stands behind a row there. -/
theorem history_lists_rows_iff (s : StorageManager) (file : TelemetryFile) (events : Bytes) (limit : Nat) :
    parse ((storing s file.content events).historyJson limit) =
        some (.array ((file.lines.rtake limit).filterMap Line.value)) ↔
      NoneBehindRow (file.lines.rtake limit) := by
  rw [parse_history]
  constructor
  · intro h
    by_contra hn
    rw [if_neg hn] at h
    cases h
  · intro h
    rw [if_pos h]

/-- A row, and one that lost its end. -/
def cutRow : TelemetryFile where
  content := println (ascii "60000,13.10,0.00,98,0.0,21.0,20.0,4.0") ++ println (ascii "120000,13.1")
  lines :=
    [.row ((ascii "60000,13.10,0.00,98,0.0,21.0,20.0,4.0").splitOn (ch ',')) (by decide) (by decide),
     .fragment (ascii "120000,13.1") (by decide)]
  reads := by decide

theorem cut_row_breaks_history : parse ((storing {} cutRow.content []).historyJson 48) = none := by
  rw [parse_history, if_neg (by decide)]

end LiTimeGateway.StorageManager
