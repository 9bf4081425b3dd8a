import LiTimeGateway.Storage.TailReader
/-!
# The history document

A row is eight numbers between commas, which is what `telemetryCsv` writes. For
a file of such rows, with or without the header, the document lists exactly the
last of them. A line with fewer commas does no harm in front of the first row of
the window and leaves an empty element behind it.
-/

namespace LiTimeGateway.StorageManager

open Lib.Lines Lib.Join Lib.Json

/-! ## Rows of numbers -/

def rowText (fields : List Bytes) : Bytes := (ascii ",").intercalate fields

def historyKeys : List Bytes :=
  [ascii "uptime_ms", ascii "voltage", ascii "current", ascii "soc", ascii "power", ascii "cell_temp",
   ascii "mosfet_temp", ascii "cell_delta_mv"]

/-- The eight keys, each with the number of its column. -/
def rowValue (fields : List Bytes) : Value := .object (historyKeys.zip (fields.map .number))

def rowMembers (fields : List Bytes) : List Member :=
  (historyKeys.zip fields).map fun p => ⟨p.1, some (.number p.2), p.2⟩

theorem comma_not_mem_number {f : Bytes} (h : isNumber f = true) : ch ',' ∉ f := by
  intro hm
  exact absurd (isNumberChar_of_isNumber h _ hm) (by decide)

/-- A row starts with a digit or a sign, so it is neither blank nor the header. -/
theorem rowText_first {fields : List Bytes} (hne : fields ≠ []) (hnum : ∀ f ∈ fields, isNumber f = true) :
    ((rowText fields).isEmpty || (ascii "uptime_ms,").isPrefixOf (rowText fields)) = false := by
  cases fields with
  | nil => exact absurd rfl hne
  | cons f fields =>
    have hf := hnum f List.mem_cons_self
    cases f with
    | nil => exact absurd hf (by decide)
    | cons c f =>
      have hu : c ≠ ch 'u' := by
        rintro rfl
        exact absurd (isNumberChar_of_isNumber hf _ List.mem_cons_self) (by decide)
      obtain ⟨rest, hrest⟩ : ∃ rest, rowText ((c :: f) :: fields) = c :: rest := by
        cases fields with
        | nil => exact ⟨f, List.intercalate_singleton⟩
        | cons g fields => exact ⟨_, List.intercalate_cons_cons⟩
      have hheader : ascii "uptime_ms," = ch 'u' :: ascii "ptime_ms," := rfl
      rw [hrest, hheader, List.isPrefixOf_cons_cons, beq_false_of_ne (Ne.symm hu)]
      rfl

theorem length_offsets (i : Nat) (fields : List Bytes) : (offsets i fields).length = fields.length - 1 := by
  induction fields generalizing i with
  | nil => rfl
  | cons f fields ih =>
    cases fields with
    | nil => rfl
    | cons g fields =>
      rw [offsets, List.length_cons, ih]
      simp only [List.length_cons]
      omega

theorem reading_row {l : Bytes} {fields : List Bytes} (ht : trim l = rowText fields) (h8 : fields.length = 8)
    (hnum : ∀ f ∈ fields, isNumber f = true) : reading l = .row fields := by
  have hne : fields ≠ [] := by
    rintro rfl
    cases h8
  have hsep := findSeparators_join hne (fun f hf => comma_not_mem_number (hnum f hf)) 0 []
    (by rw [h8]; decide)
  have hvalues := values_join hne []
  rw [List.nil_append] at hsep hvalues
  have hfirst := rowText_first hne hnum
  have hseven : ¬ (offsets 0 fields).length ≠ 7 := by
    rw [length_offsets, h8]
    decide
  rw [reading, ht, if_neg (by rw [hfirst]; decide), rowText, hsep, if_neg hseven]
  exact congrArg Reading.row hvalues

theorem rowObject_eq {fields : List Bytes} (h8 : fields.length = 8) :
    rowObject fields = Member.objectOf (rowMembers fields) := by
  match fields, h8 with
  | [a, b, c, d, e, f, g, h], _ =>
    simp only [rowObject, rowMembers, historyKeys, List.zip_cons_cons, List.zip_nil_right, Member.objectOf, objectText,
      memberText, quoted, List.map_cons, List.map_nil, List.intercalate_cons_cons, List.intercalate_singleton,
      List.append_assoc, List.cons_append, List.nil_append]
    rfl

theorem scans_rowObject {fields : List Bytes} (h8 : fields.length = 8) (hnum : ∀ f ∈ fields, isNumber f = true) :
    Scans (some (rowValue fields)) (rowObject fields) := by
  have hvalue : Member.objectValue (rowMembers fields) = some (rowValue fields) := by
    match fields, h8 with
    | [a, b, c, d, e, f, g, h], _ => rfl
  have hkeys : ∀ k ∈ historyKeys, Verbatim k := by decide
  rw [rowObject_eq h8, ← hvalue]
  apply scans_object
  intro m hm
  obtain ⟨⟨key, field⟩, hmem, rfl⟩ := List.mem_map.1 hm
  exact ⟨hkeys key (List.of_mem_zip hmem).1, scans_number (hnum field (List.of_mem_zip hmem).2)⟩

/-! ## Files that `recordTelemetry` and `recordEvent` wrote -/

/-- One call of `telemetryCsv`. -/
structure Sample where
  data : BatteryData
  uptime : UInt32

/-- The texts `telemetryCsv` writes, in its order. -/
def Sample.texts (sample : Sample) : List Bytes :=
  [decimal sample.uptime.toNat, csvValue sample.data.voltage 2, csvValue sample.data.current 2,
   decimal sample.data.soc.toNat, csvValue sample.data.power 1, csvValue sample.data.cellTemp 1,
   csvValue sample.data.mosfetTemp 1, csvValue sample.data.cellDeltaMv 1]

/-- One call of `recordEvent`; an event's name is one line. -/
structure Event where
  name : Bytes
  data : Option BatteryData
  uptime : UInt32
  oneLine : ch '\n' ∉ name

def Event.line (event : Event) : Bytes := eventLine event.name event.data event.uptime

theorem telemetryCsv_eq (sample : Sample) : telemetryCsv sample.data sample.uptime = rowText sample.texts := by
  simp only [telemetryCsv, rowText, Sample.texts, List.intercalate_cons_cons, List.intercalate_singleton,
    List.append_assoc]

theorem isNumber_texts (sample : Sample) : ∀ f ∈ sample.texts, isNumber f = true := by
  simp only [Sample.texts, List.forall_mem_cons, csvValue, isNumber_decimal, true_and, List.not_mem_nil,
    false_implies, implies_true, and_true]
  exact ⟨isNumber_floatText _ (by decide), isNumber_floatText _ (by decide), isNumber_floatText _ (by decide),
    isNumber_floatText _ (by decide), isNumber_floatText _ (by decide), isNumber_floatText _ (by decide)⟩

theorem plain_telemetryCsv (data : BatteryData) (uptime : UInt32) : Plain (telemetryCsv data uptime) := by
  unfold telemetryCsv
  simp only [plain_append, plain_csvValue, plain_decimal, and_true, true_and]
  decide

theorem reading_telemetryCsv (sample : Sample) :
    reading (telemetryCsv sample.data sample.uptime ++ [ch '\r']) = .row sample.texts := by
  have htrim : trim (telemetryCsv sample.data sample.uptime ++ [ch '\r']) = rowText sample.texts := by
    rw [trim, strip_concat isspace (by decide), ← telemetryCsv_eq]
    exact (plain_telemetryCsv _ _).trim_eq
  exact reading_row htrim rfl (isNumber_texts sample)

/-- The lines of `/telemetry.csv`: the header, unless the file began at a rotation, and the samples. -/
def telemetryLines (header : Bool) (samples : List Sample) : List Bytes :=
  (if header then [telemetryHeader] else []) ++ samples.map fun s => telemetryCsv s.data s.uptime

def telemetryFile (header : Bool) (samples : List Sample) : Bytes := (telemetryLines header samples).flatMap println

def eventsFile (events : List Event) : Bytes := (events.map Event.line).flatMap println

theorem rtake_append {α : Type*} (xs ys : List α) (n : Nat) :
    (xs ++ ys).rtake n = xs.rtake (n - ys.length) ++ ys.rtake n := by
  simp only [List.rtake, List.length_append, List.drop_append]
  have hys : xs.length + ys.length - n - xs.length = ys.length - n := by omega
  rw [hys]
  by_cases h : n ≤ ys.length
  · have hle : xs.length ≤ xs.length + ys.length - n := by omega
    have hzero : xs.length ≤ xs.length - (n - ys.length) := by omega
    rw [List.drop_eq_nil_of_le hle, List.drop_eq_nil_of_le hzero]
  · rw [show xs.length + ys.length - n = xs.length - (n - ys.length) by omega]

theorem map_rtake {α β : Type*} (f : α → β) (xs : List α) (n : Nat) : (xs.rtake n).map f = (xs.map f).rtake n := by
  simp only [List.rtake, List.map_drop, List.length_map]

theorem elementTexts_nothing {rs : List Reading} (h : ∀ r ∈ rs, r = .nothing) (begun : Bool) (qs : List Reading) :
    elementTexts begun (rs ++ qs) = elementTexts begun qs := by
  induction rs with
  | nil => rfl
  | cons r rs ih =>
    rw [h r List.mem_cons_self, List.cons_append, elementTexts, ih fun q hq => h q (List.mem_cons_of_mem _ hq)]

theorem elementTexts_rows (vss : List (List Bytes)) (begun : Bool) :
    elementTexts begun (vss.map .row) = vss.map rowObject := by
  induction vss generalizing begun with
  | nil => cases begun <;> rfl
  | cons vs vss ih => rw [List.map_cons, elementTexts, ih, List.map_cons]

theorem newline_not_mem_telemetryLines (header : Bool) (samples : List Sample) :
    ∀ l ∈ telemetryLines header samples, ch '\n' ∉ l := by
  intro l hl
  rw [telemetryLines, List.mem_append, List.mem_map] at hl
  rcases hl with hl | ⟨sample, -, rfl⟩
  · cases header with
    | true =>
      rw [if_pos rfl, List.mem_singleton] at hl
      rw [hl]
      decide
    | false => cases hl
  · exact (plain_telemetryCsv _ _).newline_not_mem

theorem reading_header : reading (telemetryHeader ++ [ch '\r']) = .nothing := by
  have htrim : trim (telemetryHeader ++ [ch '\r']) = telemetryHeader := by
    rw [trim, strip_concat isspace (by decide)]
    exact (by decide : Plain telemetryHeader).trim_eq
  have hheader : (telemetryHeader.isEmpty || (ascii "uptime_ms,").isPrefixOf telemetryHeader) = true := by decide
  rw [reading, htrim, if_pos hheader]

/-- The file as it is read back: the header is nothing, the samples are rows. -/
theorem readings_telemetryFile (header : Bool) (samples : List Sample) :
    (readLines (telemetryFile header samples)).map reading =
      (if header then [Reading.nothing] else []) ++ (samples.map Sample.texts).map .row := by
  have hrows : ((samples.map fun s => telemetryCsv s.data s.uptime).map (· ++ [ch '\r'])).map reading =
      (samples.map Sample.texts).map .row := by
    simp only [List.map_map, Function.comp_def, reading_telemetryCsv]
  rw [telemetryFile, readLines_flatMap_println (newline_not_mem_telemetryLines header samples), telemetryLines,
    List.map_append, List.map_append, hrows]
  cases header with
  | true => rw [if_pos rfl, if_pos rfl, List.map_singleton, List.map_singleton, reading_header]
  | false => rw [if_neg Bool.false_ne_true, if_neg Bool.false_ne_true, List.map_nil, List.map_nil]

/-- The header is in the window of lines only when every sample is, and is not written. -/
theorem historyJson_telemetryFile {s : StorageManager} (hm : s.mounted = true) {header : Bool}
    {samples : List Sample} (hf : s.files .telemetryCsv = some (telemetryFile header samples)) (limit : Nat) :
    s.historyJson limit = jsonArray ((samples.rtake limit).map fun s => rowObject s.texts) := by
  have hnothing : ∀ r ∈ (if header then [Reading.nothing] else []).rtake (limit - samples.length), r = .nothing := by
    intro r hr
    have hmem := List.mem_of_mem_drop hr
    cases header with
    | true =>
      rw [if_pos rfl] at hmem
      exact List.mem_singleton.1 hmem
    | false => cases hmem
  have hread : (lastLines (telemetryFile header samples) limit).map reading =
      (if header then [Reading.nothing] else []).rtake (limit - samples.length) ++
        ((samples.rtake limit).map Sample.texts).map .row := by
    rw [lastLines, map_rtake, readings_telemetryFile, rtake_append, List.length_map, List.length_map, map_rtake,
      map_rtake]
  rw [historyJson_eq hm hf, hread, elementTexts_nothing hnothing, elementTexts_rows, List.map_map]
  rfl

theorem newline_not_mem_jsonEscape {t : Bytes} (h : ch '\n' ∉ t) : ch '\n' ∉ jsonEscape t := by
  induction t with
  | nil => exact h
  | cons c t ih =>
    rw [List.mem_cons, not_or] at h
    rw [jsonEscape, List.mem_append, not_or]
    refine ⟨?_, ih h.2⟩
    split
    · simp only [List.mem_cons, List.not_mem_nil, or_false, not_or]
      exact ⟨by decide, h.1⟩
    · simpa using h.1

theorem newline_not_mem_line (event : Event) : ch '\n' ∉ event.line := by
  have hname := newline_not_mem_jsonEscape event.oneLine
  have hdecimal := fun n => (plain_decimal n).newline_not_mem
  have hfloat := fun v => (plain_floatText v 2).newline_not_mem
  have hkeys : ch '\n' ∉ ascii "\x7b\"uptime_ms\":" ∧ ch '\n' ∉ ascii ",\"event\":\"" ∧ ch '\n' ∉ ascii "\"" ∧
      ch '\n' ∉ ascii ",\"voltage\":" ∧ ch '\n' ∉ ascii ",\"soc\":" ∧ ch '\n' ∉ ascii "\x7d" := by decide
  obtain ⟨h1, h2, h3, h4, h5, h6⟩ := hkeys
  unfold Event.line eventLine
  dsimp only
  split
  · split
    · simp only [List.mem_append, not_or]
      simp only [h1, h2, h3, h4, h5, h6, hname, hdecimal, hfloat, not_false_eq_true, and_self]
    · simp only [List.mem_append, not_or]
      simp only [h1, h2, h3, h6, hname, hdecimal, not_false_eq_true, and_self]
  · simp only [List.mem_append, not_or]
    simp only [h1, h2, h3, h6, hname, hdecimal, not_false_eq_true, and_self]

theorem eventLine_ends (name : Bytes) (data : Option BatteryData) (uptime : UInt32) :
    ∃ body, eventLine name data uptime = ch '\x7b' :: (body ++ [ch '\x7d']) := by
  have hopen : ascii "\x7b\"uptime_ms\":" = ch '\x7b' :: ascii "\"uptime_ms\":" := rfl
  have hclose : ascii "\x7d" = [ch '\x7d'] := rfl
  unfold eventLine
  rw [hopen, hclose]
  dsimp only
  split
  · split
    · simp only [List.cons_append]
      exact ⟨_, rfl⟩
    · simp only [List.cons_append]
      exact ⟨_, rfl⟩
  · simp only [List.cons_append]
    exact ⟨_, rfl⟩

/-- An event is an object on its line, so nothing is trimmed off. -/
theorem strip_line (event : Event) : event.line ≠ [] ∧ strip isspace event.line = event.line := by
  obtain ⟨body, hbody⟩ := eventLine_ends event.name event.data event.uptime
  have hline : event.line = ch '\x7b' :: (body ++ [ch '\x7d']) := hbody
  have hne := List.cons_ne_nil (ch '\x7b') (body ++ [ch '\x7d'])
  have hlast : (ch '\x7b' :: (body ++ [ch '\x7d'])).getLast hne = ch '\x7d' := by simp
  rw [hline]
  refine ⟨hne, strip_of_ends isspace hne rfl ?_⟩
  rw [hlast]
  rfl

theorem itemsOf_lines (events : List Event) :
    itemsOf isspace ((events.map Event.line).map (· ++ [ch '\r'])) = events.map Event.line := by
  induction events with
  | nil => rfl
  | cons event events ih =>
    obtain ⟨hne, hstrip⟩ := strip_line event
    have htrim : strip isspace (event.line ++ [ch '\r']) = event.line := by
      rw [strip_concat isspace (by decide), hstrip]
    rw [List.map_cons, List.map_cons, itemsOf_cons_item isspace (by rw [htrim]; exact hne), htrim, ih]

theorem eventsJson_eventsFile {s : StorageManager} (hm : s.mounted = true) {events : List Event}
    (hf : s.files .eventsNdjson = some (eventsFile events)) (limit : Nat) :
    s.eventsJson limit = jsonArray ((events.rtake limit).map Event.line) := by
  have hlines : ∀ l ∈ events.map Event.line, ch '\n' ∉ l := by
    intro l hl
    obtain ⟨event, -, rfl⟩ := List.mem_map.1 hl
    exact newline_not_mem_line event
  rw [eventsJson_eq hm hf, lastLines, eventsFile, readLines_flatMap_println hlines, ← map_rtake, ← map_rtake,
    itemsOf_lines]

/-! ## The array of the rows -/

/-- An array as it is written: what each element scans as, and its text. -/
theorem parse_jsonArray {items : List (Option Value × Bytes)} (h : ∀ i ∈ items, Scans i.1 i.2)
    (hsolid : ∀ i ∈ items.head?, Solid i.2) :
    parse (jsonArray (items.map (·.2))) = (allSome (items.map (·.1))).map .array :=
  parse_of_scans (scans_array h hsolid)

theorem solid_rowObject {fields : List Bytes} (h8 : fields.length = 8) : Solid (rowObject fields) := by
  rw [rowObject_eq h8]
  exact solid_object _

def rowItem (fields : List Bytes) : Option Value × Bytes := (some (rowValue fields), rowObject fields)

theorem parse_rows {fieldss : List (List Bytes)}
    (h : ∀ fields ∈ fieldss, fields.length = 8 ∧ ∀ f ∈ fields, isNumber f = true) :
    parse (jsonArray (fieldss.map rowObject)) = some (.array (fieldss.map rowValue)) := by
  have hscans : ∀ i ∈ fieldss.map rowItem, Scans i.1 i.2 := by
    intro i hi
    obtain ⟨fields, hmem, rfl⟩ := List.mem_map.1 hi
    rw [rowItem]
    exact scans_rowObject (h fields hmem).1 (h fields hmem).2
  have hsolid : ∀ i ∈ (fieldss.map rowItem).head?, Solid i.2 := by
    intro i hi
    obtain ⟨fields, hmem, rfl⟩ := List.mem_map.1 (List.mem_of_mem_head? hi)
    rw [rowItem]
    exact solid_rowObject (h fields hmem).1
  have htexts : (fieldss.map rowItem).map (·.2) = fieldss.map rowObject := by
    simp only [List.map_map, Function.comp_def, rowItem]
  have hall : allSome ((fieldss.map rowItem).map (·.1)) = some (fieldss.map rowValue) := by
    rw [allSome_eq_some]
    simp only [List.map_map, Function.comp_def, rowItem]
  rw [← htexts, parse_jsonArray hscans hsolid, hall, Option.map_some]

/-- The storage with these two files in place. -/
def storing (s : StorageManager) (telemetry events : Bytes) : StorageManager :=
  { s with mounted := true, files := (s.files.write .telemetryCsv telemetry).write .eventsNdjson events }

theorem storing_telemetry (s : StorageManager) (telemetry events : Bytes) :
    (storing s telemetry events).files .telemetryCsv = some telemetry := by
  dsimp only [storing]
  rw [Files.write_other _ _ (by decide), Files.write_self]

theorem storing_events (s : StorageManager) (telemetry events : Bytes) :
    (storing s telemetry events).files .eventsNdjson = some events := by
  dsimp only [storing]
  rw [Files.write_self]

/-- For every file of samples, with the header or without it, and every file of
events: the history is the array of the last samples, each key with the text of
its column, and the events are the last lines as they were written. -/
theorem tail_reader_inverts_writer (s : StorageManager) (header : Bool) (samples : List Sample)
    (events : List Event) (limit : Nat) :
    (storing s (telemetryFile header samples) (eventsFile events)).historyJson limit =
        jsonArray ((samples.rtake limit).map fun s => rowObject s.texts) ∧
      parse ((storing s (telemetryFile header samples) (eventsFile events)).historyJson limit) =
        some (.array ((samples.rtake limit).map fun s => rowValue s.texts)) ∧
      (storing s (telemetryFile header samples) (eventsFile events)).eventsJson limit =
        jsonArray ((events.rtake limit).map Event.line) := by
  have htext := historyJson_telemetryFile rfl (storing_telemetry s (telemetryFile header samples) (eventsFile events))
    limit
  have heights : ∀ fields ∈ (samples.rtake limit).map Sample.texts,
      fields.length = 8 ∧ ∀ f ∈ fields, isNumber f = true := by
    intro fields hfields
    obtain ⟨sample, -, rfl⟩ := List.mem_map.1 hfields
    exact ⟨rfl, isNumber_texts sample⟩
  have hrows := parse_rows heights
  simp only [List.map_map, Function.comp_def] at hrows
  refine ⟨htext, ?_, eventsJson_eventsFile rfl (storing_events _ _ _) limit⟩
  rw [htext]
  exact hrows

end LiTimeGateway.StorageManager
