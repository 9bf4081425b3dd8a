import LiTimeGateway.Lib.Runs
import LiTimeGateway.Storage.History
import LiTimeGateway.Storage.RemoteQueue
/-!
# The history over whole runs

A run records samples and events in any order, acknowledges remote batches and
restarts. Beside the storage a `Log` keeps everything recorded so far and how
much of it is younger than the last rotation of its file. The readers open the
current generation only, so that number decides what they can list.
-/

namespace LiTimeGateway.HistoryRuns

open Lib.Runs StorageManager

inductive Op where
  | restart
  | recordTelemetry (data : BatteryData) (clock : SampleClock)
  | recordEvent (event : Event)
  | acknowledge (itemCount : Nat) (io : AckIo)

/-- The storage, everything recorded, and how many of the samples and events
were recorded since their file was last rotated away. -/
structure Log where
  storage : StorageManager
  samples : List Sample := []
  samplesSince : Nat := 0
  events : List Event := []
  eventsSince : Nat := 0

/-- After an append: a file at its cap starts again with the new record. -/
def since (files : Files) (path : Path) (maximumBytes n : Nat) : Nat :=
  if atCap files path maximumBytes then 1 else n + 1

def Log.step (log : Log) : Op → Log
  | .restart => { log with storage := (begin { files := log.storage.files } true).1 }
  | .recordTelemetry data clock =>
    if log.storage.takesSample data clock then
      { log with
        storage := log.storage.recordTelemetry data clock
        samples := log.samples ++ [⟨data, clock.csv⟩]
        samplesSince := since log.storage.files .telemetryCsv kTelemetryMaximumBytes log.samplesSince }
    else { log with storage := log.storage.recordTelemetry data clock }
  | .recordEvent event =>
    { log with
      storage := log.storage.recordEvent event.name event.data event.uptime
      events := log.events ++ [event]
      eventsSince := since log.storage.files .eventsNdjson kEventsMaximumBytes log.eventsSince }
  | .acknowledge itemCount io => { log with storage := (log.storage.acknowledgeRemoteBatch itemCount io).1 }

/-- An empty filesystem, mounted. -/
def start : Log := { storage := (begin {} true).1 }

/-! ## What the files hold -/

/-- Each file holds the records since its last rotation. -/
structure Log.Stored (log : Log) : Prop where
  mounted : log.storage.mounted = true
  telemetry : ∃ header,
    log.storage.files .telemetryCsv = some (telemetryFile header (log.samples.rtake log.samplesSince))
  events : (log.storage.files .eventsNdjson = none ∧ log.events = []) ∨
    log.storage.files .eventsNdjson = some (eventsFile (log.events.rtake log.eventsSince))

theorem telemetryFile_concat (header : Bool) (samples : List Sample) (sample : Sample) :
    telemetryFile header (samples ++ [sample]) =
      telemetryFile header samples ++ println (telemetryCsv sample.data sample.uptime) := by
  simp [telemetryFile, telemetryLines]

theorem telemetryFile_rotated (sample : Sample) :
    telemetryFile false [sample] = println (telemetryCsv sample.data sample.uptime) := by
  simp [telemetryFile, telemetryLines]

theorem eventsFile_concat (events : List Event) (event : Event) :
    eventsFile (events ++ [event]) = eventsFile events ++ println event.line := by
  simp [eventsFile]

/-- The records since the last rotation, one append later. -/
theorem rtake_since {α : Type*} (files : Files) (path : Path) (maximumBytes n : Nat) (xs : List α) (x : α) :
    (xs ++ [x]).rtake (since files path maximumBytes n) =
      if atCap files path maximumBytes then [x] else xs.rtake n ++ [x] := by
  unfold since
  split
  · rw [List.rtake_concat_succ, List.rtake_zero, List.nil_append]
  · rw [List.rtake_concat_succ]

theorem acknowledge_frame (s : StorageManager) (itemCount : Nat) (io : AckIo) :
    (s.acknowledgeRemoteBatch itemCount io).1.mounted = s.mounted ∧
      ∀ path, path ≠ .remoteNdjson → path ≠ .remoteTmp →
        (s.acknowledgeRemoteBatch itemCount io).1.files path = s.files path := by
  unfold acknowledgeRemoteBatch
  split
  · exact ⟨rfl, fun _ _ _ => rfl⟩
  · exact ⟨rfl, fun _ h1 h2 => acknowledgeFiles_other _ _ _ h1 h2⟩

theorem recordTelemetry_files {s : StorageManager} {data : BatteryData} {clock : SampleClock}
    (h : s.takesSample data clock = true) :
    (s.recordTelemetry data clock).mounted = s.mounted ∧
    (s.recordTelemetry data clock).files .telemetryCsv =
      some ((if atCap s.files .telemetryCsv kTelemetryMaximumBytes then [] else (s.files .telemetryCsv).getD []) ++
        println (telemetryCsv data clock.csv)) ∧
    (s.recordTelemetry data clock).files .eventsNdjson = s.files .eventsNdjson := by
  simp only [recordTelemetry, h, Bool.not_true, Bool.false_eq_true, if_false, true_and]
  rw [appendLine_other (by decide) (by decide), appendLine_self, appendLine_other (by decide) (by decide),
    appendLine_other (by decide) (by decide)]
  exact ⟨rfl, rfl⟩

theorem recordEvent_files {s : StorageManager} (h : s.mounted = true) (event : Event) :
    (s.recordEvent event.name event.data event.uptime).mounted = true ∧
    (s.recordEvent event.name event.data event.uptime).files .eventsNdjson =
      some ((if atCap s.files .eventsNdjson kEventsMaximumBytes then [] else (s.files .eventsNdjson).getD []) ++
        println event.line) ∧
    (s.recordEvent event.name event.data event.uptime).files .telemetryCsv = s.files .telemetryCsv := by
  simp only [recordEvent, h, Bool.not_true, Bool.false_eq_true, if_false, true_and]
  rw [appendLine_self, appendLine_other (by decide) (by decide)]
  exact ⟨rfl, rfl⟩

/-! ## One step -/

theorem stored_start : start.Stored where
  mounted := rfl
  telemetry := ⟨true, by
    have h : telemetryFile true [] = println telemetryHeader := by simp [telemetryFile, telemetryLines]
    rw [show start.samples.rtake start.samplesSince = [] from rfl, h]
    rfl⟩
  events := .inl ⟨rfl, rfl⟩

theorem stored_step {log : Log} (h : log.Stored) (op : Op) : (log.step op).Stored := by
  obtain ⟨header, htelemetry⟩ := h.telemetry
  cases op with
  | restart =>
    have hbegin : begin { files := log.storage.files } true = ({ mounted := true, files := log.storage.files }, true) := by
      simp [begin, htelemetry]
    rw [Log.step, hbegin]
    exact ⟨rfl, ⟨header, htelemetry⟩, h.events⟩
  | recordTelemetry data clock =>
    by_cases htakes : log.storage.takesSample data clock = true
    · obtain ⟨hm, hfile, hevents⟩ := recordTelemetry_files htakes
      rw [Log.step, if_pos htakes]
      refine ⟨hm.trans h.mounted, ?_, ?_⟩
      · simp only [hfile, htelemetry, Option.getD_some, rtake_since]
        split
        · exact ⟨false, by rw [telemetryFile_rotated, List.nil_append]⟩
        · exact ⟨header, by rw [telemetryFile_concat]⟩
      · simp only [hevents]
        exact h.events
    · rw [Log.step, if_neg htakes, RemoteQueue.recordTelemetry_throttled (Bool.eq_false_iff.2 htakes)]
      exact h
  | recordEvent event =>
    obtain ⟨hm, hfile, hframe⟩ := recordEvent_files h.mounted event
    refine ⟨hm, ⟨header, hframe.trans htelemetry⟩, .inr ?_⟩
    simp only [Log.step, hfile, rtake_since]
    rcases h.events with ⟨hnone, hempty⟩ | hsome
    · have hcap : atCap log.storage.files .eventsNdjson kEventsMaximumBytes = false := by
        simp [atCap, Files.size, hnone, kEventsMaximumBytes]
      rw [hcap, hnone, hempty, if_neg Bool.false_ne_true, if_neg Bool.false_ne_true, List.rtake_nil, eventsFile_concat]
      rfl
    · rw [hsome, Option.getD_some]
      split
      · rw [← List.nil_append [event], eventsFile_concat]
        rfl
      · rw [eventsFile_concat]
  | acknowledge itemCount io =>
    obtain ⟨hm, hother⟩ := acknowledge_frame log.storage itemCount io
    refine ⟨hm.trans h.mounted, ⟨header, ?_⟩, ?_⟩
    · exact (hother _ (by decide) (by decide)).trans htelemetry
    · rw [Log.step, hother _ (by decide) (by decide)]
      exact h.events

theorem stored_run (ops : List Op) : (run Log.step start ops).Stored :=
  run_inv (I := Log.Stored) (C := fun _ _ => True) (fun _ op h _ => stored_step h op) stored_start
    (along_true (fun _ _ => trivial) _ ops)

/-! ## What the readers list -/

theorem rtake_rtake {α : Type*} (xs : List α) (a b : Nat) : (xs.rtake a).rtake b = xs.rtake (min a b) := by
  simp only [List.rtake, List.length_drop, List.drop_drop]
  congr 1
  omega

theorem rtake_eq_of_length_le {α : Type*} {xs : List α} {n : Nat} (h : xs.length ≤ n) : xs.rtake n = xs := by
  rw [List.rtake, show xs.length - n = 0 by omega, List.drop_zero]

theorem intercalate_longer {x : Bytes} (hx : x ≠ []) (xs : List Bytes) :
    ((ascii ",").intercalate xs).length < ((ascii ",").intercalate (x :: xs)).length := by
  have hpos := List.length_pos_of_ne_nil hx
  cases xs with
  | nil => simpa using hpos
  | cons y ys =>
    rw [List.intercalate_cons_cons, List.length_append, List.length_append]
    omega

theorem intercalate_append_le {xs : List Bytes} (hxs : ∀ x ∈ xs, x ≠ []) (ys : List Bytes) :
    ((ascii ",").intercalate ys).length + xs.length ≤ ((ascii ",").intercalate (xs ++ ys)).length := by
  induction xs with
  | nil => simp
  | cons x xs ih =>
    have hlonger := intercalate_longer (hxs x List.mem_cons_self) (xs ++ ys)
    have hrest := ih fun z hz => hxs z (List.mem_cons_of_mem _ hz)
    rw [List.cons_append, List.length_cons]
    omega

/-- Arrays of the last elements of one list are equal only when they list as many. -/
theorem jsonArray_rtake_iff {xs : List Bytes} (hxs : ∀ x ∈ xs, x ≠ []) {a b : Nat} (hab : a ≤ b) :
    jsonArray (xs.rtake a) = jsonArray (xs.rtake b) ↔ min b xs.length ≤ a := by
  constructor
  · intro h
    have hsplit : xs.rtake b = (xs.rtake b).take ((xs.rtake b).length - a) ++ xs.rtake a := by
      have hrtake : xs.rtake a = (xs.rtake b).rtake a := by rw [rtake_rtake, Nat.min_eq_right hab]
      rw [hrtake]
      exact (List.take_append_drop _ _).symm
    have hlen := congrArg List.length h
    have hnonempty : ∀ x ∈ (xs.rtake b).take ((xs.rtake b).length - a), x ≠ [] :=
      fun x hx => hxs x (List.mem_of_mem_drop (List.mem_of_mem_take hx))
    have hle := intercalate_append_le hnonempty (xs.rtake a)
    rw [← hsplit, List.length_take] at hle
    simp only [jsonArray, List.length_append] at hlen
    have hcount : (xs.rtake b).length = min b xs.length := by
      rw [List.rtake, List.length_drop]
      omega
    omega
  · intro h
    rcases Nat.le_total b xs.length with hb | hb
    · rw [show a = b by omega]
    · rw [rtake_eq_of_length_le (by omega : xs.length ≤ a), rtake_eq_of_length_le hb]

/-- A reader that sees the last `n` records lists the last `limit` of all of them
exactly when that many are among the `n`. -/
theorem lists_last_iff {α : Type*} {f : α → Bytes} (hf : ∀ x, f x ≠ []) (xs : List α) (n limit : Nat) :
    jsonArray (((xs.rtake n).rtake limit).map f) = jsonArray ((xs.rtake limit).map f) ↔ min limit xs.length ≤ n := by
  have hnonempty : ∀ y ∈ xs.map f, y ≠ [] := by
    intro y hy
    obtain ⟨x, -, rfl⟩ := List.mem_map.1 hy
    exact hf x
  rw [rtake_rtake, map_rtake, map_rtake, jsonArray_rtake_iff hnonempty (Nat.min_le_right n limit), List.length_map]
  omega

theorem Log.Stored.historyJson_eq {log : Log} (h : log.Stored) (limit : Nat) :
    log.storage.historyJson limit =
      jsonArray (((log.samples.rtake log.samplesSince).rtake limit).map fun s => rowObject s.texts) := by
  obtain ⟨header, hfile⟩ := h.telemetry
  exact historyJson_telemetryFile h.mounted hfile limit

theorem Log.Stored.eventsJson_eq {log : Log} (h : log.Stored) (limit : Nat) :
    log.storage.eventsJson limit = jsonArray (((log.events.rtake log.eventsSince).rtake limit).map Event.line) := by
  rcases h.events with ⟨hnone, hempty⟩ | hsome
  · rw [hempty, List.rtake_nil, List.rtake_nil, eventsJson, tailLinesJson, h.mounted, hnone]
    rfl
  · exact eventsJson_eventsFile h.mounted hsome limit

theorem rowObject_ne_nil (fields : List Bytes) : rowObject fields ≠ [] := by
  intro h
  exact absurd (List.append_eq_nil_iff.1 h).2 (by decide)

/-- In every run, at every point: the history lists the last samples, and the
events the last events, exactly while the number asked for does not reach behind
the last rotation of their file. -/
theorem readers_list_last_iff (ops : List Op) (limit : Nat) :
    ((run Log.step start ops).storage.historyJson limit =
        jsonArray (((run Log.step start ops).samples.rtake limit).map fun s => rowObject s.texts) ↔
      min limit (run Log.step start ops).samples.length ≤ (run Log.step start ops).samplesSince) ∧
    ((run Log.step start ops).storage.eventsJson limit =
        jsonArray (((run Log.step start ops).events.rtake limit).map Event.line) ↔
      min limit (run Log.step start ops).events.length ≤ (run Log.step start ops).eventsSince) := by
  have hstored := stored_run ops
  rw [hstored.historyJson_eq, hstored.eventsJson_eq]
  constructor
  · exact lists_last_iff (f := fun s : Sample => rowObject s.texts) (fun s => rowObject_ne_nil s.texts) _ _ _
  · exact lists_last_iff (f := Event.line) (fun event => (strip_line event).1) _ _ _

/-- The same event over and over, until the file has reached its cap. -/
theorem same_event_run (event : Event) {n : Nat}
    (h : n * (event.line.length + 2) < kEventsMaximumBytes + (event.line.length + 2)) :
    (run Log.step start (List.replicate n (.recordEvent event))).eventsSince = n ∧
      (run Log.step start (List.replicate n (.recordEvent event))).events = List.replicate n event ∧
      (run Log.step start (List.replicate n (.recordEvent event))).storage.files.size .eventsNdjson =
        n * (event.line.length + 2) := by
  induction n with
  | zero =>
    have hnone : start.storage.files .eventsNdjson = none := rfl
    refine ⟨rfl, rfl, ?_⟩
    rw [List.replicate_zero, run, List.foldl_nil, Files.size, hnone, Nat.zero_mul]
    rfl
  | succ n ih =>
    rw [Nat.succ_mul] at h
    obtain ⟨hsince, hevents, hsize⟩ := ih (by omega)
    have hcap : atCap (run Log.step start (List.replicate n (.recordEvent event))).storage.files .eventsNdjson
        kEventsMaximumBytes = false := by
      rw [atCap, hsize]
      simp only [Bool.not_eq_false', decide_eq_true_eq]
      omega
    have hfile := (recordEvent_files (stored_run (List.replicate n (.recordEvent event))).mounted event).2.1
    rw [List.replicate_succ', run_concat]
    refine ⟨?_, ?_, ?_⟩
    · rw [Log.step, since, hcap, hsince, if_neg Bool.false_ne_true]
    · rw [Log.step, hevents, ← List.replicate_succ']
    · have hlen : (println event.line).length = event.line.length + 2 := by
        rw [println, List.length_append]
        rfl
      rw [hcap, if_neg Bool.false_ne_true] at hfile
      rw [Log.step, Files.size, hfile, Option.getD_some, List.length_append, hlen, ← Files.size, hsize, Nat.succ_mul]

def gatewayStarted : Event := { name := ascii "gateway_started", data := none, uptime := 0, oneLine := by decide }

/-- The forty-ninth start of the gateway finds its file at the cap, and is the only one listed. -/
theorem rotation_hides_events :
    (run Log.step start (List.replicate 49 (.recordEvent gatewayStarted))).events.length = 49 ∧
      (run Log.step start (List.replicate 49 (.recordEvent gatewayStarted))).storage.eventsJson 16 =
        jsonArray [gatewayStarted.line] ∧
      (run Log.step start (List.replicate 49 (.recordEvent gatewayStarted))).storage.eventsJson 16 ≠
        jsonArray (((run Log.step start (List.replicate 49 (.recordEvent gatewayStarted))).events.rtake 16).map
          Event.line) := by
  have hlen : gatewayStarted.line.length = 41 := by decide
  obtain ⟨hsince, hevents, hsize⟩ := same_event_run gatewayStarted (n := 48) (by rw [hlen]; decide)
  have hcap : atCap (run Log.step start (List.replicate 48 (.recordEvent gatewayStarted))).storage.files .eventsNdjson
      kEventsMaximumBytes = true := by
    rw [atCap, hsize, hlen]
    rfl
  have hlast : (run Log.step start (List.replicate 49 (.recordEvent gatewayStarted))).events =
      List.replicate 48 gatewayStarted ++ [gatewayStarted] := by
    rw [List.replicate_succ', run_concat, Log.step, hevents]
  have hone : (run Log.step start (List.replicate 49 (.recordEvent gatewayStarted))).eventsSince = 1 := by
    rw [List.replicate_succ', run_concat, Log.step, since, hcap, if_pos rfl]
  refine ⟨by rw [hlast]; rfl, ?_, ?_⟩
  · rw [(stored_run _).eventsJson_eq, hone, hlast, List.rtake_concat_succ, List.rtake_zero, List.nil_append]
    rfl
  · rw [(stored_run _).eventsJson_eq, hone, hlast]
    intro h
    have hfew := (lists_last_iff (f := Event.line) (fun event => (strip_line event).1) _ _ _).1 h
    exact absurd hfew (by decide)

end LiTimeGateway.HistoryRuns
