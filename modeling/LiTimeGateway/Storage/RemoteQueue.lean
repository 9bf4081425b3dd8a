import LiTimeGateway.RemoteSync
import LiTimeGateway.Storage.AckTheorems
import LiTimeGateway.Lib.Outbox
import LiTimeGateway.Lib.Runs
/-!
# The remote queue over whole runs

Samples are appended by `recordTelemetry` and leave by `publishNextBatch`, or
when `rotate` renames a full queue away. `QueueFile` is what the file looks like
through all of it: terminated lines, each carrying one item. The carriage
returns an acknowledgement adds to the lines it keeps do not show in the items,
so the file refines `Lib.Outbox`.
-/

namespace LiTimeGateway.RemoteQueue

open Lib Lib.Lines StorageManager RemoteSync

/-! ## Queue files -/

/-- A line that can stand in the queue: one item, no terminator in it. -/
def ItemLine (line : Bytes) : Prop := ch '\n' ∉ line ∧ ¬ BlankLine line

/-- The content is these lines, each with its newline. -/
structure QueueFile (content : Bytes) (ls : List Bytes) : Prop where
  content_eq : content = ls.flatMap (· ++ [ch '\n'])
  line_ok : ∀ l ∈ ls, ItemLine l

theorem queueFile_nil : QueueFile [] [] := ⟨rfl, by simp⟩

theorem itemLine_ne_nil {l : Bytes} (h : ItemLine l) : l ≠ [] := by
  rintro rfl
  exact h.2 (strip_nil isspace)

theorem QueueFile.countedLines_eq {content : Bytes} {ls : List Bytes} (h : QueueFile content ls) :
    countedLines content = ls := by
  rw [h.content_eq, countedLines_terminated fun l hl => ⟨itemLine_ne_nil (h.line_ok l hl), (h.line_ok l hl).1⟩]

theorem QueueFile.items_eq {content : Bytes} {ls : List Bytes} (h : QueueFile content ls) :
    contentItems content = ls.map trim := by
  rw [contentItems_eq, h.countedLines_eq, itemsOf, List.filter_eq_self.2]
  · rfl
  · intro t ht
    obtain ⟨l, hl, rfl⟩ := List.mem_map.1 ht
    have hb := (h.line_ok l hl).2
    rw [BlankLine, trim] at hb
    simpa using hb

theorem itemLine_concat_cr {l : Bytes} (h : ItemLine l) : ItemLine (l ++ [ch '\r']) := by
  refine ⟨?_, ?_⟩
  · rw [List.mem_append, not_or]
    exact ⟨h.1, by decide⟩
  · rw [BlankLine, trim, strip_concat isspace (by decide)]
    exact h.2

theorem flatMap_println (ls : List Bytes) :
    ls.flatMap println = (ls.map (· ++ [ch '\r'])).flatMap (· ++ [ch '\n']) := by
  rw [List.flatMap_map]
  exact congrArg (ls.flatMap ·) (funext println_eq)

/-- An appended line joins the file. -/
theorem QueueFile.append {content : Bytes} {ls : List Bytes} (h : QueueFile content ls) {line : Bytes}
    (hl : ItemLine line) : QueueFile (content ++ println line) (ls ++ [line ++ [ch '\r']]) where
  content_eq := by rw [h.content_eq, println_eq]; simp
  line_ok l hm := by
    rcases List.mem_append.1 hm with hm | hm
    · exact h.line_ok l hm
    · rw [List.mem_singleton] at hm
      subst hm
      exact itemLine_concat_cr hl

/-- An acknowledgement keeps the lines behind the batch, a carriage return longer. -/
theorem QueueFile.acknowledge {content : Bytes} {ls : List Bytes} (h : QueueFile content ls) (itemCount : Nat) :
    QueueFile ((keptLines content itemCount).flatMap println) ((ls.drop itemCount).map (· ++ [ch '\r'])) where
  content_eq := by rw [keptLines, h.countedLines_eq, flatMap_println]
  line_ok l hm := by
    obtain ⟨m, hmem, rfl⟩ := List.mem_map.1 hm
    exact itemLine_concat_cr (h.line_ok m (List.mem_of_mem_drop hmem))

/-- The carriage return each kept line gains is trimmed away again. -/
theorem QueueFile.acknowledge_items {content : Bytes} {ls : List Bytes} (h : QueueFile content ls) (itemCount : Nat) :
    contentItems ((keptLines content itemCount).flatMap println) = (contentItems content).drop itemCount := by
  have htrim : trim ∘ (· ++ [ch '\r']) = trim := funext fun l => strip_concat isspace (by decide)
  rw [(h.acknowledge itemCount).items_eq, h.items_eq, List.map_map, htrim, List.map_drop]

theorem itemLine_telemetryJson (data : BatteryData) (uptime : UInt32) (now : Int) :
    ItemLine (telemetryJson data uptime now) := by
  have hp := plain_telemetryJson data uptime now
  refine ⟨hp.newline_not_mem, ?_⟩
  rw [BlankLine, hp.trim_eq]
  exact telemetryJson_ne_nil data uptime now

/-- The queue file, where there is one, is well formed. -/
def QueueOk (files : Files) : Prop := ∃ ls, QueueFile ((files .remoteNdjson).getD []) ls

/-! ## Runs -/

inductive Op where
  | recordTelemetry (data : BatteryData) (clock : SampleClock)
  | publishNextBatch (http : Http)

/-- The storage, and an account of what entered and left its remote queue. -/
structure World where
  storage : StorageManager
  outbox : Outbox.State Bytes

/-- The storage after one operation. -/
def next (s : StorageManager) : Op → StorageManager
  | .recordTelemetry data clock => s.recordTelemetry data clock
  | .publishNextBatch http => (publishNextBatch s http .ok).storage

/-- What one operation does to the queue: a sample taken is appended, after the
whole queue is renamed away if it is at its cap; a batch answered 2xx is
delivered. -/
def effects (s : StorageManager) : Op → List (Outbox.Op Bytes)
  | .recordTelemetry data clock =>
    if s.takesSample data clock then
      (if atCap s.files .remoteNdjson kRemoteQueueMaximumBytes then [.overflow] else []) ++
        [.append (telemetryJson data clock.json clock.now)]
    else []
  | .publishNextBatch http =>
    if (publishNextBatch s http .ok).posted.isSome && http.accepted then
      [.deliver (s.nextRemoteBatch batchSize).2]
    else []

def World.step (w : World) (op : Op) : World where
  storage := next w.storage op
  outbox := (effects w.storage op).foldl Outbox.State.step w.outbox

/-- The account agrees with the file. -/
structure World.Refines (w : World) : Prop where
  queue_ok : QueueOk w.storage.files
  queued : w.outbox.queued = queueItems w.storage.files
  conserved : w.outbox.Conserved

/-! ## One step -/

theorem QueueFile.trim_concat {content : Bytes} {ls : List Bytes} (h : QueueFile content ls) {line : Bytes}
    (hp : Plain line) (hl : ItemLine line) :
    contentItems (content ++ println line) = contentItems content ++ [line] := by
  rw [(h.append hl).items_eq, h.items_eq, List.map_append, List.map_singleton, trim,
    strip_concat isspace (by decide)]
  exact congrArg (ls.map trim ++ [·]) hp.trim_eq

theorem recordTelemetry_queue {s : StorageManager} {data : BatteryData} {clock : SampleClock}
    (h : s.takesSample data clock = true) :
    (s.recordTelemetry data clock).files .remoteNdjson =
      some ((if atCap s.files .remoteNdjson kRemoteQueueMaximumBytes then [] else (s.files .remoteNdjson).getD []) ++
        println (telemetryJson data clock.json clock.now)) := by
  have hframe : appendLine s.files .telemetryCsv (telemetryCsv data clock.csv) kTelemetryMaximumBytes .remoteNdjson =
      s.files .remoteNdjson := appendLine_other (by decide) (by decide)
  have hcap : ∀ f : Files, f .remoteNdjson = s.files .remoteNdjson →
      atCap f .remoteNdjson kRemoteQueueMaximumBytes = atCap s.files .remoteNdjson kRemoteQueueMaximumBytes :=
    fun f hf => by rw [atCap, atCap, Files.size, Files.size, hf]
  simp only [recordTelemetry, h, Bool.not_true, Bool.false_eq_true, if_false]
  rw [appendLine_self, hframe, hcap _ hframe]

theorem recordTelemetry_throttled {s : StorageManager} {data : BatteryData} {clock : SampleClock}
    (h : s.takesSample data clock = false) : s.recordTelemetry data clock = s := by
  simp [recordTelemetry, h]

/-- A sample joins the queue; a full queue starts again with this sample alone. -/
theorem queue_recordTelemetry {s : StorageManager} (hok : QueueOk s.files) {data : BatteryData} {clock : SampleClock}
    (h : s.takesSample data clock = true) :
    QueueOk (s.recordTelemetry data clock).files ∧ queueItems (s.recordTelemetry data clock).files =
      (if atCap s.files .remoteNdjson kRemoteQueueMaximumBytes then [] else queueItems s.files) ++
        [telemetryJson data clock.json clock.now] := by
  have hplain := plain_telemetryJson data clock.json clock.now
  have hline := itemLine_telemetryJson data clock.json clock.now
  have hfile := recordTelemetry_queue h
  obtain ⟨ls, hls⟩ := hok
  unfold QueueOk
  rw [queueItems_of hfile, hfile, Option.getD_some]
  split
  · exact ⟨⟨_, queueFile_nil.append hline⟩, queueFile_nil.trim_concat hplain hline⟩
  · exact ⟨⟨_, hls.append hline⟩, hls.trim_concat hplain hline⟩

theorem refines_recordTelemetry {w : World} (hw : w.Refines) (data : BatteryData) (clock : SampleClock) :
    (w.step (.recordTelemetry data clock)).Refines := by
  cases h : w.storage.takesSample data clock with
  | false =>
    simpa [World.step, next, effects, h, recordTelemetry_throttled h] using hw
  | true =>
    obtain ⟨hok, hitems⟩ := queue_recordTelemetry hw.queue_ok h
    refine ⟨hok, ?_, Outbox.State.conserved_run hw.conserved _⟩
    simp only [World.step, next, effects, h, if_true]
    rw [hitems, ← hw.queued]
    split
    · rfl
    · rfl

/-- What a publish posts, and what it leaves queued. -/
theorem publishNextBatch_spec (s : StorageManager) (http : Http) (io : AckIo) :
    let q := queueItems s.files
    let n := (s.nextRemoteBatch batchSize).2
    (∀ batch, (publishNextBatch s http io).posted = some batch →
      s.mounted = true ∧ n = min 8 q.length ∧ n ≠ 0 ∧ batch = jsonArray (q.take 8)) ∧
    (publishNextBatch s http io).storage =
      if (publishNextBatch s http io).posted.isSome && http.accepted then (s.acknowledgeRemoteBatch n io).1 else s := by
  intro q n
  have hn : n = (s.nextRemoteBatch batchSize).2 := rfl
  by_cases h0 : n = 0
  · simp [publishNextBatch, ← hn, h0]
  have hm : s.mounted = true := mounted_of_count h0
  have hbatch := nextRemoteBatch_eq hm batchSize
  have hcount : n = min 8 q.length := congrArg Prod.snd hbatch
  have htext : (s.nextRemoteBatch batchSize).1 = jsonArray (q.take 8) := congrArg Prod.fst hbatch
  cases hb : http.begin with
  | false => simp [publishNextBatch, ← hn, h0, hb]
  | true =>
    have hpost : (publishNextBatch s http io).posted = some (jsonArray (q.take 8)) := by
      cases ha : http.accepted <;> simp [publishNextBatch, ← hn, h0, hb, ha, htext]
    constructor
    · intro batch h
      rw [hpost] at h
      exact ⟨hm, hcount, h0, (Option.some.inj h).symm⟩
    rw [hpost]
    cases ha : http.accepted <;> simp [publishNextBatch, ← hn, h0, hb, ha]

theorem refines_publishNextBatch {w : World} (hw : w.Refines) (http : Http) :
    (w.step (.publishNextBatch http)).Refines := by
  obtain ⟨hposted, hstorage⟩ := publishNextBatch_spec w.storage http .ok
  by_cases h : ((publishNextBatch w.storage http .ok).posted.isSome && http.accepted) = true
  · rw [if_pos h] at hstorage
    obtain ⟨batch, hb⟩ := Option.isSome_iff_exists.1 (Bool.and_eq_true_iff.1 h).1
    obtain ⟨hm, hn, hn0, -⟩ := hposted batch hb
    obtain ⟨ls, hls⟩ := hw.queue_ok
    cases hf : w.storage.files .remoteNdjson with
    | none =>
      have h0 : queueItems w.storage.files = [] := by rw [queueItems_of hf]; rfl
      rw [h0] at hn
      exact absurd hn hn0
    | some content =>
      rw [hf, Option.getD_some] at hls
      have hafter := (acknowledge_ok hm hn0 hf).1
      refine ⟨?_, ?_, Outbox.State.conserved_run hw.conserved _⟩
      · unfold QueueOk
        simp only [World.step, next, hstorage, hafter, Option.getD_some]
        exact ⟨_, hls.acknowledge _⟩
      · simp only [World.step, next, effects, h, if_true, hstorage]
        rw [queueItems_of hafter, Option.getD_some, hls.acknowledge_items, List.foldl_cons, List.foldl_nil,
          Outbox.State.step, hw.queued, queueItems_of hf, Option.getD_some]
  · rw [if_neg h] at hstorage
    simpa [World.step, next, effects, h, hstorage] using hw

theorem refines_step {w : World} (hw : w.Refines) (op : Op) : (w.step op).Refines := by
  cases op with
  | recordTelemetry data clock => exact refines_recordTelemetry hw data clock
  | publishNextBatch http => exact refines_publishNextBatch hw http

/-! ## Whole runs -/

/-- What the account says about the file, and how the next call moves both. -/
structure World.Accounted (w : World) : Prop where
  /-- Everything appended was delivered or lost, in order, or is in the file. -/
  conserved : w.outbox.appended = w.outbox.departures.flatMap Outbox.Departure.items ++ queueItems w.storage.files
  suffix : queueItems w.storage.files <:+ w.outbox.appended
  in_order : (w.outbox.departures.flatMap Outbox.Departure.deliveredItems ++ queueItems w.storage.files).Sublist
    w.outbox.appended
  posted : ∀ http batch, (publishNextBatch w.storage http .ok).posted = some batch →
    batch = jsonArray ((queueItems w.storage.files).take (min 8 (queueItems w.storage.files).length))
  rejected : ∀ http, http.accepted = false →
    queueItems (publishNextBatch w.storage http .ok).storage.files = queueItems w.storage.files ∧
      (w.step (.publishNextBatch http)).outbox = w.outbox
  accepted : ∀ http batch, http.accepted = true → (publishNextBatch w.storage http .ok).posted = some batch →
    (w.step (.publishNextBatch http)).outbox.departures = w.outbox.departures ++
      [.delivered ((queueItems w.storage.files).take (min 8 (queueItems w.storage.files).length))]
  /-- Items are lost when `rotate` renames the queue away, and at no other moment. -/
  sampled : ∀ data clock, w.storage.takesSample data clock = true →
    (w.step (.recordTelemetry data clock)).outbox.appended =
        w.outbox.appended ++ [telemetryJson data clock.json clock.now] ∧
      (w.step (.recordTelemetry data clock)).outbox.departures = w.outbox.departures ++
        if atCap w.storage.files .remoteNdjson kRemoteQueueMaximumBytes
        then [.lost (queueItems w.storage.files)] else []
  throttled : ∀ data clock, w.storage.takesSample data clock = false →
    w.step (.recordTelemetry data clock) = w

theorem World.Refines.accounted {w : World} (hw : w.Refines) : w.Accounted where
  conserved := by
    rw [← hw.queued]
    exact hw.conserved
  suffix := by
    rw [← hw.queued]
    exact hw.conserved.suffix
  in_order := by
    rw [← hw.queued]
    exact hw.conserved.sublist
  posted http batch h := by
    obtain ⟨-, -, -, rfl⟩ := (publishNextBatch_spec w.storage http .ok).1 batch h
    exact congrArg jsonArray List.take_eq_take_min
  rejected http h := by
    obtain ⟨-, hs⟩ := publishNextBatch_spec w.storage http .ok
    rw [h, Bool.and_false, if_neg Bool.false_ne_true] at hs
    refine ⟨by rw [hs], ?_⟩
    simp [step, effects, h]
  accepted http batch h hp := by
    obtain ⟨-, hn, -, -⟩ := (publishNextBatch_spec w.storage http .ok).1 batch hp
    simp only [step, effects, hp, h, Option.isSome_some, Bool.and_self, if_true, List.foldl_cons, List.foldl_nil,
      Outbox.State.step]
    rw [hn, hw.queued]
  sampled data clock h := by
    simp only [step, effects, h, if_true]
    split
    · exact ⟨rfl, by simp [Outbox.State.step, hw.queued]⟩
    · exact ⟨rfl, (List.append_nil _).symm⟩
  throttled data clock h := by
    simp [step, next, effects, h, recordTelemetry_throttled h]

/-- From a storage without a queue file, whatever is sampled and published and
however the POSTs are answered, every state of the run is accounted for. -/
theorem queue_conserved (s : StorageManager) (h : s.files .remoteNdjson = none) (ops : List Op) :
    Runs.Throughout World.step World.Accounted ⟨s, {}⟩ ops := by
  have hstart : World.Refines ⟨s, {}⟩ :=
    { queue_ok := ⟨[], by rw [h]; exact queueFile_nil⟩
      queued := by rw [queueItems_of h]; rfl
      conserved := Outbox.State.conserved_empty }
  have hstep : ∀ w op, World.Refines w → True → World.Refines (w.step op) := fun _ op hw _ => refines_step hw op
  exact Runs.throughout_of_along hstep (fun _ hw => hw.accounted) hstart (Runs.along_true (fun _ _ => trivial) _ ops)

/-- A mounted storage that has no queue yet takes a sample and publishes it. -/
theorem queue_conserved_fresh :
    Runs.Throughout World.step World.Accounted ⟨{ mounted := true }, {}⟩
      [.recordTelemetry { valid := true } ⟨60000, 60000, 60000, 60000, 0⟩, .publishNextBatch ⟨true, 200⟩] :=
  queue_conserved { mounted := true } rfl _

end LiTimeGateway.RemoteQueue
