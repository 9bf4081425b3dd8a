import LiTimeGateway.Storage.History
import LiTimeGateway.Storage.RemoteQueue
/-!
# What the endpoint reads

A recorded sample is queued as one line, and a batch is posted as the lines
between brackets. A reader of JSON takes every batch for an array of samples,
and what it has accepted, batch by batch, for samples that were recorded, in
their order and none twice.
-/

namespace LiTimeGateway.RemoteQueue

open Lib Lib.Json StorageManager RemoteSync

/-! ## One sample -/

/-- What `recordTelemetry` is called with, and the clock reads of its line. -/
structure Sample where
  data : BatteryData
  uptime : UInt32
  now : Int

namespace Sample

def line (x : Sample) : Bytes := telemetryJson x.data x.uptime x.now

/-- The members of the line, each as it is written and as it is read. -/
def members (x : Sample) : List Member :=
  [⟨ascii "uptime_ms", some (.number (decimal x.uptime.toNat)), decimal x.uptime.toNat⟩,
   ⟨ascii "timestamp", some (timestampValue x.now), timestampText x.now⟩,
   ⟨ascii "voltage", some (.number (floatText x.data.voltage 2)), floatText x.data.voltage 2⟩,
   ⟨ascii "current", some (.number (floatText x.data.current 2)), floatText x.data.current 2⟩,
   ⟨ascii "soc", some (.number (decimal x.data.soc.toNat)), decimal x.data.soc.toNat⟩,
   ⟨ascii "power", some (.number (floatText x.data.power 1)), floatText x.data.power 1⟩,
   ⟨ascii "cell_temp", some (.number (floatText x.data.cellTemp 1)), floatText x.data.cellTemp 1⟩,
   ⟨ascii "mosfet_temp", some (.number (floatText x.data.mosfetTemp 1)), floatText x.data.mosfetTemp 1⟩,
   ⟨ascii "cell_delta_mv", some (.number (floatText x.data.cellDeltaMv 1)), floatText x.data.cellDeltaMv 1⟩]

/-- What a reader makes of the line. -/
def value (x : Sample) : Value :=
  .object [(ascii "uptime_ms", .number (decimal x.uptime.toNat)), (ascii "timestamp", timestampValue x.now),
    (ascii "voltage", .number (floatText x.data.voltage 2)), (ascii "current", .number (floatText x.data.current 2)),
    (ascii "soc", .number (decimal x.data.soc.toNat)), (ascii "power", .number (floatText x.data.power 1)),
    (ascii "cell_temp", .number (floatText x.data.cellTemp 1)),
    (ascii "mosfet_temp", .number (floatText x.data.mosfetTemp 1)),
    (ascii "cell_delta_mv", .number (floatText x.data.cellDeltaMv 1))]

theorem line_eq (x : Sample) : x.line = Member.objectOf x.members := by
  delta line telemetryJson
  simp only [csvValue, members, Member.objectOf, objectText, memberText, quoted, List.map_cons,
    List.map_nil, List.intercalate_cons_cons, List.intercalate_singleton, List.append_assoc, List.cons_append,
    List.nil_append]
  rfl

theorem written_members (x : Sample) : ∀ m ∈ x.members, m.Written := by
  have hfloat : ∀ {key : Bytes} (value : ℚ) {decimals : Nat}, Verbatim key → 0 < decimals →
      (Member.mk key (some (.number (floatText value decimals))) (floatText value decimals)).Written :=
    fun value _ hkey h => Member.written_mk hkey (scans_number (isNumber_floatText value h))
  simp only [members, List.forall_mem_cons]
  refine ⟨Member.written_mk (by decide) (scans_decimal _), Member.written_mk (by decide) (scans_timestampText _),
    hfloat _ (by decide) (by decide), hfloat _ (by decide) (by decide), Member.written_mk (by decide) (scans_decimal _),
    hfloat _ (by decide) (by decide), hfloat _ (by decide) (by decide), hfloat _ (by decide) (by decide),
    hfloat _ (by decide) (by decide), by simp⟩

theorem scans_line (x : Sample) : Scans (some x.value) x.line := by
  rw [line_eq]
  exact scans_object x.written_members

theorem solid_line (x : Sample) : Solid x.line := by
  rw [line_eq]
  exact solid_object _

end Sample

/-- A batch reads as the array of its samples. -/
theorem parse_batch (xs : List Sample) : parse (jsonArray (xs.map Sample.line)) = some (.array (xs.map Sample.value)) := by
  have hitems : ∀ i ∈ xs.map fun x => (some x.value, x.line), Scans i.1 i.2 ∧ Solid i.2 := by
    intro i hi
    obtain ⟨x, -, rfl⟩ := List.mem_map.1 hi
    exact ⟨x.scans_line, x.solid_line⟩
  have hparse := parse_jsonArray (fun i hi => (hitems i hi).1) fun i hi => (hitems i (List.mem_of_mem_head? hi)).2
  have hall : allSome (xs.map fun x => some x.value) = some (xs.map Sample.value) := by
    rw [allSome_eq_some, List.map_map]
    rfl
  simpa [List.map_map, Function.comp_def, hall] using hparse

/-! ## Runs -/

/-- A body that was posted, and whether it was answered 2xx. -/
structure Post where
  body : Bytes
  accepted : Bool

/-- The storage, an account of its samples, and what the endpoint was sent. -/
structure Uplink where
  storage : StorageManager
  outbox : Outbox.State Sample := {}
  posts : List Post := []

/-- The sample an operation records, if it does. -/
def sampleOf (s : StorageManager) : Op → List Sample
  | .recordTelemetry data clock => if s.takesSample data clock then [⟨data, clock.json, clock.now⟩] else []
  | .publishNextBatch _ => []

/-- `effects`, with the samples in place of their lines. -/
def sampleEffects (s : StorageManager) : Op → List (Outbox.Op Sample)
  | .recordTelemetry data clock =>
    if s.takesSample data clock then
      (if atCap s.files .remoteNdjson kRemoteQueueMaximumBytes then [.overflow] else []) ++
        [.append ⟨data, clock.json, clock.now⟩]
    else []
  | .publishNextBatch http =>
    if (publishNextBatch s http .ok).posted.isSome && http.accepted then [.deliver (s.nextRemoteBatch batchSize).2] else []

def postOf (s : StorageManager) : Op → List Post
  | .recordTelemetry _ _ => []
  | .publishNextBatch http => ((publishNextBatch s http .ok).posted.map fun body => ⟨body, http.accepted⟩).toList

namespace Uplink

def step (u : Uplink) (op : Op) : Uplink where
  storage := next u.storage op
  outbox := Runs.run Outbox.State.step u.outbox (sampleEffects u.storage op)
  posts := u.posts ++ postOf u.storage op

/-- The same with lines for samples. -/
def world (u : Uplink) : World := ⟨u.storage, u.outbox.map Sample.line⟩

theorem map_sampleEffects (s : StorageManager) (op : Op) :
    (sampleEffects s op).map (Outbox.Op.map Sample.line) = effects s op := by
  cases op with
  | recordTelemetry data clock =>
    rw [sampleEffects, effects]
    split
    · split <;> rfl
    · rfl
  | publishNextBatch http =>
    rw [sampleEffects, effects]
    split <;> rfl

theorem world_step (u : Uplink) (op : Op) : (u.step op).world = u.world.step op := by
  rw [world, step, Outbox.State.map_run, map_sampleEffects]
  rfl

/-- The samples of the batches that were delivered. -/
def delivered (o : Outbox.State Sample) : List (List Sample) := o.departures.filterMap fun
  | .delivered xs => some xs
  | .lost _ => none

/-- The body is a batch of samples that were recorded one after the other. -/
def Batch (o : Outbox.State Sample) (body : Bytes) : Prop :=
  ∃ xs, xs <:+: o.appended ∧ xs ≠ [] ∧ xs.length ≤ batchSize ∧ body = jsonArray (xs.map Sample.line)

/-- The account agrees with the file and with what was posted. -/
structure Agrees (u : Uplink) : Prop where
  refines : u.world.Refines
  conserved : u.outbox.Conserved
  batches : ∀ post ∈ u.posts, Batch u.outbox post.body
  accepted : (u.posts.filter Post.accepted).map Post.body = (delivered u.outbox).map fun xs => jsonArray (xs.map Sample.line)

theorem Agrees.queueItems {u : Uplink} (h : u.Agrees) : queueItems u.storage.files = u.outbox.queued.map Sample.line :=
  h.refines.queued.symm

theorem batch_mono {o : Outbox.State Sample} {body : Bytes} (h : Batch o body) (ops : List (Outbox.Op Sample)) :
    Batch (Runs.run Outbox.State.step o ops) body := by
  obtain ⟨xs, hinfix, hrest⟩ := h
  exact ⟨xs, hinfix.trans (o.appended_prefix ops).isInfix, hrest⟩

/-- A posted body is the first eight of the queued samples. -/
theorem posted_eq {u : Uplink} {xs : List Sample} (hxs : queueItems u.storage.files = xs.map Sample.line)
    {http : Http} {io : AckIo} {body : Bytes} (hposted : (publishNextBatch u.storage http io).posted = some body) :
    body = jsonArray ((xs.take batchSize).map Sample.line) ∧
      (u.storage.nextRemoteBatch batchSize).2 = min batchSize xs.length ∧ xs.take batchSize ≠ [] := by
  obtain ⟨-, hcount, hne, rfl⟩ := (publishNextBatch_spec u.storage http io).1 body hposted
  rw [hxs] at hcount ⊢
  rw [List.length_map] at hcount
  refine ⟨by rw [List.map_take]; rfl, hcount, fun hnil => hne ?_⟩
  rw [hcount, ← List.length_take]
  exact congrArg List.length hnil

theorem batch_posted {u : Uplink} {xs : List Sample} (hxs : queueItems u.storage.files = xs.map Sample.line)
    (hsuffix : xs <:+ u.outbox.appended) {http : Http} {io : AckIo} {body : Bytes}
    (hposted : (publishNextBatch u.storage http io).posted = some body) : Batch u.outbox body := by
  obtain ⟨rfl, -, hne⟩ := posted_eq hxs hposted
  exact ⟨_, (List.take_prefix _ _).isInfix.trans hsuffix.isInfix, hne, List.length_take_le _ _, rfl⟩

/-- A batch reads as an array of one to eight samples. -/
theorem batch_read {o : Outbox.State Sample} {body : Bytes} (h : Batch o body) :
    ∃ xs, xs <:+: o.appended ∧ xs ≠ [] ∧ xs.length ≤ 8 ∧ parse body = some (.array (xs.map Sample.value)) := by
  obtain ⟨xs, hinfix, hne, hlength, hbody⟩ := h
  exact ⟨xs, hinfix, hne, hlength, by rw [hbody, parse_batch]⟩

theorem delivered_sample (u : Uplink) (data : BatteryData) (clock : SampleClock) :
    delivered (Runs.run Outbox.State.step u.outbox (sampleEffects u.storage (.recordTelemetry data clock))) =
      delivered u.outbox := by
  rw [sampleEffects]
  split
  · split
    · simp [Runs.run, Outbox.State.step, delivered]
    · rfl
  · rfl

theorem agrees_step {u : Uplink} (h : u.Agrees) (op : Op) : (u.step op).Agrees where
  refines := by
    rw [world_step]
    exact refines_step h.refines op
  conserved := Outbox.State.conserved_run h.conserved _
  batches post hpost := by
    rcases List.mem_append.1 hpost with hpost | hpost
    · exact batch_mono (h.batches post hpost) _
    · cases op with
      | recordTelemetry data clock => cases hpost
      | publishNextBatch http =>
        rw [postOf, Option.mem_toList, Option.map_eq_some_iff] at hpost
        obtain ⟨body, hbody, rfl⟩ := hpost
        exact batch_mono (batch_posted h.queueItems h.conserved.suffix hbody) _
  accepted := by
    cases op with
    | recordTelemetry data clock =>
      rw [step, delivered_sample, ← h.accepted, postOf, List.append_nil]
    | publishNextBatch http =>
      rw [step, postOf, sampleEffects, List.filter_append, List.map_append, h.accepted]
      cases hposted : (publishNextBatch u.storage http .ok).posted with
      | none => exact List.append_nil _
      | some body =>
        obtain ⟨rfl, hcount, -⟩ := posted_eq h.queueItems hposted
        cases haccepted : http.accepted with
        | false => exact List.append_nil _
        | true =>
          have hdelivered : delivered (u.outbox.step (.deliver (u.storage.nextRemoteBatch batchSize).2)) =
              delivered u.outbox ++ [u.outbox.queued.take batchSize] := by
            rw [hcount, delivered, Outbox.State.step, List.filterMap_append, ← List.take_eq_take_min]
            rfl
          simp only [Option.isSome_some, Bool.and_self, if_true, Runs.run_cons]
          rw [Runs.run, List.foldl_nil, hdelivered, List.map_append]
          rfl

theorem agrees_run {u : Uplink} (h : u.Agrees) (ops : List Op) : (Runs.run step u ops).Agrees :=
  Runs.run_inv (I := Agrees) (fun _ op hu _ => agrees_step hu op) h (Runs.along_true (fun _ _ => trivial) u ops)

theorem agrees_start {s : StorageManager} (h : s.files .remoteNdjson = none) : Agrees { storage := s } where
  refines :=
    { queue_ok := ⟨[], by rw [world, h]; exact queueFile_nil⟩
      queued := by rw [world, queueItems_of h]; rfl
      conserved := Outbox.State.conserved_empty }
  conserved := Outbox.State.conserved_empty
  batches _ hpost := by cases hpost
  accepted := rfl

/-- What was accepted is a part of what was recorded, in its order. -/
theorem delivered_sublist {o : Outbox.State Sample} (h : o.Conserved) : (delivered o).flatten.Sublist o.appended := by
  have hflatten : (delivered o).flatten = o.departures.flatMap Outbox.Departure.deliveredItems := by
    rw [delivered]
    induction o.departures with
    | nil => rfl
    | cons d ds ih =>
      rw [List.filterMap_cons, List.flatMap_cons]
      cases d with
      | delivered xs => exact congrArg (xs ++ ·) ih
      | lost xs => exact ih
  rw [hflatten]
  exact (List.sublist_append_left _ _).trans h.sublist

theorem Agrees.accepted_read {u : Uplink} (h : u.Agrees) :
    ∃ batches : List (List Sample), batches.flatten.Sublist u.outbox.appended ∧
      (u.posts.filter Post.accepted).map (fun post => parse post.body) =
        batches.map fun xs => some (.array (xs.map Sample.value)) := by
  have hread := congrArg (List.map parse) h.accepted
  rw [List.map_map, List.map_map] at hread
  exact ⟨delivered u.outbox, delivered_sublist h.conserved, by simpa only [Function.comp_def, parse_batch] using hread⟩

/-- From a storage without a queue file, whatever is sampled and published and
however the POSTs are answered: every body that is posted reads as an array of
one to eight samples recorded one after the other, and the bodies that are
accepted read, together, as recorded samples in their order, none twice. -/
theorem posts_read_as_samples (s : StorageManager) (h : s.files .remoteNdjson = none) (ops : List Op) :
    let u := Runs.run step { storage := s } ops
    (∀ post ∈ u.posts, ∃ xs, xs <:+: u.outbox.appended ∧ xs ≠ [] ∧ xs.length ≤ 8 ∧
      parse post.body = some (.array (xs.map Sample.value))) ∧
    ∃ batches : List (List Sample), batches.flatten.Sublist u.outbox.appended ∧
      (u.posts.filter Post.accepted).map (fun post => parse post.body) =
        batches.map fun xs => some (.array (xs.map Sample.value)) := by
  intro u
  have hagrees : u.Agrees := agrees_run (agrees_start h) ops
  exact ⟨fun post hpost => batch_read (hagrees.batches post hpost), hagrees.accepted_read⟩

/-- A mounted storage that has no queue yet records two samples, and the first POST is refused. -/
theorem posts_read_as_samples_fresh :
    let u := Runs.run step { storage := { mounted := true } }
      [.recordTelemetry { valid := true } ⟨60000, 60000, 60000, 60000, 0⟩, .publishNextBatch ⟨true, 500⟩,
        .recordTelemetry { valid := true } ⟨120000, 120000, 120000, 120000, 0⟩, .publishNextBatch ⟨true, 200⟩]
    (∀ post ∈ u.posts, ∃ xs, xs <:+: u.outbox.appended ∧ xs ≠ [] ∧ xs.length ≤ 8 ∧
      parse post.body = some (.array (xs.map Sample.value))) ∧
    ∃ batches : List (List Sample), batches.flatten.Sublist u.outbox.appended ∧
      (u.posts.filter Post.accepted).map (fun post => parse post.body) =
        batches.map fun xs => some (.array (xs.map Sample.value)) :=
  posts_read_as_samples { mounted := true } rfl _

/-! ## Acknowledgements that fail -/

/-- A batch is published, and the calls of its acknowledgement end like this. The
account goes by the answer, and takes what was accepted for gone. -/
def publish (u : Uplink) (http : Http) (io : AckIo) : Uplink where
  storage := (publishNextBatch u.storage http io).storage
  outbox := (u.step (.publishNextBatch http)).outbox
  posts := u.posts ++ ((publishNextBatch u.storage http io).posted.map fun body => ⟨body, http.accepted⟩).toList

theorem publish_ok (u : Uplink) (http : Http) : u.publish http .ok = u.step (.publishNextBatch http) := rfl

/-- The queue holds the end of what was recorded, and every body was a part of it. -/
structure Lined (u : Uplink) : Prop where
  queue_ok : QueueOk u.storage.files
  queued : ∃ xs, xs <:+ u.outbox.appended ∧ queueItems u.storage.files = xs.map Sample.line
  batches : ∀ post ∈ u.posts, Batch u.outbox post.body

theorem lined_start {s : StorageManager} (h : s.files .remoteNdjson = none) : Lined { storage := s } where
  queue_ok := ⟨[], by rw [h]; exact queueFile_nil⟩
  queued := ⟨[], List.suffix_refl [], by rw [queueItems_of h]; rfl⟩
  batches _ hpost := by cases hpost

theorem Lined.congr {u v : Uplink} (h : u.Lined) (hqueue : v.storage.files .remoteNdjson = u.storage.files .remoteNdjson)
    (houtbox : v.outbox = u.outbox) (hposts : v.posts = u.posts) : v.Lined where
  queue_ok := by
    have hok := h.queue_ok
    rwa [QueueOk, ← hqueue] at hok
  queued := by
    rw [houtbox, queueItems, hqueue]
    exact h.queued
  batches := by
    rw [houtbox, hposts]
    exact h.batches

theorem appended_sample (u : Uplink) {data : BatteryData} {clock : SampleClock}
    (h : u.storage.takesSample data clock = true) : (u.step (.recordTelemetry data clock)).outbox.appended =
      u.outbox.appended ++ [⟨data, clock.json, clock.now⟩] := by
  rw [step, sampleEffects, if_pos h]
  split <;> rfl

theorem lined_sample {u : Uplink} (h : u.Lined) (data : BatteryData) (clock : SampleClock) :
    (u.step (.recordTelemetry data clock)).Lined := by
  have hbatches : ∀ post ∈ (u.step (.recordTelemetry data clock)).posts,
      Batch (u.step (.recordTelemetry data clock)).outbox post.body := by
    intro post hpost
    rw [step, postOf, List.append_nil] at hpost
    exact batch_mono (h.batches post hpost) _
  cases htakes : u.storage.takesSample data clock with
  | false =>
    refine h.congr ?_ ?_ (List.append_nil _)
    · rw [step, next, recordTelemetry_throttled htakes]
    · rw [step, sampleEffects, if_neg (by simp [htakes])]
      rfl
  | true =>
    obtain ⟨hok, hitems⟩ := queue_recordTelemetry h.queue_ok htakes
    obtain ⟨xs, ⟨older, holder⟩, hxs⟩ := h.queued
    refine ⟨hok, ?_, hbatches⟩
    rw [appended_sample u htakes, step, next, hitems, hxs]
    split
    · exact ⟨[⟨data, clock.json, clock.now⟩], List.suffix_append _ _, rfl⟩
    · exact ⟨xs ++ [⟨data, clock.json, clock.now⟩], ⟨older, by rw [← List.append_assoc, holder]⟩, by simp [Sample.line]⟩

theorem appended_publish (u : Uplink) (http : Http) :
    (u.step (.publishNextBatch http)).outbox.appended = u.outbox.appended := by
  rw [step, sampleEffects]
  split <;> rfl

/-- A publish leaves the queue's file alone, removes it, or writes back what it kept. -/
theorem publish_queue (u : Uplink) (http : Http) {io : AckIo} (hwhole : io.println = fun _ => none) :
    (u.publish http io).storage.files .remoteNdjson = u.storage.files .remoteNdjson ∨
      (u.publish http io).storage.files .remoteNdjson = none ∨
      ∃ count content, u.storage.files .remoteNdjson = some content ∧
        (u.publish http io).storage.files .remoteNdjson = some ((keptLines content count).flatMap println) := by
  rw [publish]
  dsimp only
  rw [(publishNextBatch_spec u.storage http io).2]
  split
  · exact (acknowledge_whole u.storage _ hwhole).imp_right (Or.imp_right fun hkept => ⟨_, hkept⟩)
  · exact .inl rfl

/-- The lines that an acknowledgement leaves are the last ones of those it finds. -/
theorem queued_publish {u : Uplink} (hok : QueueOk u.storage.files) {xs : List Sample}
    (hxs : queueItems u.storage.files = xs.map Sample.line) (http : Http) {io : AckIo}
    (hwhole : io.println = fun _ => none) :
    QueueOk (u.publish http io).storage.files ∧
      ∃ ys, ys <:+ xs ∧ queueItems (u.publish http io).storage.files = ys.map Sample.line := by
  rcases publish_queue u http hwhole with hsame | hgone | ⟨count, content, hfile, hkept⟩
  · rw [QueueOk, queueItems, hsame]
    exact ⟨hok, xs, List.suffix_refl xs, hxs⟩
  · rw [QueueOk, queueItems_of hgone, hgone]
    exact ⟨⟨[], queueFile_nil⟩, [], List.nil_suffix, rfl⟩
  · obtain ⟨ls, hls⟩ := hok
    rw [hfile, Option.getD_some] at hls
    rw [queueItems_of hfile, Option.getD_some] at hxs
    rw [QueueOk, queueItems_of hkept, hkept, Option.getD_some]
    exact ⟨⟨_, hls.acknowledge count⟩, xs.drop count, List.drop_suffix count xs,
      by rw [hls.acknowledge_items, hxs, List.map_drop]⟩

theorem lined_publish {u : Uplink} (h : u.Lined) (http : Http) {io : AckIo} (hwhole : io.println = fun _ => none) :
    (u.publish http io).Lined := by
  obtain ⟨xs, hsuffix, hxs⟩ := h.queued
  obtain ⟨hok, ys, hys, hitems⟩ := queued_publish h.queue_ok hxs http hwhole
  refine ⟨hok, ⟨ys, ?_, hitems⟩, fun post hpost => ?_⟩
  · rw [publish, appended_publish]
    exact hys.trans hsuffix
  · rcases List.mem_append.1 hpost with hold | hnew
    · exact batch_mono (h.batches post hold) _
    · rw [Option.mem_toList, Option.map_eq_some_iff] at hnew
      obtain ⟨body, hbody, rfl⟩ := hnew
      exact batch_mono (batch_posted hxs hsuffix hbody) _

end Uplink

end LiTimeGateway.RemoteQueue
