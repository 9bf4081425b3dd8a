import LiTimeGateway.Lib.Throttle
import LiTimeGateway.Storage.RemoteQueue
import Mathlib.Data.List.Chain
/-!
# The remote queue while the gateway is online

A `Pass` is one turn of the sketch's `loop`, as far as it concerns the storage
and the remote sync: events, a sample, a publish. Its clock reads are true
times; `millis` shows them modulo 2^32. `Online` says what is asked of a run:
the network answers, and two reads of the same or of consecutive passes are at
most a minute apart.

Samples are a minute apart and attempts less than six minutes, so an attempt
finds at most seven samples, takes them all, and the queue never nears its cap.
-/

namespace LiTimeGateway.OnlineQueue

open Lib Lib.Throttle StorageManager RemoteSync RemoteQueue

/-- One turn of `loop`. A read of the clock that is not made counts as made
together with the one before it. -/
structure Pass where
  /-- What `recordEvent` is called with before the sample. -/
  events : List (Bytes × Option BatteryData × UInt32)
  data : BatteryData
  check : Nat
  stored : Nat
  csv : Nat
  json : Nat
  now : Int
  connected : Bool
  syncCheck : Nat
  syncStored : Nat
  http : Http

def Pass.clock (p : Pass) : SampleClock where
  check := millis p.check
  stored := millis p.stored
  csv := millis p.csv
  json := millis p.json
  now := p.now

def Pass.remote (p : Pass) : RemoteLoopIo where
  connected := p.connected
  check := millis p.syncCheck
  stored := millis p.syncStored
  http := p.http

/-- The line the pass queues, if it takes its sample. -/
def Pass.line (p : Pass) : Bytes := telemetryJson p.data (millis p.json) p.now

/-- A line given to the queue, and when. -/
structure Sample where
  takenAt : Nat
  line : Bytes

def Pass.sample (p : Pass) : Sample := ⟨p.check, p.line⟩

/-- The storage and the remote sync, and an account of the run. -/
structure World where
  storage : StorageManager
  remoteSync : RemoteSync
  /-- The files as the remote sync found them in the last pass. -/
  found : Files := storage.files
  attempted : Bool := false
  last : Option Pass := none
  recorded : List Sample := []
  /-- The bodies answered 2xx. -/
  posted : List Bytes := []

def recordEvents (s : StorageManager) (events : List (Bytes × Option BatteryData × UInt32)) : StorageManager :=
  events.foldl (fun s event => s.recordEvent event.1 event.2.1 event.2.2) s

/-- The storage when the remote sync is reached. -/
def sampled (s : StorageManager) (p : Pass) : StorageManager :=
  (recordEvents s p.events).recordTelemetry p.data p.clock

variable (config : RemoteConfig)

def World.step (w : World) (p : Pass) : World :=
  let storage := sampled w.storage p
  let (remoteSync, published) := w.remoteSync.loop config storage p.remote
  { storage := (published.map Published.storage).getD storage
    remoteSync
    found := storage.files
    attempted := published.isSome
    last := some p
    recorded := w.recorded ++
      if (recordEvents w.storage p.events).takesSample p.data p.clock then [p.sample] else []
    posted := w.posted ++ if p.http.accepted then (published.bind Published.posted).toList else [] }

/-! ## Runs that are online -/

/-- The clock reads of a pass are in order, the network answers, and a sample is at most 400 bytes. -/
structure Pass.Online (p : Pass) : Prop where
  ordered : p.check ≤ p.stored ∧ p.stored ≤ p.csv ∧ p.csv ≤ p.json ∧ p.json ≤ p.syncCheck ∧ p.syncCheck ≤ p.syncStored
  together : p.syncStored ≤ p.check + 60000
  connected : p.connected = true
  begins : p.http.begin = true
  accepted : p.http.accepted = true
  short : p.data.valid = true → p.line.length ≤ 400

/-- `q` comes next after `p`. -/
structure Pass.Follows (p q : Pass) : Prop where
  ordered : p.syncStored ≤ q.check
  together : q.syncStored ≤ p.check + 60000

def Online (passes : List Pass) : Prop := (∀ p ∈ passes, p.Online) ∧ passes.IsChain Pass.Follows

/-- The pass may come next. -/
def World.Next (w : World) (p : Pass) : Prop := p.Online ∧ ∀ last ∈ w.last, last.Follows p

theorem along_next {w : World} {passes : List Pass} (hlast : ∀ last ∈ w.last, ∀ p ∈ passes.head?, last.Follows p)
    (h : Online passes) : Runs.Along (World.step config) World.Next w passes := by
  induction passes generalizing w with
  | nil => trivial
  | cons p passes ih =>
    obtain ⟨honline, hchain⟩ := h
    refine ⟨⟨honline p List.mem_cons_self, fun last hl => hlast last hl p rfl⟩, ih ?_ ⟨?_, hchain.tail⟩⟩
    · intro last hl q hq
      obtain rfl : p = last := Option.some.inj hl
      exact (List.isChain_cons.1 hchain).1 q hq
    · exact fun q hq => honline q (List.mem_cons_of_mem p hq)

/-! ## The queue file -/

/-- The file holds these items, none longer than 402 bytes with its terminator. -/
def Queued (files : Files) (items : List Bytes) : Prop :=
  ∃ ls, QueueFile ((files .remoteNdjson).getD []) ls ∧ ls.map trim = items ∧
    files.size .remoteNdjson ≤ 402 * items.length

theorem Queued.items_eq {files : Files} {items : List Bytes} (h : Queued files items) :
    queueItems files = items := by
  obtain ⟨ls, hls, rfl, -⟩ := h
  exact hls.items_eq

theorem Queued.not_atCap {files : Files} {items : List Bytes} (h : Queued files items) (hlen : items.length ≤ 8) :
    atCap files .remoteNdjson kRemoteQueueMaximumBytes = false := by
  obtain ⟨-, -, -, hsize⟩ := h
  have hlt : files.size .remoteNdjson < kRemoteQueueMaximumBytes := by
    unfold kRemoteQueueMaximumBytes
    omega
  simp [atCap, hlt]

theorem Queued.congr {files files' : Files} {items : List Bytes} (h : Queued files items)
    (hf : files' .remoteNdjson = files .remoteNdjson) : Queued files' items := by
  unfold Queued at *
  rw [Files.size, hf] at *
  exact h

/-- A sample joins the queue, which is not at its cap. -/
theorem Queued.recordTelemetry {s : StorageManager} {items : List Bytes} (h : Queued s.files items)
    (hlen : items.length ≤ 8) {data : BatteryData} {clock : SampleClock} (htakes : s.takesSample data clock = true)
    (hshort : (telemetryJson data clock.json clock.now).length ≤ 400) :
    Queued (s.recordTelemetry data clock).files (items ++ [telemetryJson data clock.json clock.now]) := by
  have hfile := recordTelemetry_queue htakes
  rw [h.not_atCap hlen, if_neg Bool.false_ne_true] at hfile
  obtain ⟨ls, hls, hitems, hsize⟩ := h
  have hline := itemLine_telemetryJson data clock.json clock.now
  have hjoined := hls.trim_concat (plain_telemetryJson data clock.json clock.now) hline
  refine ⟨ls ++ [telemetryJson data clock.json clock.now ++ [ch '\r']], ?_, ?_, ?_⟩
  · rw [hfile, Option.getD_some]
    exact hls.append hline
  · rw [← (hls.append hline).items_eq, hjoined, hls.items_eq, hitems]
  · rw [Files.size, hfile, Option.getD_some, List.length_append, List.length_append, println, List.length_append]
    rw [Files.size] at hsize
    have hcrlf : (ascii "\r\n").length = 2 := rfl
    rw [hcrlf, List.length_singleton]
    omega

/-- A publish that is answered 2xx posts the whole queue, in one array, and empties it. -/
theorem Queued.publish {s : StorageManager} {items : List Bytes} (h : Queued s.files items) (hlen : items.length ≤ 8)
    (hmounted : items ≠ [] → s.mounted = true) {http : Http} (hbegin : http.begin = true)
    (haccepted : http.accepted = true) :
    (publishNextBatch s http .ok).posted = (if items = [] then none else some (jsonArray items)) ∧
      Queued (publishNextBatch s http .ok).storage.files [] := by
  have hq := h.items_eq
  by_cases hnil : items = []
  · -- An empty queue is not posted, and nothing is acknowledged.
    have hcount : (s.nextRemoteBatch batchSize).2 = 0 := by
      have hle := nextRemoteBatch_count_le s batchSize
      rw [hq, hnil] at hle
      exact Nat.le_zero.1 hle
    rw [hnil] at h
    simpa [publishNextBatch, hcount, hnil] using h
  · have hm := hmounted hnil
    have hbatch := nextRemoteBatch_eq hm batchSize
    have hpos : 0 < items.length := List.length_pos_iff.2 hnil
    have hbatched : items.length ≤ batchSize := hlen
    rw [hq, List.take_of_length_le hbatched, Nat.min_eq_right hbatched] at hbatch
    have hposted : (publishNextBatch s http .ok).posted = some (jsonArray items) := by
      simp [publishNextBatch, hbatch, hnil, hbegin, haccepted]
    have hstorage := (publishNextBatch_spec s http .ok).2
    rw [hposted, haccepted, Option.isSome_some, Bool.and_self, if_pos rfl, hbatch] at hstorage
    refine ⟨by rw [hposted, if_neg hnil], ?_⟩
    obtain ⟨ls, hls, hitems, -⟩ := h
    have hlength : ls.length = items.length := by rw [← hitems, List.length_map]
    cases hf : s.files .remoteNdjson with
    | none =>
      rw [hf] at hls
      rw [← hitems, ← hls.items_eq] at hnil
      exact absurd rfl hnil
    | some content =>
      rw [hf, Option.getD_some] at hls
      have hafter := (acknowledge_ok hm hpos.ne' hf).1
      have hkept : keptLines content items.length = [] := by
        rw [keptLines, hls.countedLines_eq, ← hlength, List.drop_length]
      rw [hkept, List.flatMap_nil] at hafter
      rw [hstorage]
      refine ⟨[], ?_, rfl, ?_⟩
      · rw [hafter, Option.getD_some]
        exact queueFile_nil
      · rw [Files.size, hafter]
        exact Nat.le_refl _

/-! ## What a pass leaves alone -/

/-- The generation before the queue: `rotate` is the only one to write it. -/
theorem recordTelemetry_previous {s : StorageManager} {data : BatteryData} {clock : SampleClock}
    (hcap : atCap s.files .remoteNdjson kRemoteQueueMaximumBytes = false) :
    (s.recordTelemetry data clock).files (.previous .remoteNdjson) = s.files (.previous .remoteNdjson) := by
  cases htakes : s.takesSample data clock with
  | false => rw [recordTelemetry_throttled htakes]
  | true =>
    have hframe : appendLine s.files .telemetryCsv (telemetryCsv data clock.csv) kTelemetryMaximumBytes .remoteNdjson =
        s.files .remoteNdjson := appendLine_other (by decide) (by decide)
    simp only [recordTelemetry, htakes, Bool.not_true, Bool.false_eq_true, if_false]
    rw [appendLine, Files.write_other _ _ (by decide), rotate, atCap, Files.size, hframe, ← Files.size, ← atCap, hcap,
      if_neg Bool.false_ne_true]
    exact appendLine_other (by decide) (by decide)

theorem publishNextBatch_previous (s : StorageManager) (http : Http) :
    (publishNextBatch s http .ok).storage.files (.previous .remoteNdjson) = s.files (.previous .remoteNdjson) := by
  rw [(publishNextBatch_spec s http .ok).2]
  split
  · unfold acknowledgeRemoteBatch
    split
    · rfl
    · exact acknowledgeFiles_other s.files _ .ok (by decide) (by decide)
  · rfl

structure SameQueue (s s' : StorageManager) : Prop where
  mounted : s'.mounted = s.mounted
  lastSampleAt : s'.lastSampleAt = s.lastSampleAt
  queue : s'.files .remoteNdjson = s.files .remoteNdjson
  previous : s'.files (.previous .remoteNdjson) = s.files (.previous .remoteNdjson)

theorem recordEvents_same (s : StorageManager) (events : List (Bytes × Option BatteryData × UInt32)) :
    SameQueue s (recordEvents s events) := by
  induction events generalizing s with
  | nil => exact ⟨rfl, rfl, rfl, rfl⟩
  | cons event events ih =>
    have hrest := ih (s.recordEvent event.1 event.2.1 event.2.2)
    have hone : SameQueue s (s.recordEvent event.1 event.2.1 event.2.2) := by
      have hother : ∀ other, other ≠ .eventsNdjson → other ≠ .previous .eventsNdjson →
          appendLine s.files .eventsNdjson (eventLine event.1 event.2.1 event.2.2) kEventsMaximumBytes other =
            s.files other := fun _ h1 h2 => appendLine_other h1 h2
      unfold recordEvent
      split
      · exact ⟨rfl, rfl, rfl, rfl⟩
      · exact ⟨rfl, rfl, hother .remoteNdjson (by decide) (by decide),
          hother (.previous .remoteNdjson) (by decide) (by decide)⟩
    exact ⟨hrest.mounted.trans hone.mounted, hrest.lastSampleAt.trans hone.lastSampleAt, hrest.queue.trans hone.queue,
      hrest.previous.trans hone.previous⟩

/-! ## The clocks -/

/-- At `now` the last attempt is `e` old and the last sample `f`. The samples
waiting are a minute apart, and all but the first were taken since the attempt. -/
structure Clocked (attempt sample : UInt32) (now : Nat) (waiting : List Sample) (e f : Nat) : Prop where
  attempt : Since attempt now e
  sample : Since sample now f
  count : waiting.length * 60000 + f ≤ e + 120000
  young : ∀ x ∈ waiting, now ≤ x.takenAt + e + 60000

theorem Clocked.later {attempt sample : UInt32} {a b : Nat} {waiting : List Sample} {e f : Nat}
    (h : Clocked attempt sample a waiting e f) (hab : a ≤ b) :
    Clocked attempt sample b waiting (e + (b - a)) (f + (b - a)) where
  attempt := h.attempt.later hab
  sample := h.sample.later hab
  count := by
    have := h.count
    omega
  young x hx := by
    have := h.young x hx
    omega

theorem TELEMETRY_SAMPLE_INTERVAL_MS_toNat : TELEMETRY_SAMPLE_INTERVAL_MS.toNat = 60000 := rfl

theorem REMOTE_SYNC_INTERVAL_MS_toNat : REMOTE_SYNC_INTERVAL_MS.toNat = 300000 := rfl

/-- A sample that the throttle lets through. -/
theorem Clocked.sampled {attempt sample : UInt32} {check stored : Nat} {waiting : List Sample} {e f : Nat}
    (h : Clocked attempt sample check waiting e f) (hpass : ¬ millis check - sample < TELEMETRY_SAMPLE_INTERVAL_MS)
    (hle : check ≤ stored) (line : Bytes) :
    Clocked attempt (millis stored) stored (waiting ++ [⟨check, line⟩]) (e + (stored - check)) 0 where
  attempt := h.attempt.later hle
  sample := since_now stored
  count := by
    have hinterval := h.sample.interval_le hpass
    rw [TELEMETRY_SAMPLE_INTERVAL_MS_toNat] at hinterval
    rw [List.length_append, List.length_singleton, Nat.add_mul, Nat.add_zero]
    calc waiting.length * 60000 + 1 * 60000 ≤ waiting.length * 60000 + f := by omega
      _ ≤ e + 120000 := h.count
      _ ≤ e + (stored - check) + 120000 := by omega
  young x hx := by
    rcases List.mem_append.1 hx with hx | hx
    · have := h.young x hx
      omega
    · obtain rfl := List.mem_singleton.1 hx
      dsimp only
      omega

/-- The first sample of a queue, as the remote sync finds it. -/
theorem clocked_first (attempt : UInt32) {check stored now : Nat} (h1 : check ≤ stored) (h2 : stored ≤ now)
    (h3 : now ≤ check + 60000) (line : Bytes) :
    Clocked attempt (millis stored) now [⟨check, line⟩] (millis now - attempt).toNat (now - stored) where
  attempt := since_elapsed attempt now
  sample := by
    have := (since_now stored).later h2
    rwa [Nat.zero_add] at this
  count := by
    rw [List.length_singleton]
    omega
  young x hx := by
    obtain rfl := List.mem_singleton.1 hx
    dsimp only
    omega

/-! ## One pass -/

/-- The last pass left these samples waiting, and the throttles where they let
the next attempt come in time. -/
def Timely (w : World) (waiting : List Sample) : Prop :=
  ∃ p ∈ w.last, p.Online ∧ ∃ e f, e < 300000 + (p.syncStored - p.syncCheck) ∧
    Clocked w.remoteSync.lastAttemptAt w.storage.lastSampleAt p.syncStored waiting e f

/-- The storage as the remote sync finds it. -/
structure Ready (s : StorageManager) (attempt : UInt32) (now : Nat) (found : List Sample) : Prop where
  queued : Queued s.files (found.map Sample.line)
  le_seven : found.length ≤ 7
  mounted : found ≠ [] → s.mounted = true
  clocked : found ≠ [] → ∃ e f, e < UInt32.size ∧ Clocked attempt s.lastSampleAt now found e f

theorem lines_le_eight {samples : List Sample} (h : samples.length ≤ 7) : (samples.map Sample.line).length ≤ 8 := by
  rw [List.length_map]
  exact Nat.le_succ_of_le h

/-- Carried into the next pass, the attempt stays less than six minutes old. -/
theorem Timely.next {w : World} {waiting : List Sample} (h : Timely w waiting) {p : Pass} (hp : w.Next p) {now : Nat}
    (h1 : p.check ≤ now) (h2 : now ≤ p.syncStored) :
    ∃ e f, e + (p.syncStored - now) < 360000 ∧
      Clocked w.remoteSync.lastAttemptAt w.storage.lastSampleAt now waiting e f := by
  obtain ⟨last, hlast, honline, e, f, he, hclocked⟩ := h
  obtain ⟨hordered, htogether⟩ := hp.2 last hlast
  have hreads := honline.ordered
  have hbefore : last.syncStored ≤ now := Nat.le_trans hordered h1
  refine ⟨e + (now - last.syncStored), f + (now - last.syncStored), ?_, hclocked.later hbefore⟩
  omega

theorem Clocked.le_seven {attempt sample : UInt32} {now : Nat} {waiting : List Sample} {e f : Nat}
    (h : Clocked attempt sample now waiting e f) (he : e < 360000) : waiting.length ≤ 7 := by
  have := h.count
  omega

theorem ready_idle {w : World} {waiting : List Sample} (hq : Queued w.storage.files (waiting.map Sample.line))
    (hseven : waiting.length ≤ 7) (hm : waiting ≠ [] → w.storage.mounted = true) (ht : waiting ≠ [] → Timely w waiting)
    {p : Pass} (hp : w.Next p) (h : (recordEvents w.storage p.events).takesSample p.data p.clock = false) :
    Ready (sampled w.storage p) w.remoteSync.lastAttemptAt p.syncCheck waiting := by
  have hsame := recordEvents_same w.storage p.events
  obtain ⟨h1, h2, h3, h4, h5⟩ := hp.1.ordered
  have hcheck : p.check ≤ p.syncCheck := by omega
  rw [sampled, recordTelemetry_throttled h]
  refine ⟨hq.congr hsame.queue, hseven, fun hne => hsame.mounted.trans (hm hne), fun hne => ?_⟩
  obtain ⟨e, f, he, hclocked⟩ := (ht hne).next hp hcheck h5
  have hsize : (360000 : Nat) < UInt32.size := by decide
  rw [hsame.lastSampleAt]
  exact ⟨e, f, by omega, hclocked⟩

theorem takesSample_spec {s : StorageManager} {data : BatteryData} {clock : SampleClock}
    (h : s.takesSample data clock = true) :
    data.valid = true ∧ ¬ clock.check - s.lastSampleAt < TELEMETRY_SAMPLE_INTERVAL_MS ∧
      (s.recordTelemetry data clock).mounted = true ∧ (s.recordTelemetry data clock).lastSampleAt = clock.stored := by
  have hflags := h
  simp only [takesSample, Bool.and_eq_true, Bool.not_eq_true', decide_eq_false_iff_not] at hflags
  refine ⟨hflags.1.2, hflags.2, ?_, ?_⟩
  · simp [recordTelemetry, h, hflags.1.1]
  · simp [recordTelemetry, h]

theorem ready_taken {w : World} {waiting : List Sample} (hq : Queued w.storage.files (waiting.map Sample.line))
    (hseven : waiting.length ≤ 7) (ht : waiting ≠ [] → Timely w waiting) {p : Pass} (hp : w.Next p)
    (h : (recordEvents w.storage p.events).takesSample p.data p.clock = true) :
    Ready (sampled w.storage p) w.remoteSync.lastAttemptAt p.syncCheck (waiting ++ [p.sample]) := by
  have hsame := recordEvents_same w.storage p.events
  obtain ⟨h1, h2, h3, h4, h5⟩ := hp.1.ordered
  have htogether := hp.1.together
  have hsync : p.stored ≤ p.syncCheck := by omega
  obtain ⟨hvalid, hpass, hmounted, hstored⟩ := takesSample_spec h
  have hline : p.sample.line = telemetryJson p.data p.clock.json p.clock.now := rfl
  have hshort := hp.1.short hvalid
  have hqueued : Queued (sampled w.storage p).files ((waiting ++ [p.sample]).map Sample.line) := by
    rw [List.map_append, List.map_singleton, hline]
    exact (hq.congr hsame.queue).recordTelemetry (lines_le_eight hseven) h hshort
  rw [hsame.lastSampleAt] at hpass
  by_cases hne : waiting = []
  · subst hne
    refine ⟨hqueued, by simp, fun _ => hmounted, fun _ => ?_⟩
    rw [sampled, hstored]
    exact ⟨_, _, UInt32.toNat_lt_size _, clocked_first w.remoteSync.lastAttemptAt h1 hsync (by omega) p.line⟩
  · obtain ⟨e, f, he, hclocked⟩ := (ht hne).next hp (Nat.le_refl p.check) (by omega)
    have hnow := (hclocked.sampled hpass h1 p.line).later hsync
    have hbound : e + (p.stored - p.check) + (p.syncCheck - p.stored) < 360000 := by omega
    have hsize : (360000 : Nat) < UInt32.size := by decide
    refine ⟨hqueued, hnow.le_seven hbound, fun _ => hmounted, fun _ => ?_⟩
    rw [sampled, hstored]
    exact ⟨_, _, Nat.lt_trans hbound hsize, hnow⟩

/-- Whether the pass takes its sample or not. -/
theorem ready_next {w : World} {waiting : List Sample} (hq : Queued w.storage.files (waiting.map Sample.line))
    (hseven : waiting.length ≤ 7) (hm : waiting ≠ [] → w.storage.mounted = true) (ht : waiting ≠ [] → Timely w waiting)
    {p : Pass} (hp : w.Next p) :
    Ready (sampled w.storage p) w.remoteSync.lastAttemptAt p.syncCheck
      (waiting ++ if (recordEvents w.storage p.events).takesSample p.data p.clock then [p.sample] else []) := by
  cases h : (recordEvents w.storage p.events).takesSample p.data p.clock with
  | true => exact ready_taken hq hseven ht hp h
  | false =>
    rw [if_neg Bool.false_ne_true, List.append_nil]
    exact ready_idle hq hseven hm ht hp h

/-! ## Whole runs -/

/-- Every sample recorded was posted, once and in order, or is still waiting,
and then for less than six minutes. -/
structure World.Delivered (w : World) (batches : List (List Sample)) (waiting : List Sample) : Prop where
  posted : w.posted = batches.map fun batch => jsonArray (batch.map Sample.line)
  recorded : w.recorded = batches.flatten ++ waiting
  queued : queueItems w.storage.files = waiting.map Sample.line
  young : ∀ x ∈ waiting, ∀ last ∈ w.last, last.syncCheck < x.takenAt + 360000

/-- What holds while the gateway is online; `start` is what the files were. -/
structure World.Kept (start : Files) (w : World) : Prop where
  never_rotated : atCap w.storage.files .remoteNdjson kRemoteQueueMaximumBytes = false ∧
    w.storage.files (.previous .remoteNdjson) = start (.previous .remoteNdjson)
  at_most_eight : (queueItems w.found).length ≤ 8 ∧ (queueItems w.storage.files).length ≤ 8
  emptied : w.attempted = true → queueItems w.storage.files = []
  delivered : ∃ batches waiting, w.Delivered batches waiting

/-- `Kept`, with the queue file and the clocks it rests on. -/
structure Inv (start : Files) (w : World) (batches : List (List Sample)) (waiting : List Sample) : Prop where
  hasStorage : w.remoteSync.hasStorage = true
  previous : w.storage.files (.previous .remoteNdjson) = start (.previous .remoteNdjson)
  found : (queueItems w.found).length ≤ 8
  emptied : w.attempted = true → waiting = []
  posted : w.posted = batches.map fun batch => jsonArray (batch.map Sample.line)
  recorded : w.recorded = batches.flatten ++ waiting
  queued : Queued w.storage.files (waiting.map Sample.line)
  le_seven : waiting.length ≤ 7
  mounted : waiting ≠ [] → w.storage.mounted = true
  timely : waiting ≠ [] → Timely w waiting

theorem Inv.kept {start : Files} {w : World} {batches : List (List Sample)} {waiting : List Sample}
    (h : Inv start w batches waiting) : w.Kept start := by
  have hitems := h.queued.items_eq
  have hlength := lines_le_eight h.le_seven
  refine ⟨⟨h.queued.not_atCap hlength, h.previous⟩, ⟨h.found, hitems ▸ hlength⟩, ?_, batches, waiting, h.posted,
    h.recorded, hitems, ?_⟩
  · intro hattempted
    rw [hitems, h.emptied hattempted]
    rfl
  · intro x hx last hlast
    obtain ⟨p, hp, honline, e, f, he, hclocked⟩ := h.timely (List.ne_nil_of_mem hx)
    obtain rfl : last = p := Option.mem_unique hlast hp
    have hage := hclocked.young x hx
    have hreads := honline.ordered
    omega

/-- The sample of the next pass rotates nothing. -/
theorem Inv.previous_sampled {start : Files} {w : World} {batches : List (List Sample)} {waiting : List Sample}
    (h : Inv start w batches waiting) (p : Pass) :
    (sampled w.storage p).files (.previous .remoteNdjson) = start (.previous .remoteNdjson) := by
  have hsame := recordEvents_same w.storage p.events
  have hqueued := h.queued.congr hsame.queue
  rw [sampled, recordTelemetry_previous (hqueued.not_atCap (lines_le_eight h.le_seven)), hsame.previous, h.previous]

variable {config : RemoteConfig}

theorem inv_held {start : Files} {w : World} {batches : List (List Sample)} {waiting : List Sample}
    (h : Inv start w batches waiting) (henabled : enabled config = true) {p : Pass} (hp : w.Next p)
    (hheld : w.remoteSync.attempts config p.remote = false) :
    ∃ waiting, Inv start (w.step config p) batches waiting := by
  have hready := ready_next h.queued h.le_seven h.mounted h.timely hp
  have hstep : w.step config p =
      { storage := sampled w.storage p
        remoteSync := w.remoteSync
        found := (sampled w.storage p).files
        attempted := false
        last := some p
        recorded := w.recorded ++
          if (recordEvents w.storage p.events).takesSample p.data p.clock then [p.sample] else []
        posted := w.posted } := by
    simp [World.step, loop_held hheld]
  have hthrottled : millis p.syncCheck - w.remoteSync.lastAttemptAt < REMOTE_SYNC_INTERVAL_MS := by
    have hconnected : p.remote.connected = true := hp.1.connected
    have hcheck : p.remote.check = millis p.syncCheck := rfl
    simpa [attempts, henabled, h.hasStorage, hconnected, hcheck] using hheld
  rw [hstep]
  refine ⟨_, h.hasStorage, h.previous_sampled p, ?_, ?_, h.posted, ?_, hready.queued, hready.le_seven,
    hready.mounted, ?_⟩
  · rw [hready.queued.items_eq]
    exact lines_le_eight hready.le_seven
  · exact fun hattempted => absurd hattempted Bool.false_ne_true
  · rw [h.recorded, List.append_assoc]
  · intro hne
    obtain ⟨e, f, he, hclocked⟩ := hready.clocked hne
    have hbound := hclocked.attempt.lt_interval he hthrottled
    rw [REMOTE_SYNC_INTERVAL_MS_toNat] at hbound
    exact ⟨p, rfl, hp.1, _, _, Nat.add_lt_add_right hbound _, hclocked.later hp.1.ordered.2.2.2.2⟩

theorem inv_attempt {start : Files} {w : World} {batches : List (List Sample)} {waiting : List Sample}
    (h : Inv start w batches waiting) {p : Pass} (hp : w.Next p)
    (hattempts : w.remoteSync.attempts config p.remote = true) :
    ∃ batches, Inv start (w.step config p) batches [] := by
  have hready := ready_next h.queued h.le_seven h.mounted h.timely hp
  generalize hfound : (waiting ++
    if (recordEvents w.storage p.events).takesSample p.data p.clock then [p.sample] else []) = found at hready
  have hlength := lines_le_eight hready.le_seven
  have hmounted : found.map Sample.line ≠ [] → (sampled w.storage p).mounted = true := by
    rw [ne_eq, List.map_eq_nil_iff]
    exact hready.mounted
  obtain ⟨hposted, hqueued⟩ := hready.queued.publish hlength hmounted hp.1.begins hp.1.accepted
  have hstep : w.step config p =
      { storage := (publishNextBatch (sampled w.storage p) p.http .ok).storage
        remoteSync := { w.remoteSync with lastAttemptAt := millis p.syncStored }
        found := (sampled w.storage p).files
        attempted := true
        last := some p
        recorded := w.recorded ++
          if (recordEvents w.storage p.events).takesSample p.data p.clock then [p.sample] else []
        posted := w.posted ++ (publishNextBatch (sampled w.storage p) p.http .ok).posted.toList } := by
    simp only [World.step, loop_attempts hattempts, hp.1.accepted, if_true]
    rfl
  have hrecorded : w.recorded ++
      (if (recordEvents w.storage p.events).takesSample p.data p.clock then [p.sample] else []) =
        batches.flatten ++ found := by
    rw [h.recorded, List.append_assoc, hfound]
  rw [hstep, hposted, hrecorded]
  refine ⟨if found = [] then batches else batches ++ [found], h.hasStorage,
    (publishNextBatch_previous _ _).trans (h.previous_sampled p), ?_, fun _ => rfl, ?_, ?_, hqueued,
    Nat.zero_le 7, fun hne => absurd rfl hne, fun hne => absurd rfl hne⟩
  · rw [hready.queued.items_eq]
    exact hlength
  · by_cases hnil : found = []
    · simp [hnil, h.posted]
    · simp [hnil, h.posted]
  · by_cases hnil : found = []
    · simp [hnil]
    · simp [hnil]

theorem inv_step {start : Files} (henabled : enabled config = true) {w : World} {p : Pass}
    (h : ∃ batches waiting, Inv start w batches waiting) (hp : w.Next p) :
    ∃ batches waiting, Inv start (w.step config p) batches waiting := by
  obtain ⟨batches, waiting, h⟩ := h
  cases hattempts : w.remoteSync.attempts config p.remote with
  | false =>
    obtain ⟨waiting', h'⟩ := inv_held h henabled hp hattempts
    exact ⟨batches, waiting', h'⟩
  | true =>
    obtain ⟨batches', h'⟩ := inv_attempt h hp hattempts
    exact ⟨batches', [], h'⟩

/-- However long the run, whatever the throttles held before it and however
often the clock wraps. -/
theorem online_queue_delivered (henabled : enabled config = true) (storage : StorageManager) (remoteSync : RemoteSync)
    (hempty : (storage.files .remoteNdjson).getD [] = []) {passes : List Pass} (honline : Online passes) :
    Runs.Throughout (World.step config) (World.Kept storage.files) { storage, remoteSync := remoteSync.begin }
      passes := by
  have hqueued : Queued storage.files [] := by
    refine ⟨[], ?_, rfl, ?_⟩
    · rw [hempty]
      exact queueFile_nil
    · rw [Files.size, hempty]
      exact Nat.le_refl 0
  have hstart : ∃ batches waiting, Inv storage.files { storage, remoteSync := remoteSync.begin } batches waiting := by
    refine ⟨[], [], rfl, rfl, ?_, fun _ => rfl, rfl, rfl, hqueued, Nat.zero_le 7, fun hne => absurd rfl hne,
      fun hne => absurd rfl hne⟩
    rw [hqueued.items_eq]
    exact Nat.zero_le 8
  have hnext := along_next config (w := { storage, remoteSync := remoteSync.begin }) (fun _ hl => by cases hl) honline
  refine Runs.throughout_of_along (I := fun w => ∃ batches waiting, Inv storage.files w batches waiting)
    (fun w p h hp => inv_step henabled h hp) ?_ hstart hnext
  intro w h
  obtain ⟨batches, waiting, h⟩ := h
  exact h.kept

def passAt (time : Nat) : Pass where
  events := []
  data := { valid := true }
  check := time
  stored := time
  csv := time
  json := time
  now := 0
  connected := true
  syncCheck := time
  syncStored := time
  http := ⟨true, 200⟩

theorem passAt_online {time : Nat} (h : (passAt time).line.length ≤ 400) : (passAt time).Online :=
  ⟨⟨Nat.le_refl _, Nat.le_refl _, Nat.le_refl _, Nat.le_refl _, Nat.le_refl _⟩, Nat.le_add_right _ _, rfl, rfl, rfl,
    fun _ => h⟩

/-- A sample that is published at once, and one that waits while the clock wraps. -/
theorem online_queue_delivered_twice :
    Runs.Throughout
      (World.step { enableRemoteSync := true, endpoint := ascii "https://a", token := ascii "t", caCert := ascii "c" })
      (World.Kept fun _ => none) { storage := { mounted := true }, remoteSync := RemoteSync.begin {} }
      [passAt 4294967290, passAt 4295027290] := by
  refine online_queue_delivered (by decide) { mounted := true } {} rfl ⟨?_, ?_⟩
  · intro p hp
    rw [List.mem_cons, List.mem_singleton] at hp
    rcases hp with rfl | rfl
    · exact passAt_online (by decide +kernel)
    · exact passAt_online (by decide +kernel)
  · rw [List.isChain_pair]
    exact ⟨by decide, by decide⟩

end LiTimeGateway.OnlineQueue
