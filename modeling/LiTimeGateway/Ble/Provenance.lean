import LiTimeGateway.Ble.BatteryLoop
import LiTimeGateway.Ble.Decoding
/-!
# Which notification a published reading comes from

The client holds what the last long enough notification says (`reads`), and
`syncData` reads it field by field. So every published reading is that of one
notification that arrived before; and all readings of a record are of the same
one in a run whose syncs are `Untorn`: no notification is decoded between two of
their reads. The list of the cells is one reading. The flags are all that a record
can change behind its sync.
-/

namespace LiTimeGateway

open Lib Lib.Runs Decoding

/-! ## What the client holds -/

/-- The data is what it was, or one notification's. -/
theorem reads_cases (data : BMSData) (events : List HostEvent) :
    reads data events = data ∨ ∃ f : Frame, (∃ id, .notify id f.data ∈ events) ∧ reads data events = f.decode := by
  induction events generalizing data with
  | nil => exact .inl rfl
  | cons e events ih =>
    have hlater : ∀ {d : BMSData}, (∃ f : Frame, (∃ id, .notify id f.data ∈ events) ∧ reads d events = f.decode) →
        ∃ f : Frame, (∃ id, .notify id f.data ∈ e :: events) ∧ reads d events = f.decode :=
      fun ⟨f, ⟨id, hf⟩, hd⟩ => ⟨f, ⟨id, List.mem_cons_of_mem e hf⟩, hd⟩
    cases e with
    | onConnect id => exact (ih data).imp_right hlater
    | onDisconnect id => exact (ih data).imp_right hlater
    | notify id bytes =>
      rw [reads]
      rcases ih (parseNotificationData data bytes) with h | h
      · rw [h, parseNotificationData]
        split
        · next hlen => exact .inr ⟨⟨bytes, hlen⟩, ⟨id, List.mem_cons_self⟩, rfl⟩
        · exact .inl rfl
      · exact .inr (hlater h)

namespace LiTimeBLEProvider

/-! ## What the provider publishes -/

/-- The reading of a notification, or of none. -/
def readingOf (source : Option Frame) : BMSData := source.elim {} Frame.decode

/-- The record made of one reading from each of these notifications. -/
def recordOf (sources : Reading → Option Frame) : BatteryData :=
  published { currentData := assembled fun r => readingOf (sources r) } 0

/-- The record is made of these readings; only its flags and its stamp are its own. -/
def MadeOf (p : BatteryData) (sources : Reading → Option Frame) : Prop :=
  (∃ connected simulated valid updatedAt, p = { recordOf sources with connected, simulated, valid, updatedAt }) ∧
    (p.valid = true → (recordOf sources).valid = true)

/-- The step decodes no notification between two reads of a sync. -/
def Untorn (s : LiTimeBLEProvider) (op : Op) : Prop := (s.late op).any HostEvent.accepted = false

instance (s : LiTimeBLEProvider) (op : Op) : Decidable (s.Untorn op) := inferInstanceAs (Decidable (_ = _))

/-- The events delivered in a run. -/
def heard (s : LiTimeBLEProvider) : List Op → List HostEvent
  | [] => []
  | op :: ops => s.delivered op ++ (s.step op).heard ops

theorem heard_append (s : LiTimeBLEProvider) (ops later : List Op) :
    s.heard (ops ++ later) = s.heard ops ++ (run step s ops).heard later := by
  induction ops generalizing s with
  | nil => rfl
  | cons op ops ih => rw [List.cons_append, heard, ih, heard, run_cons, List.append_assoc]

/-- Among these events, if it is a notification at all. -/
def Heard (events : List HostEvent) (source : Option Frame) : Prop := ∀ f ∈ source, ∃ id, .notify id f.data ∈ events

theorem Heard.mono {es fs : List HostEvent} {source : Option Frame} (h : Heard es source) (hsub : es ⊆ fs) :
    Heard fs source := fun f hf => (h f hf).imp fun _ hmem => hsub hmem

theorem Heard.append {es : List HostEvent} {source : Option Frame} (h : Heard es source) (fs : List HostEvent) :
    Heard (es ++ fs) source := h.mono (List.subset_append_left es fs)

/-- What the client holds and what is published after these operations. -/
structure From (s : LiTimeBLEProvider) (past : List Op) : Prop where
  held : ∃ source, Heard (heard {} past) source ∧ s.bms.currentData = readingOf source
  published : ∃ sources, (∀ r, Heard (heard {} past) (sources r)) ∧ MadeOf s.data sources ∧
    (sources .voltage ≠ none → ∀ r, sources r ≠ none) ∧
    (Along step Untorn {} past → ∀ r, sources r = sources .voltage)

/-! ## One operation -/

/-- The reading after some events: a new one only if a notification among them is decoded. -/
theorem reads_source {before : List HostEvent} {source : Option Frame} (h : Heard before source)
    (events : List HostEvent) : ∃ later, Heard (before ++ events) later ∧
      reads (readingOf source) events = readingOf later ∧ (source ≠ none → later ≠ none) ∧
      (events.any HostEvent.accepted = false → later = source) := by
  cases hquiet : events.any HostEvent.accepted with
  | false => exact ⟨source, h.append events, reads_quiet hquiet _, id, fun _ => rfl⟩
  | true =>
    rcases reads_cases (readingOf source) events with hsame | ⟨f, ⟨id, hf⟩, hread⟩
    · exact ⟨source, h.append events, hsame, fun hne => hne, nofun⟩
    · refine ⟨some f, ?_, hread, fun _ => Option.some_ne_none f, nofun⟩
      rintro g ⟨⟩
      exact ⟨id, List.mem_append_right before hf⟩

/-- Flags that are cleared leave the rest of the record alone. -/
theorem MadeOf.clear {p : BatteryData} {sources : Reading → Option Frame} (h : MadeOf p sources)
    (connected simulated : Bool) {valid : Bool} (hvalid : valid = true → p.valid = true) :
    MadeOf { p with connected, simulated, valid } sources := by
  obtain ⟨⟨_, _, _, updatedAt, hp⟩, hv⟩ := h
  refine ⟨⟨connected, simulated, valid, updatedAt, ?_⟩, fun h => hv (hvalid h)⟩
  rw [hp]

/-- A sync finds one notification at its first read, and at each of the others this
one or one that has come since. -/
theorem Synced.published_from {s t : LiTimeBLEProvider} {early : List HostEvent} {io : SyncIo}
    {bms : LiTimeNimBLEClient} (h : s.Synced t early io bms) {events : List HostEvent} {source : Option Frame}
    (hsource : Heard events source) (hread : s.bms.currentData = readingOf source) :
    ∃ sources, (∀ r, Heard (events ++ (early ++ io.between)) (sources r)) ∧ MadeOf t.data sources ∧
      (sources .voltage ≠ none → ∀ r, sources r ≠ none) ∧
      (io.between.any HostEvent.accepted = false → ∀ r, sources r = sources .voltage) := by
  obtain ⟨first, hfirst, hreadFirst, -, -⟩ := reads_source hsource early
  have hreads : ∀ r, ∃ later, Heard (events ++ early ++ io.behindFirst r) later ∧
      (atRead bms io r).currentData = readingOf later ∧ (first ≠ none → later ≠ none) ∧
      ((io.behindFirst r).any HostEvent.accepted = false → later = first) := by
    intro r
    obtain ⟨later, hlater, hreadLater, hsome, hsame⟩ := reads_source hfirst (io.behindFirst r)
    refine ⟨later, hlater, ?_, hsome, hsame⟩
    rw [(h.reads r).data, reads_append, hread, hreadFirst, hreadLater]
  choose sources hheard hcurrent hsome hsame using hreads
  have hvoltage : sources .voltage = first := hsame .voltage rfl
  have hcopied : copied bms io = assembled fun r => readingOf (sources r) := by
    rw [copied]
    congr 1
    funext r
    exact hcurrent r
  refine ⟨sources, ?_, ?_, ?_, ?_⟩
  · intro r
    refine (hheard r).mono ?_
    rw [← List.append_assoc]
    exact List.append_subset.2 ⟨List.subset_append_left _ _,
      List.subset_append_of_subset_right _ (io.behindFirst_prefix r).subset⟩
  · rw [h.data, hcopied]
    exact ⟨⟨_, _, _, _, rfl⟩, id⟩
  · rw [hvoltage]
    exact fun hne r => hsome r hne
  · intro hquiet r
    rw [hvoltage]
    obtain ⟨rest, hrest⟩ := io.behindFirst_prefix r
    rw [← hrest, List.any_append, Bool.or_eq_false_iff] at hquiet
    exact hsame r hquiet.1

theorem from_step {past : List Op} (h : (run step {} past).From past) (op : Op) :
    ((run step {} past).step op).From (past ++ [op]) := by
  have hheard : heard {} (past ++ [op]) = heard {} past ++ (run step {} past).delivered op := by
    rw [heard_append, heard, heard, List.append_nil]
  have huntorn : Along step Untorn {} (past ++ [op]) → Along step Untorn {} past ∧ (run step {} past).Untorn op :=
    fun halong => ⟨(along_append.1 halong).1, (along_append.1 halong).2.1⟩
  generalize run step {} past = s at h hheard huntorn ⊢
  obtain ⟨source, hsource, hread⟩ := h.held
  obtain ⟨later, hlater, hreadLater, -, -⟩ := reads_source hsource (s.delivered op)
  refine ⟨⟨later, hheard ▸ hlater, by rw [(s.decoded_step op).data, hread, hreadLater]⟩, ?_⟩
  rw [hheard]
  cases hsync : s.runsSync op with
  | none =>
    obtain ⟨connected, simulated, valid, hdata, hvalid⟩ := (step_kept hsync).data
    obtain ⟨sources, hsources, hmade, hsome, hsame⟩ := h.published
    rw [hdata]
    exact ⟨sources, fun r => (hsources r).append _, hmade.clear connected simulated hvalid, hsome,
      fun halong => hsame (huntorn halong).1⟩
  | some io =>
    obtain ⟨bms, hsynced⟩ := step_synced hsync
    obtain ⟨sources, hsources, hmade, hsome, hsame⟩ := hsynced.published_from hsource hread
    have hlate : s.late op = io.between := by rw [late, hsync, Option.elim_some]
    rw [delivered, hlate]
    refine ⟨sources, hsources, hmade, hsome, fun halong => hsame ?_⟩
    have hquiet := (huntorn halong).2
    rwa [Untorn, hlate] at hquiet

theorem from_start : From {} [] := by
  have hnone : Heard [] none := nofun
  refine ⟨⟨none, hnone, rfl⟩, fun _ => none, fun _ => hnone, ⟨⟨false, false, false, 0, ?_⟩, nofun⟩, fun h => absurd rfl h,
    fun _ _ => rfl⟩
  simp [recordOf, readingOf, published, assembled]

/-! ## Runs -/

theorem from_run (ops : List Op) : (run step {} ops).From ops :=
  run_history (I := From) (C := fun _ _ => True) from_start (fun _ op hpast _ => from_step hpast op)
    (along_true (fun _ _ => trivial) _ ops)

/-- The readings of this notification, under the flags its sync has set. -/
def ReadingOf (n : Bytes) (p : BatteryData) : Prop :=
  ∃ connected simulated valid, PublishedFrom n { p with connected, simulated, valid } ∧ (p.valid = true → valid = true)

theorem MadeOf.readingOf {p : BatteryData} {f : Frame} (h : MadeOf p fun _ => some f) : ReadingOf f.data p := by
  obtain ⟨⟨_, _, _, updatedAt, hp⟩, hv⟩ := h
  refine ⟨(recordOf fun _ => some f).connected, false, (recordOf fun _ => some f).valid, ?_, hv⟩
  rw [hp]
  exact @publishedFrom_frame f { currentData := f.decode } rfl updatedAt

/-- Before anything has been read nothing is valid. -/
theorem MadeOf.voltage_ne {p : BatteryData} {sources : Reading → Option Frame} (h : MadeOf p sources)
    (hvalid : p.valid = true) : sources .voltage ≠ none := by
  have hrecord := h.2 hvalid
  intro hnone
  simp [recordOf, published, assembled, LiTimeBLEProvider.readingOf, hnone] at hrecord

/-- Where a record comes from after these operations: each reading is that of a
notification, or of none where none has been read yet; and where no sync is torn
they are all of one. -/
structure ReadFrom (ops : List Op) (p : BatteryData) : Prop where
  each : ∃ sources, (∀ r, Heard (heard {} ops) (sources r)) ∧ MadeOf p sources ∧
    (p.valid = true → ∀ r, sources r ≠ none)
  whole : Along step Untorn {} ops → MadeOf p (fun _ => none) ∨
    ∃ n, (∃ id, .notify id n ∈ heard {} ops) ∧ 104 ≤ n.length ∧ ReadingOf n p

theorem From.readFrom {s : LiTimeBLEProvider} {ops : List Op} (h : s.From ops) : ReadFrom ops s.data := by
  obtain ⟨sources, hheard, hmade, hsome, hsame⟩ := h.published
  refine ⟨⟨sources, hheard, hmade, fun hvalid => hsome (hmade.voltage_ne hvalid)⟩, fun hwhole => ?_⟩
  rw [funext (hsame hwhole)] at hmade
  cases hfirst : sources .voltage with
  | none => exact .inl (hfirst ▸ hmade)
  | some f => exact .inr ⟨f.data, hheard .voltage f hfirst, f.length_ge, (hfirst ▸ hmade).readingOf⟩

/-- The readings of a valid record: each is that of a notification, and all are of
one where no sync is torn. -/
structure Notified (ops : List Op) (p : BatteryData) : Prop where
  each : ∃ frames : Reading → Frame, (∀ r, ∃ id, .notify id (frames r).data ∈ heard {} ops) ∧
    MadeOf p fun r => some (frames r)
  whole : Along step Untorn {} ops → ∃ n, (∃ id, .notify id n ∈ heard {} ops) ∧ 104 ≤ n.length ∧ ReadingOf n p

theorem ReadFrom.notified {ops : List Op} {p : BatteryData} (h : ReadFrom ops p) (hvalid : p.valid = true) :
    Notified ops p where
  each := by
    obtain ⟨sources, hheard, hmade, hsome⟩ := h.each
    choose frames hframes using fun r => Option.ne_none_iff_exists'.1 (hsome hvalid r)
    obtain rfl : sources = fun r => some (frames r) := funext hframes
    exact ⟨frames, fun r => hheard r (frames r) rfl, hmade⟩
  whole hwhole := (h.whole hwhole).resolve_left fun hmade => hmade.voltage_ne hvalid rfl

/-- After more operations. -/
theorem Notified.append {ops : List Op} {p : BatteryData} (h : Notified ops p) (later : List Op) :
    Notified (ops ++ later) p := by
  have hsub : heard {} ops ⊆ heard {} (ops ++ later) := by
    rw [heard_append]
    exact List.subset_append_left _ _
  constructor
  · obtain ⟨frames, hheard, hmade⟩ := h.each
    exact ⟨frames, fun r => (hheard r).imp fun _ hmem => hsub hmem, hmade⟩
  · intro hwhole
    obtain ⟨n, ⟨id, hn⟩, hreading⟩ := h.whole (along_append.1 hwhole).1
    exact ⟨n, ⟨id, hsub hn⟩, hreading⟩

/-- A second notification within the sync: the voltage is the first one's, the cells are the other's. -/
example :
    let p := (run step {} [.connect (ascii "c8:47:80:0f:1a:02") { whileSubscribing := [.notify 0 (List.replicate 104 1)] }
      { update := ⟨1001, 1001, [], true⟩, now := 1010
        before := fun r => if r = .current then [.notify 0 discharging] else [] }]).data
    p.voltage = 16843.009 ∧ p.current = -3.5 ∧ p.cellCount = 2 ∧ p.valid = true := by
  decide +kernel

/-! ## In the firmware loop -/

theorem firmware_reading (scanner : Bool) (io : ScanIo) (es : List BatteryLoop.Event) :
    ReadFrom (BatteryLoop.firmwareOps scanner io es) (run BatteryLoop.step (BatteryLoop.setup scanner io) es).battery.data := by
  have hfrom := from_run (BatteryLoop.firmwareOps scanner io es)
  rw [← BatteryLoop.firmware_battery] at hfrom
  exact hfrom.readFrom

end LiTimeBLEProvider

end LiTimeGateway
