import LiTimeGateway.Ble.LinkTheorems
import LiTimeGateway.Ble.LiTimeBLEProvider
/-!
# Which connection published data comes from

`connect` clears `data.valid` and then computes it again from what the client
decoded last. No operation clears that, and every link of the client decodes
into it, also one that is still terminating. So a reading of an earlier
connection is published as valid when a successful `connect` takes in no
notification and finds one there, and when such a link delivers late. In runs
where the present link alone delivers (`sameLink`) only the first is left, and
`freshConnect` is exact.
-/

namespace LiTimeGateway

open Lib

namespace LiTimeNimBLEClient

/-- The client object of a `connect` that succeeds: the present one, if it is for
this address, or a new one. -/
def linkFor (s : LiTimeNimBLEClient) (address : Bytes) : Option ClientId :=
  if s.connectedTo address then s.client else some s.created

theorem linkUp_client (s : LiTimeNimBLEClient) : s.linkUp.client = s.client := by
  unfold linkUp
  split <;> rfl

theorem discover_client {s : LiTimeNimBLEClient} {io : ConnectIo} (h : (s.discover io).2 = true) :
    (s.discover io).1.client = s.client := by
  have hsubscribed : (((s.onHosts io.whileDiscovering).find io).onHosts io.whileSubscribing).client = s.client :=
    (onHosts_client _ _).trans (onHosts_client s _)
  unfold discover at h ⊢
  dsimp only at h ⊢
  split at h
  · cases h
  split at h
  · cases h
  split at h
  · cases h
  · next h1 h2 h3 =>
    rw [if_neg h1, if_neg h2, if_neg h3]
    exact hsubscribed

/-- After a `connect` that succeeds. -/
theorem client_of_connects {s : LiTimeNimBLEClient} {address : Bytes} {io : ConnectIo}
    (h : (s.connect address io).2 = true) : (s.connect address io).1.client = s.linkFor address := by
  have hlinking : ((s.replace address).create.onHosts io.whileLinking).client = some s.created := onHosts_client _ _
  unfold connect linkFor at *
  dsimp only at h ⊢
  split at h
  · cases h
  split at h
  · cases h
  split at h
  · next h1 h2 h3 => rw [if_neg h1, if_neg h2, if_pos h3, if_pos h3]
  split at h
  · cases h
  split at h
  · cases h
  · next h1 h2 h3 h4 h5 =>
    rw [if_neg h1, if_neg h2, if_neg h3, if_neg h4, if_neg h5, if_neg h3]
    exact (discover_client h).trans ((linkUp_client _).trans hlinking)

theorem discover_failed {s : LiTimeNimBLEClient} {io : ConnectIo} (h : (s.discover io).2 = false) :
    (s.discover io).1.client = none := by
  unfold discover at h ⊢
  dsimp only at h ⊢
  split at h
  · next h1 => rw [if_pos h1]; rfl
  split at h
  · next h1 h2 => rw [if_neg h1, if_pos h2]; rfl
  split at h
  · next h1 h2 h3 => rw [if_neg h1, if_neg h2, if_pos h3]; rfl
  · cases h

/-- A `connect` that fails has done nothing or holds no client afterwards. -/
theorem connect_failed {s : LiTimeNimBLEClient} {address : Bytes} {io : ConnectIo}
    (h : (s.connect address io).2 = false) :
    (s.connect address io).1 = s ∨ (s.connect address io).1.client = none := by
  unfold connect at h ⊢
  dsimp only at h ⊢
  split at h
  · next h1 => exact .inl (by rw [if_pos h1])
  split at h
  · next h1 h2 => exact .inl (by rw [if_neg h1, if_pos h2])
  split at h
  · cases h
  split at h
  · next h1 h2 h3 h4 => exact .inr (by rw [if_neg h1, if_neg h2, if_neg h3, if_pos h4]; rfl)
  split at h
  · next h1 h2 h3 h4 h5 => exact .inr (by rw [if_neg h1, if_neg h2, if_neg h3, if_neg h4, if_pos h5]; rfl)
  · next h1 h2 h3 h4 h5 =>
    rw [if_neg h1, if_neg h2, if_neg h3, if_neg h4, if_neg h5]
    exact .inr (discover_failed h)

theorem update_client (s : LiTimeNimBLEClient) (io : UpdateIo) : (s.update io).client = s.client := by
  have hwriting : (s.beginWrite.onHosts io.whileWriting).client = s.client := onHosts_client _ _
  unfold update
  dsimp only
  split
  · rfl
  split
  · split
    · exact hwriting
    · exact hwriting
  · rfl

end LiTimeNimBLEClient

namespace LiTimeBLEProvider

/-! ## The law -/

/-- Valid data is of the present connection: its link has delivered a notification
since the most recent successful `connect` began, and every reading was decoded
from one of this link. -/
def Fresh (s : LiTimeBLEProvider) : Prop :=
  s.data.valid = true → ∃ id, s.link = some id ∧ id ∈ s.bms.decoded.drop s.since ∧ ∀ r, s.sources r = some id

/-- A reading `syncData` publishes as valid. -/
def looksValid (data : BMSData) : Bool := 0 < data.totalVoltage && !data.cellVoltages.isEmpty

/-- A successful `connect` finds no valid reading left, or decodes a notification. -/
def freshConnect (s : LiTimeBLEProvider) (op : Op) : Bool :=
  !s.reconnects op || !looksValid s.bms.currentData || (s.delivered op).any HostEvent.accepted

/-- The link that the step leaves present. -/
def linkOf (s : LiTimeBLEProvider) : Op → Option ClientId
  | .connect macAddress _ _ => s.bms.linkFor macAddress
  | _ => s.bms.client

/-- There is a connection, or the step is the `connect` that makes one. -/
def engaged (s : LiTimeBLEProvider) : Op → Bool
  | .connect macAddress io _ => s.bms.connects macAddress io
  | _ => s.bms.client.isSome

/-- The link of the reading that is held when the step's sync begins to read, or at its end. -/
def heldSource (s : LiTimeBLEProvider) (op : Op) : Option ClientId :=
  (sourcesOf (s.early op)).getLast?.or s.bms.source

/-- No earlier link delivers into the connection: the last notification before a
sync is the present link's, and so are those between its reads, which moreover
find one of this link there. -/
def sameLink (s : LiTimeBLEProvider) (op : Op) : Bool :=
  !s.engaged op ||
    (sourcesOf (s.early op)).getLast?.all (fun id => some id = s.linkOf op) &&
      (sourcesOf (s.late op)).all (fun id => some id = s.linkOf op && s.heldSource op = s.linkOf op)

theorem published_valid (bms : LiTimeNimBLEClient) (now : UInt32) :
    (published bms now).valid = looksValid bms.currentData := by
  rw [published, looksValid]
  cases bms.currentData.cellVoltages <;> simp [MAX_BATTERY_CELLS]

/-! ## One step -/

theorem step_link (s : LiTimeBLEProvider) (op : Op) :
    (s.step op).link = if s.reconnects op then s.linkOf op else s.link := by
  cases op with
  | begin => rfl
  | connect macAddress io sync =>
    have hresult := s.bms.connect_result macAddress io
    rw [step, connect, reconnects, linkOf]
    cases hok : s.bms.connects macAddress io with
    | false => simp [hresult, hok]
    | true =>
      have hclient := LiTimeNimBLEClient.client_of_connects (hresult.trans hok)
      simp only [hresult, hok, Bool.not_true, Bool.false_eq_true, if_false, if_true]
      exact hclient
  | update sync =>
    rw [step, update]
    split <;> rfl
  | host event => rfl

theorem atSync_client (bms : LiTimeNimBLEClient) (io : SyncIo) : (atSync bms io).client = bms.client := by
  rw [atSync, LiTimeNimBLEClient.onHosts_client, LiTimeNimBLEClient.update_client, LiTimeNimBLEClient.onHosts_client]

/-- The client held after a step is that of the link the step is about, if it has
not left the client alone. -/
theorem step_client {s : LiTimeBLEProvider} {op : Op} {id : ClientId} (h : (s.step op).bms.client = some id) :
    s.linkOf op = some id ∧ s.engaged op = true ∨ (s.step op).bms = s.bms ∧ s.reconnects op = false := by
  cases op with
  | begin => exact .inr ⟨rfl, rfl⟩
  | connect macAddress io sync =>
    have hresult := s.bms.connect_result macAddress io
    rw [step, connect] at h ⊢
    rw [linkOf, engaged, reconnects]
    cases hok : s.bms.connects macAddress io with
    | false =>
      simp only [hresult, hok, Bool.not_false, if_true] at h ⊢
      rcases LiTimeNimBLEClient.connect_failed (hresult.trans hok) with hsame | hnone
      · exact .inr ⟨hsame, trivial⟩
      · rw [hnone] at h
        cases h
    | true =>
      simp only [hresult, hok, Bool.not_true, Bool.false_eq_true, if_false] at h
      have hclient := LiTimeNimBLEClient.client_of_connects (hresult.trans hok)
      rw [updateAndSync, syncData, LiTimeNimBLEClient.onHosts_client, atSync_client] at h
      exact .inl ⟨hclient.symm.trans h, rfl⟩
  | update sync =>
    rw [step, update] at h
    split at h
    · exact .inl ⟨h, Option.isSome_of_mem h⟩
    · rw [updateAndSync, syncData, LiTimeNimBLEClient.onHosts_client, atSync_client] at h
      exact .inl ⟨h, Option.isSome_of_mem h⟩
  | host event =>
    rw [step, LiTimeNimBLEClient.onHost_client] at h
    exact .inl ⟨h, Option.isSome_of_mem h⟩

/-- A step that syncs is about a link. -/
theorem linkOf_of_runsSync {s : LiTimeBLEProvider} {op : Op} {io : SyncIo} (h : s.runsSync op = some io) :
    s.engaged op = true ∧ ∃ id, s.linkOf op = some id := by
  have hclient : s.bms.isConnected = true → ∃ id, s.bms.client = some id := by
    intro hc
    rw [LiTimeNimBLEClient.isConnected, Bool.and_eq_true, Option.any_eq_true] at hc
    obtain ⟨-, id, hid, -⟩ := hc
    exact ⟨id, hid⟩
  cases op with
  | begin => cases h
  | connect macAddress io' sync =>
    rw [runsSync] at h
    split at h
    · next hok =>
      refine ⟨hok, ?_⟩
      rw [linkOf, LiTimeNimBLEClient.linkFor]
      split
      · next hto =>
        rw [LiTimeNimBLEClient.connectedTo, Bool.and_eq_true] at hto
        exact hclient hto.1
      · exact ⟨_, rfl⟩
    · cases h
  | update sync =>
    rw [runsSync] at h
    split at h
    · next hc =>
      obtain ⟨id, hid⟩ := hclient hc
      exact ⟨Option.isSome_of_mem hid, id, hid⟩
    · cases h
  | host event => cases h

/-- Where nothing is decoded a sync judges what the client holds. -/
theorem Synced.valid_of_quiet {s t : LiTimeBLEProvider} {early : List HostEvent} {io : SyncIo} {bms : LiTimeNimBLEClient}
    (h : s.Synced t early io bms) (hquiet : sourcesOf (early ++ io.between) = []) :
    t.data.valid = looksValid s.bms.currentData ∧ ∀ r, t.sources r = s.bms.source := by
  have hbehind : ∀ r, sourcesOf (early ++ io.behindFirst r) = [] := by
    intro r
    obtain ⟨rest, hrest⟩ := io.behindFirst_prefix r
    rw [← hrest, ← List.append_assoc, sourcesOf_append, List.append_eq_nil_iff] at hquiet
    exact hquiet.1
  have hdata : copied bms io = assembled fun _ => s.bms.currentData := by
    rw [copied]
    congr 1
    funext r
    rw [(h.reads r).data, reads_quiet (sourcesOf_eq_nil_iff.1 (hbehind r))]
  constructor
  · rw [h.data, published_valid, hdata]
    rfl
  · intro r
    rw [h.sources]
    dsimp only
    rw [LiTimeNimBLEClient.source, (h.reads r).decoded, hbehind r, List.append_nil, LiTimeNimBLEClient.source]

/-- Behind a reading of the present link every read of a sync finds one. -/
theorem Synced.sources_of_held {s t : LiTimeBLEProvider} {early : List HostEvent} {io : SyncIo}
    {bms : LiTimeNimBLEClient} (h : s.Synced t early io bms) {id : ClientId}
    (hheld : (sourcesOf early).getLast?.or s.bms.source = some id) (hlate : ∀ link ∈ sourcesOf io.between, link = id)
    (r : Reading) : t.sources r = some id := by
  have hbehind : (sourcesOf (io.behindFirst r)).getLast? = none ∨ (sourcesOf (io.behindFirst r)).getLast? = some id := by
    cases hlast : (sourcesOf (io.behindFirst r)).getLast? with
    | none => exact .inl rfl
    | some link =>
      have hmem := ((io.behindFirst_prefix r).filterMap HostEvent.source).subset (List.mem_of_getLast? hlast)
      exact .inr (congrArg some (hlate link hmem))
  rw [h.sources]
  dsimp only
  rw [LiTimeNimBLEClient.source, (h.reads r).decoded, sourcesOf_append, List.getLast?_append, List.getLast?_append,
    Option.or_assoc]
  rcases hbehind with hnone | hsome
  · rw [hnone, Option.none_or]
    exact hheld
  · rw [hsome, Option.some_or]

/-- What `sameLink` says of a step about this link. -/
theorem sameLink_eq {s : LiTimeBLEProvider} {op : Op} {id : ClientId} (h : s.sameLink op = true)
    (hengaged : s.engaged op = true) (hlink : s.linkOf op = some id) :
    (∀ link ∈ (sourcesOf (s.early op)).getLast?, link = id) ∧
      ∀ link ∈ sourcesOf (s.late op), link = id ∧ s.heldSource op = some id := by
  simpa [sameLink, hengaged, hlink, Option.all_eq_true] using h

/-- If the step decodes anything, it leaves a reading of this link. -/
theorem held_of_decodes {s : LiTimeBLEProvider} {op : Op} {id : ClientId}
    (hearly : ∀ link ∈ (sourcesOf (s.early op)).getLast?, link = id)
    (hlate : ∀ link ∈ sourcesOf (s.late op), link = id ∧ s.heldSource op = some id)
    (hdecodes : sourcesOf (s.delivered op) ≠ []) :
    s.heldSource op = some id ∧ (sourcesOf (s.delivered op)).getLast? = some id := by
  rw [delivered, sourcesOf_append] at hdecodes ⊢
  rw [List.getLast?_append]
  cases hl : (sourcesOf (s.late op)).getLast? with
  | some link =>
    obtain ⟨rfl, hheld⟩ := hlate link (List.mem_of_getLast? hl)
    exact ⟨hheld, rfl⟩
  | none =>
    cases he : (sourcesOf (s.early op)).getLast? with
    | none =>
      rw [List.getLast?_eq_none_iff] at hl he
      rw [hl, he] at hdecodes
      exact absurd rfl hdecodes
    | some link =>
      obtain rfl := hearly link he
      exact ⟨by rw [heldSource, he, Option.some_or], rfl⟩

/-! ## Runs -/

/-- What is valid, or would be at the next sync, was decoded on this connection. -/
structure Traced (s : LiTimeBLEProvider) : Prop where
  since_le : s.since ≤ s.bms.decoded.length
  client : ∀ id, s.bms.client = some id → s.link = some id
  fresh : s.Fresh
  held : ∀ id, s.bms.client = some id → looksValid s.bms.currentData = true →
    s.bms.source = some id ∧ id ∈ s.bms.decoded.drop s.since

theorem traced_start : Traced {} := ⟨Nat.le_refl _, nofun, nofun, nofun⟩

theorem since_le_step {s : LiTimeBLEProvider} (h : s.since ≤ s.bms.decoded.length) (op : Op) :
    (s.step op).since ≤ s.bms.decoded.length := by
  rw [step_since]
  split
  · exact Nat.le_refl _
  · exact h

/-- What was decoded since stays decoded since, and what is decoded now is. -/
theorem mem_since {s : LiTimeBLEProvider} (h : s.since ≤ s.bms.decoded.length) {op : Op} {id : ClientId}
    (hid : s.reconnects op = false ∧ id ∈ s.bms.decoded.drop s.since ∨ id ∈ sourcesOf (s.delivered op)) :
    id ∈ (s.step op).bms.decoded.drop (s.step op).since := by
  rw [(s.decoded_step op).decoded, List.drop_append_of_le_length (since_le_step h op), List.mem_append]
  refine hid.imp_left fun ⟨hr, hmem⟩ => ?_
  rw [step_since, hr, if_neg Bool.false_ne_true]
  exact hmem

/-- A step that decodes nothing and finds a valid reading finds one of its link. -/
theorem Traced.quiet {s : LiTimeBLEProvider} (h : s.Traced) {op : Op} (hc : s.freshConnect op = true) {id : ClientId}
    (hengaged : s.engaged op = true) (hlink : s.linkOf op = some id) (hquiet : sourcesOf (s.delivered op) = [])
    (hlooks : looksValid s.bms.currentData = true) :
    s.reconnects op = false ∧ s.bms.source = some id ∧ id ∈ s.bms.decoded.drop s.since := by
  have hr : s.reconnects op = false := by
    simpa [freshConnect, hlooks, sourcesOf_eq_nil_iff.1 hquiet] using hc
  cases op with
  | begin => exact ⟨rfl, h.held id hlink hlooks⟩
  | connect macAddress io sync => exact absurd (hr.symm.trans hengaged) Bool.false_ne_true
  | update sync => exact ⟨rfl, h.held id hlink hlooks⟩
  | host event => exact ⟨rfl, h.held id hlink hlooks⟩

theorem Traced.step_held {s : LiTimeBLEProvider} (h : s.Traced) {op : Op} (hs : s.sameLink op = true)
    (hc : s.freshConnect op = true) {id : ClientId} (hclient : (s.step op).bms.client = some id)
    (hlooks : looksValid (s.step op).bms.currentData = true) :
    (s.step op).bms.source = some id ∧ id ∈ (s.step op).bms.decoded.drop (s.step op).since := by
  rcases step_client hclient with ⟨hlink, hengaged⟩ | ⟨hsame, hr⟩
  · have hdecoded := s.decoded_step op
    obtain ⟨hearly, hlate⟩ := sameLink_eq hs hengaged hlink
    rw [LiTimeNimBLEClient.source, hdecoded.decoded, List.getLast?_append, ← hdecoded.decoded]
    by_cases hquiet : sourcesOf (s.delivered op) = []
    · rw [hdecoded.data, reads_quiet (sourcesOf_eq_nil_iff.1 hquiet)] at hlooks
      obtain ⟨hr, hsource, hmem⟩ := h.quiet hc hengaged hlink hquiet hlooks
      exact ⟨by rw [hquiet]; exact hsource, mem_since h.since_le (.inl ⟨hr, hmem⟩)⟩
    · have hlast := (held_of_decodes hearly hlate hquiet).2
      exact ⟨by rw [hlast, Option.some_or], mem_since h.since_le (.inr (List.mem_of_getLast? hlast))⟩
  · rw [hsame] at hclient hlooks ⊢
    rw [step_since, hr, if_neg Bool.false_ne_true]
    exact h.held id hclient hlooks

theorem Traced.step_fresh {s : LiTimeBLEProvider} (h : s.Traced) {op : Op} (hs : s.sameLink op = true)
    (hc : s.freshConnect op = true) : (s.step op).Fresh := by
  intro hvalid
  cases hsync : s.runsSync op with
  | none =>
    -- What is published stays, and so does the connection it belongs to.
    have hkept := step_kept hsync
    obtain ⟨_, _, valid, hdata, hvalidity⟩ := hkept.data
    rw [hdata] at hvalid
    obtain ⟨id, hlink, hmem, hsources⟩ := h.fresh (hvalidity hvalid)
    have hr : s.reconnects op = false := by
      cases op with
      | connect macAddress io sync => simpa [runsSync, reconnects] using hsync
      | begin | update sync | host event => rfl
    exact ⟨id, hkept.link.trans hlink, mem_since h.since_le (.inl ⟨hr, hmem⟩), hkept.sources ▸ hsources⟩
  | some io =>
    obtain ⟨bms, hsynced⟩ := step_synced hsync
    obtain ⟨hengaged, id, hlink⟩ := linkOf_of_runsSync hsync
    obtain ⟨hearly, hlate⟩ := sameLink_eq hs hengaged hlink
    have hbetween : s.late op = io.between := by rw [late, hsync, Option.elim_some]
    have hafter : (s.step op).link = some id := by
      rw [step_link]
      split
      · exact hlink
      · next hr =>
        refine h.client id ?_
        cases op with
        | connect macAddress io sync => exact absurd hengaged hr
        | begin | update sync | host event => exact hlink
    by_cases hquiet : sourcesOf (s.delivered op) = []
    · have hall : sourcesOf (s.early op ++ io.between) = [] := hbetween ▸ hquiet
      obtain ⟨hjudged, hsources⟩ := hsynced.valid_of_quiet hall
      obtain ⟨hr, hsource, hmem⟩ := h.quiet hc hengaged hlink hquiet (hjudged.symm.trans hvalid)
      exact ⟨id, hafter, mem_since h.since_le (.inl ⟨hr, hmem⟩), fun r => (hsources r).trans hsource⟩
    · obtain ⟨hheld, hlast⟩ := held_of_decodes hearly hlate hquiet
      refine ⟨id, hafter, mem_since h.since_le (.inr (List.mem_of_getLast? hlast)), ?_⟩
      exact hsynced.sources_of_held hheld fun link hmem => (hlate link (hbetween ▸ hmem)).1

theorem Traced.step {s : LiTimeBLEProvider} (h : s.Traced) {op : Op} (hs : s.sameLink op = true)
    (hc : s.freshConnect op = true) : (s.step op).Traced where
  since_le := by
    rw [(s.decoded_step op).decoded, List.length_append]
    exact (since_le_step h.since_le op).trans (Nat.le_add_right _ _)
  client := by
    intro id hclient
    rw [step_link]
    rcases step_client hclient with ⟨hlink, hengaged⟩ | ⟨hsame, hr⟩
    · split
      · exact hlink
      · next hr =>
        refine h.client id ?_
        cases op with
        | connect macAddress io sync => exact absurd hengaged hr
        | begin | update sync | host event => exact hlink
    · rw [hr, if_neg Bool.false_ne_true]
      exact h.client id (hsame ▸ hclient)
  fresh := h.step_fresh hs hc
  held := fun _ hclient hlooks => h.step_held hs hc hclient hlooks

/-- The defect: an earlier reading is found, nothing is decoded, and it counts as valid. -/
theorem stale_of_not_freshConnect {s : LiTimeBLEProvider} {op : Op} (hc : ¬ s.freshConnect op = true) :
    ¬ (s.step op).Fresh := by
  rw [Bool.not_eq_true, freshConnect, Bool.or_eq_false_iff, Bool.or_eq_false_iff, Bool.not_eq_false',
    Bool.not_eq_false'] at hc
  obtain ⟨⟨hr, hlooks⟩, hnone⟩ := hc
  have hquiet := sourcesOf_eq_nil_iff.2 hnone
  obtain ⟨io, hsync⟩ : ∃ io, s.runsSync op = some io := by
    cases op with
    | connect macAddress io sync => exact ⟨sync, if_pos hr⟩
    | begin | update sync | host event => cases hr
  obtain ⟨bms, hsynced⟩ := step_synced hsync
  have hall : sourcesOf (s.early op ++ io.between) = [] := by rwa [delivered, late, hsync] at hquiet
  intro hfresh
  obtain ⟨id, -, hmem, -⟩ := hfresh ((hsynced.valid_of_quiet hall).1.trans hlooks)
  rw [(s.decoded_step op).decoded, hquiet, List.append_nil, step_since, hr, if_pos rfl, LiTimeNimBLEClient.frames,
    List.drop_length] at hmem
  cases hmem

/-- Valid data is of the present connection throughout every run into which no
earlier link delivers and whose successful `connect`s each decode a notification or
find no valid reading; and each run in which it is has such `connect`s alone. -/
theorem fresh_along (ops : List Op) :
    (Runs.Along step (fun s op => s.freshConnect op = true ∧ s.sameLink op = true) {} ops →
        Runs.Throughout step Fresh {} ops) ∧
      (Runs.Throughout step Fresh {} ops → Runs.Along step (fun s op => s.freshConnect op = true) {} ops) :=
  ⟨Runs.throughout_of_along (fun _ _ ht hc => ht.step hc.2 hc.1) (fun _ ht => ht.fresh) traced_start,
    Runs.along_of_throughout fun _ _ hc => stale_of_not_freshConnect hc⟩

/-- 10 V in one cell of 3.3 V. -/
def notification : Bytes :=
  List.replicate 8 0 ++ [0x10, 0x27, 0, 0] ++ List.replicate 4 0 ++ [0xe4, 0x0c] ++ List.replicate 86 0

/-- A connection to this battery, with these notifications before its first sync. -/
def connecting (macAddress : Bytes) (notifications : List HostEvent) (now : UInt32) : Op :=
  .connect macAddress { whileSubscribing := notifications } { update := ⟨now, now, [], true⟩, now }

/-- Two batteries, each delivering before its sync. -/
example : Runs.Along step (fun s op => s.freshConnect op = true ∧ s.sameLink op = true) {}
    [.begin, connecting (ascii "c8:47:80:0f:1a:02") [.notify 0 notification] 500, .host (.onDisconnect 0),
      connecting (ascii "c8:47:80:0f:1b:77") [.notify 0 notification, .notify 1 notification] 900] := by
  decide +kernel

/-- The first battery sends a reading and drops; the second has sent nothing yet
when the 10 V of the first are published as its valid voltage. And while its link
still terminates the first can deliver into the connection of the second. -/
theorem switch_publishes_old_reading :
    let s := Runs.run step {}
      [.begin, connecting (ascii "c8:47:80:0f:1a:02") [.notify 0 notification] 500, .host (.onDisconnect 0),
        .update { update := ⟨900, 900, [], true⟩, now := 910 }, connecting (ascii "c8:47:80:0f:1b:77") [] 950]
    let t := Runs.run step {}
      [.begin, connecting (ascii "c8:47:80:0f:1a:02") [] 500,
        connecting (ascii "c8:47:80:0f:1b:77") [.notify 0 notification] 950]
    (s.data.connected = true ∧ s.data.voltage = 10 ∧ ¬ s.Fresh) ∧
      t.data.connected = true ∧ t.data.voltage = 10 ∧ ¬ t.Fresh := by
  intro s t
  refine ⟨⟨by decide +kernel, by decide +kernel, fun h => ?_⟩, by decide +kernel, by decide +kernel, fun h => ?_⟩
  · obtain ⟨id, hlink, hmem, -⟩ := h (by decide +kernel)
    have hnone : s.bms.decoded.drop s.since = [] := by decide +kernel
    rw [hnone] at hmem
    cases hmem
  · obtain ⟨id, hlink, -, hsources⟩ := h (by decide +kernel)
    have hother : t.sources .voltage ≠ t.link := by decide +kernel
    exact hother ((hsources .voltage).trans hlink.symm)

end LiTimeBLEProvider

end LiTimeGateway
