import LiTimeGateway.Ble.Superseded
import LiTimeGateway.Lib.Interleaving
/-!
# The client object and its characteristics

The operations of the client statement by statement. Callbacks, and links that
go up or down, come between any two statements, also between the two reads of
`isConnected()`. They move `connected` and the links, and never a pointer: so
the pointers after an operation are those its statements leave alone, and a
client that is held always has both characteristics.
-/

namespace LiTimeGateway.LiTimeNimBLEClient

open Lib.Interleaving

/-! ## Statements -/

/-- What happens beside the firmware at any moment. -/
inductive TaskEvent where
  | host (event : HostEvent)
  | link (id : ClientId) (link : Link)

def onTask : TaskEvent → LiTimeNimBLEClient → LiTimeNimBLEClient
  | .host event, s => s.onHost event
  | .link id link, s => { s with links := Function.update s.links id link }

/-- The assignments and calls; a characteristic that is not found is a null pointer. -/
inductive Statement where
  | disconnectClient
  | setConnected (connected : Bool)
  | setWriteCharacteristic (found : Bool)
  | setNotifyCharacteristic (found : Bool)
  | deleteClient
  | clearClient
  | setDeviceAddress (address : Bytes)
  | createClient (created : Bool)
  | setLastQuery (lastQuery : UInt32)
  | writeQuery

def exec : Statement → LiTimeNimBLEClient → LiTimeNimBLEClient
  | .disconnectClient, s => { s with links := terminate s.links s.client }
  | .setConnected connected, s => { s with connected }
  | .setWriteCharacteristic found, s => { s with writeCharacteristic := found }
  | .setNotifyCharacteristic found, s => { s with notifyCharacteristic := found }
  | .deleteClient, s => { s with links := terminate s.links s.client }
  | .clearClient, s => { s with client := none }
  | .setDeviceAddress deviceAddress, s => { s with deviceAddress }
  | .createClient created, s => if created then s.create else { s with client := none }
  | .setLastQuery lastQuery, s => { s with lastQuery }
  | .writeQuery, s => s.beginWrite

abbrev Executes : List Statement → LiTimeNimBLEClient → LiTimeNimBLEClient → Prop := Interleaved exec onTask

def clearConnectionCode : List Statement :=
  [.setConnected false, .setWriteCharacteristic false, .setNotifyCharacteristic false, .deleteClient, .clearClient]

def disconnectCode : List Statement := .disconnectClient :: clearConnectionCode

/-- How the calls of `connect` go. -/
structure Outcomes where
  created : Bool := true
  linked : Bool := true
  service : Bool := true
  writeFound : Bool := true
  notifyFound : Bool := true
  canNotify : Bool := true
  subscribed : Bool := true

def openCode (address : Bytes) (created : Bool) : List Statement :=
  disconnectCode ++ [.setDeviceAddress address, .createClient created]

def findCode (outcomes : Outcomes) : List Statement :=
  [.setWriteCharacteristic outcomes.writeFound, .setNotifyCharacteristic outcomes.notifyFound]

/-- The checks behind the lookups, and the result. -/
def finishCode (outcomes : Outcomes) : List Statement × Bool :=
  if !outcomes.writeFound || !outcomes.notifyFound || !outcomes.canNotify then (clearConnectionCode, false)
  else if !outcomes.subscribed then (clearConnectionCode, false)
  else ([.setConnected true, .setLastQuery 0], true)

/-- `connect` behind its early returns, and its result. -/
def connectCode (address : Bytes) (outcomes : Outcomes) : List Statement × Bool :=
  let opened := openCode address outcomes.created
  if !outcomes.created then (opened, false)
  else if !outcomes.linked then (opened ++ clearConnectionCode, false)
  else if !outcomes.service then (opened ++ clearConnectionCode, false)
  else (opened ++ findCode outcomes ++ (finishCode outcomes).1, (finishCode outcomes).2)

/-! ## Operations -/

/-- `isConnected()`, called in `s` and answered in `t`: the flag is read first, the link after it. -/
inductive Sees : LiTimeNimBLEClient → Bool → LiTimeNimBLEClient → Prop where
  | flag {s t : LiTimeNimBLEClient} (before : Executes [] s t) (clear : t.connected = false) : Sees s false t
  | link {s t u : LiTimeNimBLEClient} (before : Executes [] s t) (set : t.connected = true) (between : Executes [] t u) :
    Sees s u.linkIsUp u

/-- `connect`, from `s` to a state and its result. -/
inductive Connects (address : Bytes) (begun : Bool) (outcomes : Outcomes) :
    LiTimeNimBLEClient → LiTimeNimBLEClient → Bool → Prop where
  | rejected {s t : LiTimeNimBLEClient} (arguments : (!address.isEmpty && begun) = false) (events : Executes [] s t) :
    Connects address begun outcomes s t false
  | already {s t u : LiTimeNimBLEClient} (arguments : (!address.isEmpty && begun) = true) (sees : Sees s true t)
    (same : addressText t.deviceAddress = address) (events : Executes [] t u) : Connects address begun outcomes s u true
  | attempt {s t u : LiTimeNimBLEClient} {connected : Bool} (arguments : (!address.isEmpty && begun) = true)
    (sees : Sees s connected t) (other : ¬ (connected = true ∧ addressText t.deviceAddress = address))
    (code : Executes (connectCode address outcomes).1 t u) :
    Connects address begun outcomes s u (connectCode address outcomes).2

inductive Updates (check stored : UInt32) (written : Bool) : LiTimeNimBLEClient → LiTimeNimBLEClient → Prop where
  | disconnected {s t u : LiTimeNimBLEClient} (sees : Sees s false t) (code : Executes [.setConnected false] t u) :
    Updates check stored written s u
  | early {s t u : LiTimeNimBLEClient} (sees : Sees s true t) (due : ¬ check - t.lastQuery > 1000)
    (events : Executes [] t u) : Updates check stored written s u
  | query {s t u : LiTimeNimBLEClient} (sees : Sees s true t) (due : check - t.lastQuery > 1000)
    (code : Executes [.writeQuery, if written then .setLastQuery stored else .setConnected false] t u) :
    Updates check stored written s u

inductive Call where
  | connect (address : Bytes) (begun : Bool) (outcomes : Outcomes)
  | update (check stored : UInt32) (written : Bool)
  | disconnect
  | destructor

def Call.Runs : Call → LiTimeNimBLEClient → LiTimeNimBLEClient → Prop
  | .connect address begun outcomes, s, t => ∃ result, Connects address begun outcomes s t result
  | .update check stored written, s, t => Updates check stored written s t
  | .disconnect, s, t => Executes disconnectCode s t
  | .destructor, s, t => Executes disconnectCode s t

/-- The states between operations. -/
inductive Reachable : LiTimeNimBLEClient → Prop where
  | start : Reachable {}
  | event {s : LiTimeNimBLEClient} (before : Reachable s) (e : TaskEvent) : Reachable (onTask e s)
  | call {s t : LiTimeNimBLEClient} (before : Reachable s) (call : Call) (runs : call.Runs s t) : Reachable t

/-! ## Pointers -/

/-- What no event changes. -/
structure Handles where
  client : Option ClientId
  writeCharacteristic : Bool
  notifyCharacteristic : Bool
  created : Nat
  nullWrites : Nat

def handles (s : LiTimeNimBLEClient) : Handles where
  client := s.client
  writeCharacteristic := s.writeCharacteristic
  notifyCharacteristic := s.notifyCharacteristic
  created := s.created
  nullWrites := s.nullWrites

def Handles.exec (h : Handles) : Statement → Handles
  | .setWriteCharacteristic found => { h with writeCharacteristic := found }
  | .setNotifyCharacteristic found => { h with notifyCharacteristic := found }
  | .clearClient => { h with client := none }
  | .createClient created =>
    if created then { h with client := some h.created, created := h.created + 1 } else { h with client := none }
  | .writeQuery => { h with nullWrites := if h.writeCharacteristic then h.nullWrites else h.nullWrites + 1 }
  | _ => h

/-- A client that is held has both characteristics, and no query was written through a null pointer. -/
structure Handles.Paired (h : Handles) : Prop where
  characteristics : h.client ≠ none → h.writeCharacteristic = true ∧ h.notifyCharacteristic = true
  no_null_writes : h.nullWrites = 0

theorem handles_onTask (e : TaskEvent) (s : LiTimeNimBLEClient) : (onTask e s).handles = s.handles := by
  cases e with
  | link id link => rfl
  | host event =>
    cases event with
    | onConnect id => rw [onTask, onHost]; split <;> rfl
    | onDisconnect id => rw [onTask, onHost]; split <;> rfl
    | notify id data => rfl

theorem handles_exec (c : Statement) (s : LiTimeNimBLEClient) : (exec c s).handles = s.handles.exec c := by
  cases c with
  | createClient created => cases created <;> rfl
  | _ => rfl

/-- Whatever comes between its statements, the code leaves the pointers it leaves alone. -/
theorem handles_executes {code : List Statement} {s t : LiTimeNimBLEClient} (h : Executes code s t) :
    t.handles = code.foldl Handles.exec s.handles := by
  have hexec : ∀ c s t, handles s = handles t → handles (exec c s) = handles (exec c t) := by
    intro c s t hst
    rw [handles_exec, handles_exec, hst]
  rw [h.observe handles_onTask hexec, runAlone]
  clear h
  induction code generalizing s with
  | nil => rfl
  | cons c code ih => rw [List.foldl_cons, ih, handles_exec, List.foldl_cons]

theorem Sees.handles_eq {s t : LiTimeNimBLEClient} {connected : Bool} (h : Sees s connected t) :
    t.handles = s.handles := by
  cases h with
  | flag before _ => exact handles_executes before
  | link before _ between => exact (handles_executes between).trans (handles_executes before)

/-- It is answered with true only where a client is held. -/
theorem Sees.client_ne {s t : LiTimeNimBLEClient} (h : Sees s true t) : t.client ≠ none := by
  generalize hc : true = connected at h
  cases h with
  | flag _ _ => cases hc
  | link _ _ _ =>
    intro hnone
    rw [linkIsUp, hnone] at hc
    cases hc

/-! ## Each operation -/

/-- No pointer is held and no client. -/
structure Handles.Cleared (h : Handles) : Prop where
  client : h.client = none
  writeCharacteristic : h.writeCharacteristic = false
  notifyCharacteristic : h.notifyCharacteristic = false

/-- Only the query is written through a pointer. -/
theorem foldl_nullWrites {code : List Statement} (hcode : .writeQuery ∉ code) (h : Handles) :
    (code.foldl Handles.exec h).nullWrites = h.nullWrites := by
  induction code generalizing h with
  | nil => rfl
  | cons c code ih =>
    rw [List.mem_cons, not_or] at hcode
    rw [List.foldl_cons, ih hcode.2]
    cases c with
    | createClient created => cases created <;> rfl
    | writeQuery => exact absurd rfl hcode.1
    | _ => rfl

theorem cleared_of_clear (code : List Statement) (h : Handles) :
    ((code ++ clearConnectionCode).foldl Handles.exec h).Cleared := by
  rw [List.foldl_append]
  exact ⟨rfl, rfl, rfl⟩

theorem writeQuery_not_mem (address : Bytes) (outcomes : Outcomes) :
    .writeQuery ∉ (connectCode address outcomes).1 := by
  have hopen : .writeQuery ∉ openCode address outcomes.created := by
    simp [openCode, disconnectCode, clearConnectionCode]
  have hclear : .writeQuery ∉ clearConnectionCode := by simp [clearConnectionCode]
  have hfinish : .writeQuery ∉ (finishCode outcomes).1 := by
    unfold finishCode
    split
    · exact hclear
    split
    · exact hclear
    · simp
  have hfind : .writeQuery ∉ findCode outcomes := by simp [findCode]
  unfold connectCode
  dsimp only
  split
  · exact hopen
  split
  · exact List.mem_append.not.2 (not_or.2 ⟨hopen, hclear⟩)
  split
  · exact List.mem_append.not.2 (not_or.2 ⟨hopen, hclear⟩)
  · exact List.mem_append.not.2 (not_or.2 ⟨List.mem_append.not.2 (not_or.2 ⟨hopen, hfind⟩), hfinish⟩)

theorem finishCode_failed {outcomes : Outcomes} (h : (finishCode outcomes).2 = false) :
    (finishCode outcomes).1 = clearConnectionCode := by
  unfold finishCode at h ⊢
  split
  · rfl
  split
  · rfl
  · next h1 h2 =>
    rw [if_neg h1, if_neg h2] at h
    cases h

theorem finishCode_succeeded {outcomes : Outcomes} (h : (finishCode outcomes).2 = true) :
    (finishCode outcomes).1 = [.setConnected true, .setLastQuery 0] ∧
      outcomes.writeFound = true ∧ outcomes.notifyFound = true := by
  unfold finishCode at h ⊢
  split at h
  · cases h
  split at h
  · cases h
  · next h1 h2 =>
    rw [if_neg h1, if_neg h2]
    simp only [Bool.not_eq_true, Bool.or_eq_false_iff, Bool.not_eq_false'] at h1
    exact ⟨rfl, h1.1.1, h1.1.2⟩

/-- Each exit with false is cleared, whichever it is. -/
theorem connectCode_failed {address : Bytes} {outcomes : Outcomes} (hresult : (connectCode address outcomes).2 = false)
    (h : Handles) : ((connectCode address outcomes).1.foldl Handles.exec h).Cleared := by
  unfold connectCode at hresult ⊢
  dsimp only at hresult ⊢
  split
  · -- There is no client yet, and the characteristics went with the one before.
    next hcreated =>
    rw [Bool.not_eq_true'] at hcreated
    rw [hcreated]
    exact ⟨rfl, rfl, rfl⟩
  split
  · exact cleared_of_clear _ h
  split
  · exact cleared_of_clear _ h
  · next h1 h2 h3 =>
    rw [if_neg h1, if_neg h2, if_neg h3] at hresult
    rw [finishCode_failed hresult]
    exact cleared_of_clear _ h

theorem connectCode_succeeded {address : Bytes} {outcomes : Outcomes}
    (hresult : (connectCode address outcomes).2 = true) (h : Handles) :
    ((connectCode address outcomes).1.foldl Handles.exec h).writeCharacteristic = true ∧
      ((connectCode address outcomes).1.foldl Handles.exec h).notifyCharacteristic = true := by
  unfold connectCode at hresult ⊢
  dsimp only at hresult ⊢
  split at hresult
  · cases hresult
  split at hresult
  · cases hresult
  split at hresult
  · cases hresult
  · next h1 h2 h3 =>
    obtain ⟨hcode, hwrite, hnotify⟩ := finishCode_succeeded hresult
    rw [if_neg h1, if_neg h2, if_neg h3, hcode, List.foldl_append, List.foldl_append]
    exact ⟨hwrite, hnotify⟩

theorem connects_paired {address : Bytes} {begun : Bool} {outcomes : Outcomes} {s t : LiTimeNimBLEClient} {result : Bool}
    (h : Connects address begun outcomes s t result) (hs : s.handles.Paired) : t.handles.Paired := by
  cases h with
  | rejected _ events =>
    rw [handles_executes events]
    exact hs
  | already _ sees _ events =>
    rw [handles_executes events, List.foldl_nil, sees.handles_eq]
    exact hs
  | attempt _ sees _ code =>
    have hnull := foldl_nullWrites (writeQuery_not_mem address outcomes) s.handles
    rw [handles_executes code, sees.handles_eq]
    refine ⟨?_, hnull.trans hs.no_null_writes⟩
    cases hresult : (connectCode address outcomes).2 with
    | true => exact fun _ => connectCode_succeeded hresult s.handles
    | false => exact fun hne => absurd (connectCode_failed hresult s.handles).client hne

/-- A `connect` that gets past its address and `begin()` and returns false. -/
theorem connects_cleared {address : Bytes} {begun : Bool} {outcomes : Outcomes} {s t : LiTimeNimBLEClient}
    (h : Connects address begun outcomes s t false) (harguments : (!address.isEmpty && begun) = true) :
    t.handles.Cleared := by
  generalize hresult : false = result at h
  cases h with
  | rejected arguments _ =>
    rw [arguments] at harguments
    cases harguments
  | already _ _ _ _ => cases hresult
  | attempt _ _ _ code =>
    rw [handles_executes code]
    exact connectCode_failed hresult.symm _

theorem updates_paired {check stored : UInt32} {written : Bool} {s t : LiTimeNimBLEClient}
    (h : Updates check stored written s t) (hs : s.handles.Paired) : t.handles.Paired := by
  cases h with
  | disconnected sees code =>
    rw [handles_executes code, sees.handles_eq]
    exact hs
  | early sees _ events =>
    rw [handles_executes events, sees.handles_eq]
    exact hs
  | query sees _ code =>
    -- The answer was true, so a client is held, and its characteristic with it.
    have hclient : s.handles.client ≠ none := by
      rw [← sees.handles_eq]
      exact sees.client_ne
    have hwrite := (hs.characteristics hclient).1
    have hquery : s.handles.exec .writeQuery = s.handles := by
      rw [Handles.exec, if_pos hwrite]
    have hafter : t.handles = s.handles := by
      rw [handles_executes code, sees.handles_eq, List.foldl_cons, hquery]
      cases written <;> rfl
    rw [hafter]
    exact hs

theorem paired_call {call : Call} {s t : LiTimeNimBLEClient} (h : call.Runs s t) (hs : s.handles.Paired) :
    t.handles.Paired := by
  have hdisconnect : Executes disconnectCode s t → t.handles.Paired := by
    intro code
    rw [handles_executes code]
    exact ⟨fun hne => absurd rfl hne, hs.no_null_writes⟩
  cases call with
  | connect address begun outcomes =>
    obtain ⟨result, hconnects⟩ := h
    exact connects_paired hconnects hs
  | update check stored written => exact updates_paired h hs
  | disconnect => exact hdisconnect h
  | destructor => exact hdisconnect h

/-! ## The operations with their waits -/

def outcomesOf (io : ConnectIo) : Outcomes where
  created := io.created
  linked := io.linked
  service := io.service
  writeFound := io.writeFound
  notifyFound := io.notifyFound
  canNotify := io.canNotify
  subscribed := io.subscribed

theorem executes_alone (code : List Statement) (s : LiTimeNimBLEClient) : Executes code s (runAlone exec code s) :=
  interleaved_alone code s

theorem executes_hosts (s : LiTimeNimBLEClient) (events : List HostEvent) : Executes [] s (s.onHosts events) := by
  induction events generalizing s with
  | nil => exact .done s
  | cons e events ih => exact .event (.host e) (ih (s.onHost e))

theorem executes_linkUp (s : LiTimeNimBLEClient) : Executes [] s s.linkUp := by
  unfold linkUp
  split
  · exact .done s
  · next id _ => exact .event (.link id .up) (.done _)

theorem sees_isConnected (s : LiTimeNimBLEClient) : Sees s s.isConnected s := by
  cases hflag : s.connected with
  | false =>
    rw [isConnected_eq, hflag, Bool.false_and]
    exact .flag (.done s) hflag
  | true =>
    rw [isConnected_eq, hflag, Bool.true_and]
    exact .link (.done s) hflag (.done s)

theorem executes_open (s : LiTimeNimBLEClient) (address : Bytes) :
    Executes (openCode address true) s (s.replace address).create := executes_alone _ s

theorem executes_clear (s : LiTimeNimBLEClient) : Executes clearConnectionCode s s.clearConnection :=
  executes_alone _ s

theorem Executes.events {code : List Statement} {s t u : LiTimeNimBLEClient} (h : Executes code s t)
    (h' : Executes [] t u) : Executes code s u := by
  have htrans := h.trans h'
  rwa [List.append_nil] at htrans

theorem connects_attempt {address : Bytes} {begun : Bool} {outcomes : Outcomes} {s t : LiTimeNimBLEClient}
    {code : List Statement} {result : Bool} (harguments : (!address.isEmpty && begun) = true)
    (hother : s.connectedTo address = false) (hcode : connectCode address outcomes = (code, result))
    (h : Executes code s t) : Connects address begun outcomes s t result := by
  have hne : ¬ (s.isConnected = true ∧ addressText s.deviceAddress = address) := by
    rintro ⟨hconnected, hsame⟩
    simp [connectedTo, hconnected, hsame] at hother
  have hexecutes : Executes (connectCode address outcomes).1 s t := by rwa [hcode]
  have hattempt : Connects address begun outcomes s t (connectCode address outcomes).2 :=
    .attempt harguments (sees_isConnected s) hne hexecutes
  rwa [hcode] at hattempt

/-- From the moment the link is up, behind any code that has brought it up. -/
theorem executes_discover {code : List Statement} {s t : LiTimeNimBLEClient} (h : Executes code s t) (io : ConnectIo)
    (hservice : io.service = true) :
    Executes (code ++ findCode (outcomesOf io) ++ (finishCode (outcomesOf io)).1) s (t.discover io).1 ∧
      (finishCode (outcomesOf io)).2 = (t.discover io).2 := by
  have hfound : Executes (code ++ findCode (outcomesOf io)) s ((t.onHosts io.whileDiscovering).find io) :=
    (h.events (executes_hosts t io.whileDiscovering)).trans (executes_alone (findCode (outcomesOf io)) _)
  have hsubscribed := hfound.events (executes_hosts _ io.whileSubscribing)
  rw [discover, hservice, Bool.not_true, if_neg Bool.false_ne_true]
  dsimp only
  by_cases hmissing : (!io.writeFound || !io.notifyFound || !io.canNotify) = true
  · have hfinish : finishCode (outcomesOf io) = (clearConnectionCode, false) := if_pos hmissing
    rw [hfinish, if_pos hmissing]
    exact ⟨hfound.trans (executes_clear _), rfl⟩
  rw [if_neg hmissing]
  by_cases hrefused : (!io.subscribed) = true
  · have hfinish : finishCode (outcomesOf io) = (clearConnectionCode, false) :=
      (if_neg hmissing).trans (if_pos hrefused)
    rw [hfinish, if_pos hrefused]
    exact ⟨hsubscribed.trans (executes_clear _), rfl⟩
  · have hfinish : finishCode (outcomesOf io) = ([.setConnected true, .setLastQuery 0], true) :=
      (if_neg hmissing).trans (if_neg hrefused)
    rw [hfinish, if_neg hrefused]
    exact ⟨hsubscribed.trans (executes_alone [.setConnected true, .setLastQuery 0] _), rfl⟩

/-- `connect` with its waits is one of the interleavings. -/
theorem connects_connect (s : LiTimeNimBLEClient) (address : Bytes) (io : ConnectIo) :
    Connects address io.begun (outcomesOf io) s (s.connect address io).1 (s.connect address io).2 := by
  rw [connect]
  split
  · next haddress => exact .rejected (by simp [haddress]) (.done s)
  split
  · next hbegun => exact .rejected (by simp_all) (.done s)
  next haddress hbegun =>
  have harguments : (!address.isEmpty && io.begun) = true := by simp_all
  split
  · next hto =>
    have hto' : s.isConnected = true ∧ addressText s.deviceAddress = address := by simpa [connectedTo] using hto
    have hsees := sees_isConnected s
    rw [hto'.1] at hsees
    exact .already harguments hsees hto'.2 (.done s)
  next hother =>
  rw [Bool.not_eq_true] at hother
  have hlinking := (executes_open s address).events (executes_hosts _ io.whileLinking)
  have hup := hlinking.events (executes_linkUp _)
  dsimp only
  cases hcreated : io.created with
  | false =>
    have hcode : connectCode address (outcomesOf io) = (openCode address false, false) := by
      simp [connectCode, outcomesOf, hcreated]
    exact connects_attempt harguments hother hcode (executes_alone (openCode address false) s)
  | true =>
    cases hlinked : io.linked with
    | false =>
      have hcode : connectCode address (outcomesOf io) = (openCode address true ++ clearConnectionCode, false) := by
        simp [connectCode, outcomesOf, hcreated, hlinked]
      exact connects_attempt harguments hother hcode (hlinking.trans (executes_clear _))
    | true =>
      cases hservice : io.service with
      | false =>
        have hcode : connectCode address (outcomesOf io) = (openCode address true ++ clearConnectionCode, false) := by
          simp [connectCode, outcomesOf, hcreated, hlinked, hservice]
        have hdiscovered := hup.events (executes_hosts _ io.whileDiscovering)
        simp only [discover, hservice, Bool.not_true, Bool.not_false, Bool.false_eq_true, if_false, if_true]
        exact connects_attempt harguments hother hcode (hdiscovered.trans (executes_clear _))
      | true =>
        obtain ⟨hexecutes, hresult⟩ := executes_discover hup io hservice
        have hcode : connectCode address (outcomesOf io) =
            (openCode address true ++ findCode (outcomesOf io) ++ (finishCode (outcomesOf io)).1,
              (finishCode (outcomesOf io)).2) := by
          simp [connectCode, outcomesOf, hcreated, hlinked, hservice]
        simp only [Bool.not_true, Bool.false_eq_true, if_false]
        rw [← hresult]
        exact connects_attempt harguments hother hcode hexecutes

theorem updates_update (s : LiTimeNimBLEClient) (io : UpdateIo) :
    Updates io.check io.stored io.written s (s.update io) := by
  have hsees := sees_isConnected s
  rw [update]
  cases hconnected : s.isConnected with
  | false =>
    rw [hconnected] at hsees
    exact .disconnected hsees (executes_alone [.setConnected false] s)
  | true =>
    rw [hconnected] at hsees
    simp only [Bool.not_true, Bool.false_eq_true, if_false, queries, hconnected, Bool.true_and, decide_eq_true_eq]
    have hwriting := (executes_alone [.writeQuery] s).events (executes_hosts s.beginWrite io.whileWriting)
    split
    · next hdue =>
      apply Updates.query hsees hdue
      cases hwritten : io.written with
      | false => exact hwriting.trans (executes_alone [.setConnected false] _)
      | true => exact hwriting.trans (executes_alone [.setLastQuery io.stored] _)
    · next hdue => exact .early hsees hdue (.done s)

theorem reachable_step {s : LiTimeNimBLEClient} (h : Reachable s) (op : Op) : Reachable (s.step op) := by
  cases op with
  | connect address io => exact h.call (.connect address io.begun (outcomesOf io)) ⟨_, connects_connect s address io⟩
  | update io => exact h.call (.update io.check io.stored io.written) (updates_update s io)
  | disconnect => exact h.call .disconnect (executes_alone disconnectCode s)
  | host event => exact h.event (.host event)

/-- What holds of the reachable states holds in the runs of the other theorems. -/
theorem reachable_run (ops : List Op) : Reachable (Lib.Runs.run step {} ops) :=
  Lib.Runs.run_inv (I := Reachable) (C := fun _ _ => True) (fun _ op h _ => reachable_step h op) .start
    (Lib.Runs.along_true (fun _ _ => trivial) _ ops)

/-! ## Whole runs -/

theorem Reachable.paired {s : LiTimeNimBLEClient} (h : Reachable s) : s.handles.Paired := by
  induction h with
  | start => exact ⟨fun hne => absurd rfl hne, rfl⟩
  | event _ e ih =>
    rw [handles_onTask]
    exact ih
  | call _ _ runs ih => exact paired_call runs ih

/-- What is promised of a state between operations. -/
structure Sound (s : LiTimeNimBLEClient) : Prop where
  characteristics : s.client ≠ none → s.writeCharacteristic = true ∧ s.notifyCharacteristic = true
  connected : s.isConnected = true → s.writeCharacteristic = true
  /-- Also where the answer comes later, in the middle of `update()`. -/
  sees : ∀ t, Sees s true t → t.writeCharacteristic = true
  no_null_writes : s.nullWrites = 0
  /-- A `connect` that gets past its address and `begin()` and returns false. -/
  failed : ∀ address begun outcomes t, address ≠ [] → begun = true → Connects address begun outcomes s t false →
    t.client = none ∧ t.writeCharacteristic = false ∧ t.notifyCharacteristic = false

theorem lifecycle {s : LiTimeNimBLEClient} (h : Reachable s) : s.Sound := by
  have hpaired := h.paired
  have hsees : ∀ t, Sees s true t → t.writeCharacteristic = true := by
    intro t ht
    have hsame := ht.handles_eq
    have hclient : s.handles.client ≠ none := by
      rw [← hsame]
      exact ht.client_ne
    have hwrite := (hpaired.characteristics hclient).1
    rwa [← hsame] at hwrite
  refine ⟨hpaired.characteristics, ?_, hsees, hpaired.no_null_writes, ?_⟩
  · intro hconnected
    apply hsees
    rw [← hconnected]
    exact sees_isConnected s
  · intro address begun outcomes t haddress hbegun hconnects
    have hcleared := connects_cleared hconnects (by simp [haddress, hbegun])
    exact ⟨hcleared.client, hcleared.writeCharacteristic, hcleared.notifyCharacteristic⟩

/-- While its service is looked up the callback of the link has set the flag already. -/
theorem lifecycle_connected :
    (step {} (.connect (ascii "c8:47:80:0f:1a:02") { whileDiscovering := [.onConnect 0] })).Sound :=
  lifecycle (reachable_step .start _)

end LiTimeGateway.LiTimeNimBLEClient
