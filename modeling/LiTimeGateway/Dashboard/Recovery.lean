import LiTimeGateway.Dashboard.PollingTheorems
import Mathlib.Data.List.Nodup
/-!
# The page always comes back

In whatever order the browser's events come, something is left that will bring
the page its next connection: its current socket has still to close, or a
reconnect timeout is live (`Waiting`). The pause before the next attempt grows
with the closes since the last open and no further than half a minute.
-/

namespace LiTimeGateway.Dashboard.App

open Lib.Runs

/-- The live reconnect timeouts. -/
def reconnects (s : App) : List Timer := s.timers.filter (·.callback = .connect)

/-- What the variables, the sockets and the timers have in common in every state. -/
structure Tidy (s : App) : Prop where
  ids : s.timers.Pairwise fun a b => a.id < b.id
  fresh : ∀ t ∈ s.timers, t.id < s.nextTimer
  owned : ∀ t ∈ s.timers, t.callback = .connect → s.reconnectTimer = some t.id
  delays : ∀ t ∈ s.timers, t.callback = .connect → 1000 ≤ t.delay ∧ t.delay ≤ 30000
  current : ∀ i, s.socket = some i → i < s.sockets.length
  ended : ∀ (i : Nat) (w : WebSocket), s.sockets[i]? = some w → w.ended = true → w.readyState = .CLOSED

/-- The current socket has still to close, or a timeout will connect. -/
def Waiting (s : App) : Prop :=
  (∃ (i : Nat) (w : WebSocket), s.socket = some i ∧ s.sockets[i]? = some w ∧ w.ended = false) ∨ s.reconnects ≠ []

/-- The events that the browser could deliver, in their order. -/
def delivered (s : App) : List Event → List Event
  | [] => []
  | e :: es => (if s.Possible e then [e] else []) ++ (s.deliver e).delivered es

def isOpening : Event → Bool
  | .onopen _ => true
  | _ => false

def isClosing : Event → Bool
  | .onclose _ => true
  | _ => false

/-- How many sockets have closed since the last one opened. -/
def closesSinceOpen (es : List Event) : Nat :=
  ((es.reverse.takeWhile (!isOpening ·)).filter isClosing).length

/-! ## Timers and sockets -/

theorem Tidy.clearTimer {s : App} (h : s.Tidy) (id : Option Nat) : (s.clearTimer id).Tidy :=
  ⟨h.ids.filter _, fun t ht => h.fresh t (mem_clearTimer.1 ht).1, fun t ht => h.owned t (mem_clearTimer.1 ht).1,
    fun t ht => h.delays t (mem_clearTimer.1 ht).1, h.current, h.ended⟩

/-- The browser changes a socket; what has ended stays closed. -/
theorem Tidy.modify {s : App} (h : s.Tidy) (i : Nat) {f : WebSocket → WebSocket}
    (hf : ∀ w, s.sockets[i]? = some w → (f w).ended = true → (f w).readyState = .CLOSED) :
    Tidy { s with sockets := s.sockets.modify i f } := by
  refine ⟨h.ids, h.fresh, h.owned, h.delays, fun j hj => ?_, fun j w hw hended => ?_⟩
  · rw [List.length_modify]
    exact h.current j hj
  · dsimp only at hw
    rw [List.getElem?_modify] at hw
    obtain ⟨v, hv, rfl⟩ := Option.map_eq_some_iff.1 hw
    split at hended
    · next hsame =>
      rw [if_pos hsame]
      exact hf v (hsame ▸ hv) hended
    · next hother =>
      rw [if_neg hother]
      exact h.ended j v hv hended

/-- A ready state is set on a socket that has not ended, or it is CLOSED. -/
theorem Tidy.setReady {s : App} (h : s.Tidy) (i : Nat) {r : ReadyState}
    (hr : r = .CLOSED ∨ s.readyStateOf i = some .CONNECTING ∨ s.readyStateOf i = some .OPEN) : (s.setReady i r).Tidy := by
  refine h.modify i fun w hw hended => ?_
  have hclosed := h.ended i w hw hended
  simp only [readyStateOf, hw, Option.map_some, hclosed] at hr
  simpa using hr

theorem reconnectDelay_bounds (s : App) : 1000 ≤ s.reconnectDelay ∧ s.reconnectDelay ≤ 30000 := by
  have hpow : 1 ≤ 2 ^ min s.reconnectAttempts 5 := Nat.one_le_two_pow
  unfold reconnectDelay
  omega

theorem Tidy.scheduleReconnect {s : App} (h : s.Tidy) : s.scheduleReconnect.Tidy := by
  have hkept := (h.clearTimer s.reconnectTimer).clearTimer s.statusPollTimer
  refine ⟨?_, ?_, ?_, ?_, h.current, h.ended⟩
  · refine List.pairwise_append.2 ⟨hkept.ids, List.pairwise_singleton _ _, fun t ht u hu => ?_⟩
    rw [List.mem_singleton.1 hu]
    exact hkept.fresh t ht
  · intro t ht
    rcases List.mem_append.1 ht with ht | ht
    · exact Nat.lt_succ_of_lt (hkept.fresh t ht)
    · rw [List.mem_singleton.1 ht]
      exact Nat.lt_succ_self _
  · intro t ht hc
    rcases List.mem_append.1 ht with ht | ht
    · -- An earlier timeout is the one that was cleared.
      have hcleared := mem_clearTimer.1 ((mem_clearTimer.1 ht).1)
      exact absurd (h.owned t hcleared.1 hc).symm hcleared.2
    · rw [List.mem_singleton.1 ht]
      rfl
  · intro t ht hc
    rcases List.mem_append.1 ht with ht | ht
    · exact hkept.delays t ht hc
    · rw [List.mem_singleton.1 ht]
      exact reconnectDelay_bounds _

/-- After a close event the new timeout is the only one. -/
theorem reconnects_scheduleReconnect {s : App} (h : s.Tidy) :
    s.scheduleReconnect.reconnects = [⟨s.nextTimer, .connect, s.reconnectDelay⟩] := by
  have hnone : ((s.clearTimer s.reconnectTimer).clearTimer s.statusPollTimer).timers.filter (·.callback = .connect) = [] := by
    refine List.filter_eq_nil_iff.2 fun t ht hc => ?_
    have hcleared := mem_clearTimer.1 ((mem_clearTimer.1 ht).1)
    exact hcleared.2 (h.owned t hcleared.1 (of_decide_eq_true hc)).symm
  rw [reconnects, App.scheduleReconnect, setTimer, List.filter_append, hnone]
  rfl

theorem Tidy.requestStatus {s : App} (h : s.Tidy) : s.requestStatus.Tidy := by
  unfold App.requestStatus
  split
  · exact ⟨h.ids, h.fresh, h.owned, h.delays, h.current, h.ended⟩
  · exact h

theorem Waiting.requestStatus {s : App} (h : s.Waiting) : s.requestStatus.Waiting := by
  unfold App.requestStatus
  split
  · exact h
  · exact h

theorem Tidy.openHandler {s : App} (h : s.Tidy) : s.openHandler.Tidy := by
  have hasked : Tidy { s with reconnectAttempts := 0 }.requestStatus :=
    Tidy.requestStatus ⟨h.ids, h.fresh, h.owned, h.delays, h.current, h.ended⟩
  refine ⟨?_, ?_, ?_, ?_, hasked.current, hasked.ended⟩
  · refine List.pairwise_append.2 ⟨hasked.ids, List.pairwise_singleton _ _, fun t ht u hu => ?_⟩
    rw [List.mem_singleton.1 hu]
    exact hasked.fresh t ht
  · intro t ht
    rcases List.mem_append.1 ht with ht | ht
    · exact Nat.lt_succ_of_lt (hasked.fresh t ht)
    · rw [List.mem_singleton.1 ht]
      exact Nat.lt_succ_self _
  · intro t ht hc
    rcases List.mem_append.1 ht with ht | ht
    · exact hasked.owned t ht hc
    · rw [List.mem_singleton.1 ht] at hc
      cases hc
  · intro t ht hc
    rcases List.mem_append.1 ht with ht | ht
    · exact hasked.delays t ht hc
    · rw [List.mem_singleton.1 ht] at hc
      cases hc

theorem Waiting.openHandler {s : App} (h : s.Waiting) : s.openHandler.Waiting := by
  have hasked : Waiting { s with reconnectAttempts := 0 }.requestStatus := Waiting.requestStatus h
  refine hasked.imp_right fun hlive hnone => hlive ?_
  rw [reconnects, App.openHandler] at hnone
  exact (List.append_eq_nil_iff.1 ((List.filter_append ..).symm.trans hnone)).1

/-- An open or connecting socket has not ended. -/
theorem Tidy.not_ended {s : App} (h : s.Tidy) {i : Nat}
    (hready : s.readyStateOf i = some .CONNECTING ∨ s.readyStateOf i = some .OPEN) :
    ∃ w : WebSocket, s.sockets[i]? = some w ∧ w.ended = false := by
  unfold readyStateOf at hready
  cases hw : s.sockets[i]? with
  | none => simp [hw] at hready
  | some w =>
    refine ⟨w, rfl, Bool.eq_false_iff.2 fun hended => ?_⟩
    simp [hw, h.ended i w hw hended] at hready

/-- Whatever `connect` finds, there is then a socket that has still to close. -/
theorem Tidy.connect {s : App} (h : s.Tidy) : s.connect.Tidy ∧ s.connect.Waiting := by
  have hcleared := h.clearTimer s.reconnectTimer
  unfold App.connect
  dsimp only
  split
  · next hready =>
    refine ⟨hcleared, .inl ?_⟩
    have hcurrent : ∃ i, s.socket = some i ∧ (s.readyStateOf i = some .CONNECTING ∨ s.readyStateOf i = some .OPEN) := by
      rcases hready with hready | hready
      · obtain ⟨i, hi, hopen⟩ := Option.bind_eq_some_iff.1 hready
        exact ⟨i, hi, .inr hopen⟩
      · obtain ⟨i, hi, hconnecting⟩ := Option.bind_eq_some_iff.1 hready
        exact ⟨i, hi, .inl hconnecting⟩
    obtain ⟨i, hi, hready⟩ := hcurrent
    obtain ⟨w, hw, hended⟩ := h.not_ended hready
    exact ⟨i, w, hi, hw, hended⟩
  · refine ⟨⟨hcleared.ids, hcleared.fresh, hcleared.owned, hcleared.delays, ?_, ?_⟩, .inl ?_⟩
    · intro i hi
      obtain rfl := Option.some.inj hi
      rw [List.length_append]
      exact Nat.lt_succ_self _
    · intro i w hw hended
      dsimp only at hw
      rw [List.getElem?_append] at hw
      split at hw
      · exact hcleared.ended i w hw hended
      · rw [List.getElem?_singleton] at hw
        split at hw
        · obtain rfl := Option.some.inj hw
          cases hended
        · cases hw
    · exact ⟨_, _, rfl, List.getElem?_concat_length, rfl⟩

theorem Waiting.setReady {s : App} (h : s.Waiting) (i : Nat) (r : ReadyState) : (s.setReady i r).Waiting := by
  refine h.imp_left fun ⟨j, w, hj, hw, hended⟩ => ?_
  refine ⟨j, if i = j then { w with readyState := r } else w, hj, ?_, ?_⟩
  · show (s.sockets.modify i _)[j]? = _
    rw [List.getElem?_modify, hw]
    split <;> rfl
  · split <;> exact hended

theorem Tidy.close {s : App} (h : s.Tidy) : s.close.Tidy := by
  unfold App.close
  split
  · exact h
  · split
    · next hready => exact h.setReady _ (.inr hready)
    · exact h

theorem Waiting.close {s : App} (h : s.Waiting) : s.close.Waiting := by
  unfold App.close
  split
  · exact h
  · split
    · exact h.setReady _ _
    · exact h

theorem Tidy.endSocket {s : App} (h : s.Tidy) (i : Nat) : (s.endSocket i).Tidy :=
  h.modify i fun _ _ _ => rfl

/-! ## One event -/

/-- The event's timer is live, and it is the one that fires. -/
theorem timer_fires {s : App} (h : s.Tidy) {t : Timer} (ht : t ∈ s.timers) : s.handle (.timer t.id) = s.fire t := by
  have hfind : s.timers.find? (·.id = t.id) = some t := by
    cases hf : s.timers.find? (·.id = t.id) with
    | none => simpa using List.find?_eq_none.1 hf t ht
    | some u =>
      have hu := List.mem_of_find?_eq_some hf
      have hid : u.id = t.id := by simpa using List.find?_some hf
      have hdistinct : s.timers.Pairwise fun a b => a.id ≠ b.id := h.ids.imp fun hlt => Nat.ne_of_lt hlt
      by_contra hne
      have hinj := (List.pairwise_map.2 hdistinct : (s.timers.map Timer.id).Nodup)
      exact hne (congrArg some (List.inj_on_of_nodup_map hinj hu ht hid))
  rw [handle, hfind]
  rfl

theorem Tidy.handle {s : App} (h : s.Tidy) {e : Event} (hp : s.Possible e) : (s.handle e).Tidy := by
  cases e with
  | onopen i => exact (h.setReady i (.inr (.inl hp))).openHandler
  | onmessage i => exact h
  | onerror i => exact (h.setReady i (.inl rfl)).close
  | onclose i => exact (h.endSocket i).scheduleReconnect
  | closing i => exact h.setReady i (.inr (.inr hp))
  | online => exact h.connect.1
  | offline => exact h.close
  | timer id =>
    obtain ⟨t, ht, rfl⟩ := hp
    rw [timer_fires h ht, fire]
    split
    · exact (h.clearTimer _).connect.1
    · exact h.requestStatus

theorem Waiting.handle {s : App} (h : s.Waiting) (htidy : s.Tidy) {e : Event} (hp : s.Possible e) :
    (s.handle e).Waiting := by
  cases e with
  | onopen i => exact (h.setReady i _).openHandler
  | onmessage i => exact h
  | onerror i => exact (h.setReady i _).close
  | onclose i =>
    refine .inr ?_
    rw [App.handle, reconnects_scheduleReconnect (htidy.endSocket i)]
    exact List.cons_ne_nil _ _
  | closing i => exact h.setReady i _
  | online => exact htidy.connect.2
  | offline => exact h.close
  | timer id =>
    obtain ⟨t, ht, rfl⟩ := hp
    rw [timer_fires htidy ht, fire]
    split
    · exact (htidy.clearTimer _).connect.2
    · exact h.requestStatus

theorem requestStatus_attempts (s : App) : s.requestStatus.reconnectAttempts = s.reconnectAttempts := by
  unfold requestStatus
  split <;> rfl

theorem close_attempts (s : App) : s.close.reconnectAttempts = s.reconnectAttempts := by
  unfold close
  split
  · rfl
  · split <;> rfl

theorem connect_attempts (s : App) : s.connect.reconnectAttempts = s.reconnectAttempts := by
  unfold connect
  dsimp only
  split <;> rfl

theorem handle_attempts (s : App) (e : Event) :
    (s.handle e).reconnectAttempts =
      if isOpening e then 0 else s.reconnectAttempts + if isClosing e then 1 else 0 := by
  cases e with
  | onopen i => exact requestStatus_attempts _
  | onmessage i => rfl
  | onerror i => exact close_attempts _
  | onclose i => rfl
  | closing i => rfl
  | online => exact connect_attempts s
  | offline => exact close_attempts s
  | timer id =>
    rw [handle]
    cases s.timers.find? (·.id = id) with
    | none => rfl
    | some t =>
      show (s.fire t).reconnectAttempts = s.reconnectAttempts
      unfold fire
      split
      · exact connect_attempts _
      · exact requestStatus_attempts s

/-! ## Runs -/

theorem closesSinceOpen_concat (es : List Event) (e : Event) :
    closesSinceOpen (es ++ [e]) = if isOpening e then 0 else closesSinceOpen es + if isClosing e then 1 else 0 := by
  unfold closesSinceOpen
  rw [List.reverse_append, List.reverse_singleton, List.singleton_append]
  cases hopen : isOpening e with
  | true => simp [hopen]
  | false => cases hclose : isClosing e <;> simp [hopen, hclose]

theorem delivered_concat (s : App) (es : List Event) (e : Event) :
    s.delivered (es ++ [e]) = s.delivered es ++ if (run deliver s es).Possible e then [e] else [] := by
  induction es generalizing s with
  | nil => exact List.append_nil _
  | cons first es ih => rw [List.cons_append, delivered, ih, delivered, List.append_assoc, run_cons]

/-- What holds after every run. -/
structure Comes (s : App) (past : List Event) : Prop where
  tidy : s.Tidy
  waiting : s.Waiting
  attempts : s.reconnectAttempts = closesSinceOpen (load.delivered past)

theorem comes_run (es : List Event) : (run deliver load es).Comes es := by
  have hstart : load.Comes [] := by
    have hblank : Tidy ⟨none, none, none, 0, [], [], 1, []⟩ := ⟨.nil, nofun, nofun, nofun, nofun, nofun⟩
    exact ⟨hblank.connect.1, hblank.connect.2, rfl⟩
  refine run_history (I := Comes) (C := fun _ _ => True) hstart ?_ (along_true (fun _ _ => trivial) load es)
  intro past e h _
  rw [deliver]
  split
  · next hp =>
    refine ⟨h.tidy.handle hp, h.waiting.handle h.tidy hp, ?_⟩
    rw [handle_attempts, delivered_concat, if_pos hp, closesSinceOpen_concat, h.attempts]
  · next hp =>
    refine ⟨h.tidy, h.waiting, ?_⟩
    rw [delivered_concat, if_neg hp, List.append_nil, h.attempts]

theorem Tidy.reconnects_le_one {s : App} (h : s.Tidy) : s.reconnects.length ≤ 1 := by
  have hdistinct : s.reconnects.Pairwise fun a b => a.id < b.id := h.ids.filter _
  have hsame : ∀ t ∈ s.reconnects, s.reconnectTimer = some t.id := by
    intro t ht
    obtain ⟨ht, hc⟩ := List.mem_filter.1 ht
    exact h.owned t ht (of_decide_eq_true hc)
  match hlist : s.reconnects with
  | [] => exact Nat.zero_le 1
  | [_] => exact Nat.le_refl 1
  | t :: u :: rest =>
    rw [hlist] at hdistinct hsame
    have hlt := (List.pairwise_cons.1 hdistinct).1 u (by simp)
    have heq : t.id = u.id := Option.some.inj ((hsame t (by simp)).symm.trans (hsame u (by simp)))
    exact absurd heq (Nat.ne_of_lt hlt)

/-- In every state at most one reconnect is pending, in a second to half a
minute; a close event replaces it by one whose pause is doubled for each close
since the last open, five times at most. -/
theorem reconnect_backs_off (es : List Event) :
    let s := run deliver load es
    s.reconnects.length ≤ 1 ∧ (∀ t ∈ s.reconnects, 1000 ≤ t.delay ∧ t.delay ≤ 30000) ∧
    ∀ i, s.Possible (.onclose i) → (s.deliver (.onclose i)).reconnects =
      [⟨s.nextTimer, .connect, min 30000 (1000 * 2 ^ min (closesSinceOpen (load.delivered es)) 5)⟩] := by
  intro s
  have h : s.Comes es := comes_run es
  refine ⟨h.tidy.reconnects_le_one, fun t ht => ?_, fun i hp => ?_⟩
  · obtain ⟨ht, hc⟩ := List.mem_filter.1 ht
    exact h.tidy.delays t ht (of_decide_eq_true hc)
  · rw [deliver, if_pos hp, handle, reconnects_scheduleReconnect (h.tidy.endSocket i), ← h.attempts]
    rfl

/-- The first close after an open waits for a second, the next one for two. -/
theorem reconnect_backs_off_second_close :
    ((run deliver load [.onopen 0, .onclose 0, .timer 2]).deliver (.onclose 1)).reconnects = [⟨3, .connect, 2000⟩] := by
  have hdoubled := (reconnect_backs_off [.onopen 0, .onclose 0, .timer 2]).2.2 1 (by decide)
  exact hdoubled.trans (by decide)

/-! ## The way back -/

/-- The current socket opens: the page asks at once and from then on regularly. -/
theorem opens {s : App} {i : Nat} (hi : s.socket = some i) (hready : s.readyStateOf i = some .CONNECTING) :
    (s.deliver (.onopen i)).IsOpen ∧ (s.deliver (.onopen i)).requests = s.requests ++ [i] ∧
      (s.deliver (.onopen i)).polls ≠ [] := by
  have hopened : (s.setReady i .OPEN).readyState = some .OPEN := by
    show (s.socket.bind (s.setReady i .OPEN).readyStateOf) = _
    rw [hi, Option.bind_some, readyStateOf_setReady, if_pos rfl, hready]
    rfl
  have hasked : { s.setReady i .OPEN with reconnectAttempts := 0 }.requestStatus =
      { s.setReady i .OPEN with reconnectAttempts := 0, requests := s.requests ++ [i] } := by
    have hsame : { s.setReady i .OPEN with reconnectAttempts := 0 }.readyState = some .OPEN := hopened
    rw [requestStatus, if_pos hsame]
    simp [setReady, hi]
  have hp : s.Possible (.onopen i) := hready
  rw [deliver, if_pos hp, handle]
  refine ⟨?_, ?_, ?_⟩
  · rw [IsOpen, openHandler, hasked]
    exact hopened
  · rw [openHandler, hasked]
    rfl
  · rw [openHandler_polls]
    exact List.append_ne_nil_of_right_ne_nil _ (List.cons_ne_nil _ _)

theorem connect_fresh {s : App} (h : ¬ (s.readyState = some .OPEN ∨ s.readyState = some .CONNECTING)) :
    s.connect = { s.clearTimer s.reconnectTimer with
      sockets := s.sockets ++ [⟨.CONNECTING, false⟩], socket := some s.sockets.length } :=
  if_neg h

/-- The timeout connects a page that has no open or connecting socket. -/
theorem reconnects_now {s : App} (h : s.Tidy) {t : Timer} (ht : t ∈ s.reconnects)
    (hready : ¬ (s.readyState = some .OPEN ∨ s.readyState = some .CONNECTING)) :
    s.Possible (.timer t.id) ∧ ∃ i, (s.deliver (.timer t.id)).socket = some i ∧
      (s.deliver (.timer t.id)).readyStateOf i = some .CONNECTING ∧
      (s.deliver (.timer t.id)).requests = s.requests := by
  obtain ⟨hmem, hc⟩ := List.mem_filter.1 ht
  have hp : s.Possible (.timer t.id) := ⟨t, hmem, rfl⟩
  have hconnected : s.deliver (.timer t.id) = ((s.clearTimer (some t.id)).connect) := by
    rw [deliver, if_pos hp, timer_fires h hmem, fire, of_decide_eq_true hc]
  refine ⟨hp, s.sockets.length, ?_⟩
  rw [hconnected, connect_fresh (s := s.clearTimer (some t.id)) hready]
  exact ⟨rfl, congrArg (Option.map WebSocket.readyState) List.getElem?_concat_length, rfl⟩

/-- From every state the page gets back to an open connection, by itself: its
sockets open and close and its timeout fires, three events at most. Unless it is
open already, it has then asked for a status and polls. -/
theorem page_recovers (es : List Event) :
    ∃ fs, fs.length ≤ 3 ∧ (∀ e ∈ fs, (∃ i, e = .onopen i) ∨ (∃ i, e = .onclose i) ∨ ∃ id, e = .timer id) ∧
      Along deliver Possible (run deliver load es) fs ∧ (run deliver load (es ++ fs)).IsOpen ∧
      (fs ≠ [] → (run deliver load (es ++ fs)).polls ≠ [] ∧
        (run deliver load es).requests.length < (run deliver load (es ++ fs)).requests.length) := by
  have h : (run deliver load es).Comes es := comes_run es
  simp only [run_append]
  generalize run deliver load es = s at h
  have hasks : ∀ {r : List Nat} {i : Nat} {u : App}, u.requests = r ++ [i] → r.length < u.requests.length := by
    intro r i u hu
    simp [hu]
  by_cases hopen : s.IsOpen
  · exact ⟨[], Nat.zero_le 3, nofun, trivial, hopen, fun hne => absurd rfl hne⟩
  by_cases hconnecting : s.readyState = some .CONNECTING
  · obtain ⟨i, hi, hready⟩ := Option.bind_eq_some_iff.1 hconnecting
    obtain ⟨hnow, hasked, hpolls⟩ := opens hi hready
    exact ⟨[.onopen i], by simp, by simp, ⟨hready, trivial⟩, hnow, fun _ => ⟨hpolls, hasks hasked⟩⟩
  have hready : ¬ (s.readyState = some .OPEN ∨ s.readyState = some .CONNECTING) := fun hor => hor.elim hopen hconnecting
  rcases h.waiting with ⟨i, w, hi, hw, hended⟩ | hlive
  · -- The socket has still to close, and its close event sets the timeout.
    have hp : s.Possible (.onclose i) := by
      show (s.sockets[i]?).map (·.ended) = some false
      rw [hw, Option.map_some, hended]
    have hclosed : s.deliver (.onclose i) = (s.endSocket i).scheduleReconnect := by rw [deliver, if_pos hp, handle]
    have htidy := (h.tidy.endSocket i).scheduleReconnect
    obtain ⟨t, ht⟩ : ∃ t, t ∈ (s.endSocket i).scheduleReconnect.reconnects := by
      rw [reconnects_scheduleReconnect (h.tidy.endSocket i)]
      exact ⟨_, List.mem_singleton_self _⟩
    have hstate : (s.endSocket i).scheduleReconnect.readyState = some .CLOSED := by
      show (s.socket.bind (s.endSocket i).readyStateOf) = _
      simp [hi, readyStateOf, endSocket, hw]
    obtain ⟨hfires, j, hj, hjready, hrequests⟩ := reconnects_now htidy ht (by simp [hstate])
    obtain ⟨hnow, hasked, hpolls⟩ := opens hj hjready
    refine ⟨[.onclose i, .timer t.id, .onopen j], by simp, by simp, ⟨hp, ?_⟩, ?_, fun _ => ⟨?_, ?_⟩⟩
    · rw [hclosed]
      exact ⟨hfires, hjready, trivial⟩
    · rw [run_cons, hclosed]
      exact hnow
    · rw [run_cons, hclosed]
      exact hpolls
    · rw [run_cons, hclosed]
      exact hasks (hasked.trans (congrArg (· ++ [j]) hrequests))
  · obtain ⟨t, ht⟩ := List.exists_mem_of_ne_nil _ hlive
    obtain ⟨hfires, j, hj, hjready, hrequests⟩ := reconnects_now h.tidy ht hready
    obtain ⟨hnow, hasked, hpolls⟩ := opens hj hjready
    exact ⟨[.timer t.id, .onopen j], by simp, by simp, ⟨hfires, hjready, trivial⟩, hnow,
      fun _ => ⟨hpolls, hasks (hasked.trans (congrArg (· ++ [j]) hrequests))⟩⟩

end LiTimeGateway.Dashboard.App
