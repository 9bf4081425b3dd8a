import LiTimeGateway.Dashboard.Polling
/-!
# Polling over every order of events

The page should poll with at most one interval, and with exactly one while its
current socket is open (`Polling`). `polling_iff` gives the event orders in
which it does: no open event comes while an interval is still live, and no
close event of a replaced socket comes while the current one is open.

A timer id belongs to one of the two variables for as long as the timer lives
(`Owned`). That is what lets `scheduleReconnect` stop everything
(`scheduleReconnect_timers`) and lets every other step leave the intervals
alone (`Quiet`).
-/

namespace LiTimeGateway.Dashboard.App

open Lib.Runs

/-- The live status-poll intervals. -/
def polls (s : App) : List Timer := s.timers.filter (·.callback = .requestStatus)

def IsOpen (s : App) : Prop := s.readyState = some .OPEN

structure Polling (s : App) : Prop where
  atMostOne : s.polls.length ≤ 1
  one_of_open : s.IsOpen → s.polls.length = 1

/-- The events the page is prepared for: an open event with no interval left
from an earlier socket, and no late close event under an open socket. -/
def InOrder (s : App) : Event → Prop
  | .onopen i => s.Possible (.onopen i) → s.polls = []
  | .onclose i => s.Possible (.onclose i) → s.IsOpen → s.socket = some i
  | _ => True

/-! ## Timers -/

theorem mem_polls {s : App} {t : Timer} : t ∈ s.polls ↔ t ∈ s.timers ∧ t.callback = .requestStatus := by
  simp [polls]

theorem mem_clearTimer {s : App} {id : Option Nat} {t : Timer} :
    t ∈ (s.clearTimer id).timers ↔ t ∈ s.timers ∧ some t.id ≠ id := by
  simp [clearTimer]

/-- Every live timer is the one its variable names, and the two variables never name one timer. -/
structure Owned (s : App) : Prop where
  reconnect : ∀ t ∈ s.timers, t.callback = .connect → s.reconnectTimer = some t.id
  poll : ∀ t ∈ s.timers, t.callback = .requestStatus → s.statusPollTimer = some t.id
  apart : ∀ r, s.reconnectTimer = some r → s.statusPollTimer ≠ some r
  reconnect_lt : ∀ r, s.reconnectTimer = some r → r < s.nextTimer
  poll_lt : ∀ r, s.statusPollTimer = some r → r < s.nextTimer

theorem clear_reconnect_polls {s : App} (h : s.Owned) : (s.clearTimer s.reconnectTimer).polls = s.polls := by
  rw [polls, clearTimer, List.filter_filter, polls]
  refine List.filter_congr fun t ht => ?_
  by_cases hc : t.callback = .requestStatus
  · have hne : some t.id ≠ s.reconnectTimer := fun he => h.apart t.id he.symm (h.poll t ht hc)
    simp [hc, hne]
  · simp [hc]

/-- After a close event nothing but the new reconnect timeout is live. -/
theorem scheduleReconnect_timers {s : App} (h : s.Owned) :
    s.scheduleReconnect.timers = [⟨s.nextTimer, .connect, s.reconnectDelay⟩] := by
  have hnone : ((s.clearTimer s.reconnectTimer).clearTimer s.statusPollTimer).timers = [] := by
    refine List.eq_nil_iff_forall_not_mem.2 fun t ht => ?_
    obtain ⟨ht, hpoll⟩ := mem_clearTimer.1 ht
    obtain ⟨ht, hrec⟩ := mem_clearTimer.1 ht
    cases hc : t.callback with
    | connect => exact hrec (h.reconnect t ht hc).symm
    | requestStatus => exact hpoll (h.poll t ht hc).symm
  rw [scheduleReconnect, setTimer, hnone]
  rfl

theorem scheduleReconnect_owned {s : App} (h : s.Owned) : s.scheduleReconnect.Owned := by
  have ht := scheduleReconnect_timers h
  constructor
  · intro t hmem _
    rw [ht, List.mem_singleton] at hmem
    subst hmem
    rfl
  · intro t hmem hc
    rw [ht, List.mem_singleton] at hmem
    subst hmem
    cases hc
  · intro r hr hp
    obtain rfl : s.nextTimer = r := Option.some.inj hr
    exact Nat.lt_irrefl _ (h.poll_lt _ hp)
  · intro r hr
    obtain rfl : s.nextTimer = r := Option.some.inj hr
    exact Nat.lt_succ_self _
  · intro r hr
    exact Nat.lt_succ_of_lt (h.poll_lt r hr)

/-! ## Ready states -/

theorem readyStateOf_setReady (s : App) (i j : Nat) (r : ReadyState) :
    (s.setReady i r).readyStateOf j = if i = j then (s.readyStateOf j).map fun _ => r else s.readyStateOf j := by
  by_cases h : i = j <;> simp [readyStateOf, setReady, h, Function.comp_def]

theorem isOpen_of_setReady {s : App} {i : Nat} {r : ReadyState} (hr : r ≠ .OPEN) (h : (s.setReady i r).IsOpen) :
    s.IsOpen := by
  obtain ⟨j, hj, h⟩ := Option.bind_eq_some_iff.1 h
  rw [readyStateOf_setReady] at h
  split at h
  · obtain ⟨_, _, rfl⟩ := Option.map_eq_some_iff.1 h
    exact absurd rfl hr
  · exact Option.bind_eq_some_iff.2 ⟨j, hj, h⟩

/-- A close event ends an open page exactly when it is the current socket's. -/
theorem isOpen_endSocket (s : App) (i : Nat) : (s.endSocket i).IsOpen ↔ s.IsOpen ∧ s.socket ≠ some i := by
  cases hs : s.socket with
  | none => simp [IsOpen, readyState, endSocket, hs]
  | some j =>
    by_cases h : i = j
    · simp [IsOpen, readyState, readyStateOf, endSocket, hs, h, Function.comp_def]
    · simp [IsOpen, readyState, readyStateOf, endSocket, hs, h, Ne.symm h]

/-! ## Steps that leave the intervals alone -/

/-- No interval comes or goes, no id is given out and the current socket does not open. -/
structure Quiet (s s' : App) : Prop where
  polls : s'.polls = s.polls
  timers : s'.timers ⊆ s.timers
  reconnectTimer : s'.reconnectTimer = s.reconnectTimer
  statusPollTimer : s'.statusPollTimer = s.statusPollTimer
  nextTimer : s'.nextTimer = s.nextTimer
  isOpen : s'.IsOpen → s.IsOpen

theorem Quiet.refl (s : App) : Quiet s s := ⟨rfl, fun _ h => h, rfl, rfl, rfl, id⟩

theorem Quiet.trans {s t u : App} (h : Quiet s t) (h' : Quiet t u) : Quiet s u :=
  ⟨h'.polls.trans h.polls, fun _ hm => h.timers (h'.timers hm), h'.reconnectTimer.trans h.reconnectTimer,
    h'.statusPollTimer.trans h.statusPollTimer, h'.nextTimer.trans h.nextTimer, fun ho => h.isOpen (h'.isOpen ho)⟩

theorem Owned.quiet {s s' : App} (h : s.Owned) (hq : Quiet s s') : s'.Owned := by
  constructor
  · intro t ht hc
    rw [hq.reconnectTimer]
    exact h.reconnect t (hq.timers ht) hc
  · intro t ht hc
    rw [hq.statusPollTimer]
    exact h.poll t (hq.timers ht) hc
  · rw [hq.reconnectTimer, hq.statusPollTimer]
    exact h.apart
  · rw [hq.reconnectTimer, hq.nextTimer]
    exact h.reconnect_lt
  · rw [hq.statusPollTimer, hq.nextTimer]
    exact h.poll_lt

theorem Polling.quiet {s s' : App} (h : s.Polling) (hq : Quiet s s') : s'.Polling := by
  refine ⟨?_, fun ho => ?_⟩ <;> rw [hq.polls]
  · exact h.atMostOne
  · exact h.one_of_open (hq.isOpen ho)

theorem setReady_quiet (s : App) (i : Nat) {r : ReadyState} (hr : r ≠ .OPEN) : Quiet s (s.setReady i r) :=
  ⟨rfl, fun _ h => h, rfl, rfl, rfl, isOpen_of_setReady hr⟩

theorem close_quiet (s : App) : Quiet s s.close := by
  unfold close
  split
  · exact .refl s
  · split
    · exact setReady_quiet s _ (by decide)
    · exact .refl s

theorem requestStatus_quiet (s : App) : Quiet s s.requestStatus := by
  unfold requestStatus
  split
  · exact ⟨rfl, fun _ h => h, rfl, rfl, rfl, id⟩
  · exact .refl s

theorem clear_reconnect_quiet {s : App} (h : s.Owned) : Quiet s (s.clearTimer s.reconnectTimer) :=
  ⟨clear_reconnect_polls h, fun _ hm => (mem_clearTimer.1 hm).1, rfl, rfl, rfl, id⟩

theorem connect_quiet {s : App} (h : s.Owned) : Quiet s s.connect := by
  refine (clear_reconnect_quiet h).trans ?_
  unfold connect
  dsimp only
  split
  · exact .refl _
  · refine ⟨rfl, fun _ hm => hm, rfl, rfl, rfl, fun ho => ?_⟩
    -- The new socket is the current one, and it is connecting.
    simp [IsOpen, readyState, readyStateOf] at ho

/-- A live timeout is the one `reconnectTimer` names, so its firing clears no interval. -/
theorem fire_quiet {s : App} (h : s.Owned) {t : Timer} (ht : t ∈ s.timers) : Quiet s (s.fire t) := by
  unfold fire
  cases hc : t.callback with
  | connect =>
    rw [← h.reconnect t ht hc]
    have hq := clear_reconnect_quiet h
    exact hq.trans (connect_quiet (h.quiet hq))
  | requestStatus => exact requestStatus_quiet s

/-! ## Runs -/

/-- Every step but an open or a close event is quiet. -/
theorem handle_cases {s : App} (h : s.Owned) (e : Event) :
    (∃ i, e = .onopen i) ∨ (∃ i, e = .onclose i) ∨ Quiet s (s.handle e) := by
  cases e with
  | onopen i => exact .inl ⟨i, rfl⟩
  | onclose i => exact .inr (.inl ⟨i, rfl⟩)
  | onmessage i => exact .inr (.inr (.refl s))
  | onerror i => exact .inr (.inr ((setReady_quiet s i (by decide)).trans (close_quiet _)))
  | closing i => exact .inr (.inr (setReady_quiet s i (by decide)))
  | online => exact .inr (.inr (connect_quiet h))
  | offline => exact .inr (.inr (close_quiet s))
  | timer id =>
    refine .inr (.inr ?_)
    show Quiet s ((s.timers.find? (·.id = id)).elim s s.fire)
    cases hf : s.timers.find? (·.id = id) with
    | none => exact .refl s
    | some t => exact fire_quiet h (List.mem_of_find?_eq_some hf)

@[simp] theorem requestStatus_timers (s : App) : s.requestStatus.timers = s.timers := by
  unfold requestStatus; split <;> rfl

@[simp] theorem requestStatus_reconnectTimer (s : App) : s.requestStatus.reconnectTimer = s.reconnectTimer := by
  unfold requestStatus; split <;> rfl

@[simp] theorem requestStatus_nextTimer (s : App) : s.requestStatus.nextTimer = s.nextTimer := by
  unfold requestStatus; split <;> rfl

/-- The open handler adds one interval, whatever is live already. -/
theorem openHandler_timers (s : App) :
    s.openHandler.timers = s.timers ++ [⟨s.nextTimer, .requestStatus, 3000⟩] := by
  simp [openHandler, setTimer]

theorem openHandler_polls (s : App) : s.openHandler.polls = s.polls ++ [⟨s.nextTimer, .requestStatus, 3000⟩] := by
  simp [polls, openHandler_timers]

theorem openHandler_owned {s : App} (h : s.Owned) (hnone : s.polls = []) : s.openHandler.Owned := by
  have hrec : s.openHandler.reconnectTimer = s.reconnectTimer := by simp [openHandler, setTimer]
  have hpoll : s.openHandler.statusPollTimer = some s.nextTimer := by simp [openHandler]
  have hnext : s.openHandler.nextTimer = s.nextTimer + 1 := by simp [openHandler, setTimer]
  constructor
  · intro t ht hc
    rw [openHandler_timers, List.mem_append, List.mem_singleton] at ht
    rcases ht with ht | rfl
    · rw [hrec]
      exact h.reconnect t ht hc
    · cases hc
  · intro t ht hc
    rw [openHandler_timers, List.mem_append, List.mem_singleton] at ht
    rcases ht with ht | rfl
    · have hm : t ∈ s.polls := mem_polls.2 ⟨ht, hc⟩
      rw [hnone] at hm
      cases hm
    · exact hpoll
  · intro r hr hp
    rw [hrec] at hr
    rw [hpoll] at hp
    obtain rfl := Option.some.inj hp
    exact Nat.lt_irrefl _ (h.reconnect_lt _ hr)
  · intro r hr
    rw [hrec] at hr
    rw [hnext]
    exact Nat.lt_succ_of_lt (h.reconnect_lt r hr)
  · intro r hr
    rw [hpoll] at hr
    obtain rfl := Option.some.inj hr
    rw [hnext]
    exact Nat.lt_succ_self _

theorem scheduleReconnect_polls {s : App} (h : s.Owned) : s.scheduleReconnect.polls = [] := by
  simp [polls, scheduleReconnect_timers h]

theorem endSocket_owned {s : App} (h : s.Owned) (i : Nat) : (s.endSocket i).Owned :=
  ⟨h.reconnect, h.poll, h.apart, h.reconnect_lt, h.poll_lt⟩

theorem setReady_owned {s : App} (h : s.Owned) (i : Nat) (r : ReadyState) : (s.setReady i r).Owned :=
  ⟨h.reconnect, h.poll, h.apart, h.reconnect_lt, h.poll_lt⟩

/-- What every run in order keeps. -/
def Inv (s : App) : Prop := s.Owned ∧ s.Polling

theorem load_inv : load.Inv := by
  refine ⟨⟨?_, ?_, ?_, ?_, ?_⟩, ?_, ?_⟩ <;> simp [load, connect, clearTimer, polls, IsOpen, readyState, readyStateOf]

theorem deliver_inv (s : App) (e : Event) (h : s.Inv) (hin : s.InOrder e) : (s.deliver e).Inv := by
  unfold deliver
  split
  · rename_i hp
    rcases handle_cases h.1 e with ⟨i, rfl⟩ | ⟨i, rfl⟩ | hq
    · have hnone : (s.setReady i .OPEN).polls = [] := hin hp
      refine ⟨openHandler_owned (setReady_owned h.1 i _) hnone, ?_, fun _ => ?_⟩ <;>
        simp [handle, openHandler_polls, hnone]
    · -- Nothing polls any more; in order, that socket was the current one or none is open.
      have ho := endSocket_owned h.1 i
      refine ⟨scheduleReconnect_owned ho, ?_, fun hopen => ?_⟩
      · simp [handle, scheduleReconnect_polls ho]
      · obtain ⟨hopen, hne⟩ := (isOpen_endSocket s i).1 hopen
        exact absurd (hin hp hopen) hne
    · exact ⟨h.1.quiet hq, h.2.quiet hq⟩
  · exact h

/-- An event out of order leaves two intervals live, or an open socket with none. -/
theorem not_polling_of_not_inOrder (s : App) (e : Event) (h : s.Inv) (hout : ¬ s.InOrder e) :
    ¬ (s.deliver e).Polling := by
  intro hpoll
  cases e with
  | onopen i =>
    obtain ⟨hp, hlive⟩ := Classical.not_imp.1 hout
    have hlen := hpoll.atMostOne
    rw [deliver, if_pos hp] at hlen
    simp only [handle, openHandler_polls, List.length_append, List.length_singleton] at hlen
    exact hlive (List.length_eq_zero_iff.1 (Nat.le_zero.1 (Nat.le_of_succ_le_succ hlen)))
  | onclose i =>
    obtain ⟨hp, hlate⟩ := Classical.not_imp.1 hout
    have hlen := hpoll.one_of_open
    rw [deliver, if_pos hp] at hlen
    have hone := hlen ((isOpen_endSocket s i).2 (Classical.not_imp.1 hlate))
    simp [handle, scheduleReconnect_polls (endSocket_owned h.1 i)] at hone
  | onmessage i | onerror i | closing i | online | offline | timer id => exact hout trivial

/-- The page polls as it should in every state of a run exactly when every open
event of the run comes while no interval is live, and no close event of a
replaced socket comes while the current one is open. -/
theorem polling_iff (es : List Event) : Throughout deliver Polling load es ↔ Along deliver InOrder load es :=
  throughout_iff_along (fun _ h => h.2) (fun s e h hin => deliver_inv s e h hin)
    (fun s e h hout => not_polling_of_not_inOrder s e h hout) load_inv es

/-- The network drops and returns before the first socket's close event. If the
first socket had opened, its interval is still live when the second one opens;
if it had not, its late close event stops the polling of its successor. -/
theorem late_close_breaks_polling :
    ¬ Throughout deliver Polling load [.onopen 0, .offline, .online, .onopen 1] ∧
    ¬ Throughout deliver Polling load [.offline, .online, .onopen 1, .onclose 0] := by
  constructor
  · rintro ⟨-, -, -, -, hpoll⟩
    exact absurd hpoll.atMostOne (by decide)
  · rintro ⟨-, -, -, -, hpoll⟩
    exact absurd (hpoll.one_of_open (by unfold IsOpen; decide)) (by decide)

end LiTimeGateway.Dashboard.App
