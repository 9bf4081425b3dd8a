import Mathlib.Data.List.Basic
/-!
# Programs interrupted by events

A program is a list of statements, run in order on a state that events change
as well. `Interleaved program s t` says that `t` can be the state after the
program when any events come before, between and after its statements.

The rule is `Interleaved.observe`: what no event changes, and each statement
changes in a way that depends on nothing else, is after any interleaving what it
is after the program alone.
-/

namespace Lib.Interleaving

variable {σ ε κ ω : Type*} {exec : κ → σ → σ} {event : ε → σ → σ}

/-- The state after the program alone. -/
def runAlone (exec : κ → σ → σ) (program : List κ) (s : σ) : σ := program.foldl (fun s c => exec c s) s

inductive Interleaved (exec : κ → σ → σ) (event : ε → σ → σ) : List κ → σ → σ → Prop where
  | done (s : σ) : Interleaved exec event [] s s
  | event {program : List κ} {s t : σ} (e : ε) (rest : Interleaved exec event program (event e s) t) :
    Interleaved exec event program s t
  | statement {program : List κ} {c : κ} {s t : σ} (rest : Interleaved exec event program (exec c s) t) :
    Interleaved exec event (c :: program) s t

theorem Interleaved.trans {program program' : List κ} {s t u : σ} (h : Interleaved exec event program s t)
    (h' : Interleaved exec event program' t u) : Interleaved exec event (program ++ program') s u := by
  induction h with
  | done s => exact h'
  | event e _ ih => exact .event e (ih h')
  | statement _ ih => exact .statement (ih h')

/-- The program alone is one of the interleavings. -/
theorem interleaved_alone (program : List κ) (s : σ) :
    Interleaved exec event program s (runAlone exec program s) := by
  induction program generalizing s with
  | nil => exact .done s
  | cons c program ih => exact .statement (ih (exec c s))

theorem Interleaved.observe {observe : σ → ω} (hevent : ∀ e s, observe (event e s) = observe s)
    (hexec : ∀ c s t, observe s = observe t → observe (exec c s) = observe (exec c t)) {program : List κ} {s t : σ}
    (h : Interleaved exec event program s t) : observe t = observe (runAlone exec program s) := by
  have hcongr : ∀ (program : List κ) (s t : σ), observe s = observe t →
      observe (runAlone exec program s) = observe (runAlone exec program t) := by
    intro program
    induction program with
    | nil => exact fun _ _ hst => hst
    | cons c program ih => exact fun s t hst => ih _ _ (hexec c s t hst)
  induction h with
  | done s => rfl
  | event e _ ih => exact ih.trans (hcongr _ _ _ (hevent e _))
  | statement _ ih => exact ih

end Lib.Interleaving
