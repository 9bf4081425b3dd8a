import LiTimeGateway.Lib.Runs
/-!
# An outbox

Items are appended to a queue and leave it from the front: a batch that was
delivered, or the whole queue when it overflows and is given up. The departures
are kept in the order they happened, so the items appended are always the
departures one after the other followed by what is still queued.
-/

namespace Lib.Outbox

variable {α : Type*}

/-- Items that left the queue together. -/
inductive Departure (α : Type*) where
  | delivered (items : List α)
  | lost (items : List α)

namespace Departure

def items : Departure α → List α
  | delivered xs => xs
  | lost xs => xs

def deliveredItems : Departure α → List α
  | delivered xs => xs
  | lost _ => []

theorem deliveredItems_sublist (d : Departure α) : d.deliveredItems.Sublist d.items := by
  cases d with
  | delivered xs => exact List.Sublist.refl xs
  | lost xs => exact List.nil_sublist xs

end Departure

/-- The items so far: appended, gone, and still queued. -/
structure State (α : Type*) where
  appended : List α := []
  departures : List (Departure α) := []
  queued : List α := []

inductive Op (α : Type*) where
  | append (x : α)
  | deliver (count : Nat)
  | overflow

namespace State

def step (o : State α) : Op α → State α
  | .append x => { o with appended := o.appended ++ [x], queued := o.queued ++ [x] }
  | .deliver count =>
    { o with departures := o.departures ++ [.delivered (o.queued.take count)], queued := o.queued.drop count }
  | .overflow => { o with departures := o.departures ++ [.lost o.queued], queued := [] }

/-- Every item appended left with one of the departures or is still queued, in order. -/
def Conserved (o : State α) : Prop := o.appended = o.departures.flatMap Departure.items ++ o.queued

theorem conserved_empty : Conserved ({} : State α) := rfl

theorem conserved_step {o : State α} (h : o.Conserved) (op : Op α) : (o.step op).Conserved := by
  unfold Conserved at *
  cases op with
  | append x => simp [step, h]
  | deliver count => simp [step, h, Departure.items]
  | overflow => simp [step, h, Departure.items]

theorem conserved_run {o : State α} (h : o.Conserved) (ops : List (Op α)) : (Runs.run step o ops).Conserved := by
  have hstep : ∀ (o : State α) (op : Op α), o.Conserved → True → (o.step op).Conserved :=
    fun _ op ho _ => conserved_step ho op
  exact Runs.run_inv hstep h (Runs.along_true (fun _ _ => trivial) o ops)

theorem appended_prefix (o : State α) (ops : List (Op α)) : o.appended <+: (Runs.run step o ops).appended := by
  induction ops generalizing o with
  | nil => exact List.prefix_refl _
  | cons op ops ih =>
    refine List.IsPrefix.trans ?_ (ih (o.step op))
    cases op with
    | append x => exact List.prefix_append _ _
    | deliver count => exact List.prefix_refl _
    | overflow => exact List.prefix_refl _

theorem Conserved.suffix {o : State α} (h : o.Conserved) : o.queued <:+ o.appended :=
  ⟨_, h.symm⟩

/-- What was delivered, then what is queued: the appended items without the lost ones. -/
theorem Conserved.sublist {o : State α} (h : o.Conserved) :
    (o.departures.flatMap Departure.deliveredItems ++ o.queued).Sublist o.appended := by
  rw [h]
  refine List.Sublist.append ?_ (List.Sublist.refl _)
  induction o.departures with
  | nil => exact List.Sublist.refl _
  | cons d ds ih => exact List.Sublist.append d.deliveredItems_sublist ih

end State

/-! ## Items that stand for others -/

variable {β : Type*} (f : α → β)

def Op.map : Op α → Op β
  | .append x => .append (f x)
  | .deliver count => .deliver count
  | .overflow => .overflow

def Departure.map : Departure α → Departure β
  | .delivered xs => .delivered (xs.map f)
  | .lost xs => .lost (xs.map f)

def State.map (o : State α) : State β :=
  ⟨o.appended.map f, o.departures.map (Departure.map f), o.queued.map f⟩

theorem State.map_step (o : State α) (op : Op α) : (o.step op).map f = (o.map f).step (op.map f) := by
  cases op <;> simp [step, map, Op.map, Departure.map]

theorem State.map_run (o : State α) (ops : List (Op α)) :
    (Runs.run step o ops).map f = Runs.run step (o.map f) (ops.map (Op.map f)) := by
  induction ops generalizing o with
  | nil => rfl
  | cons op ops ih => rw [Runs.run_cons, ih, State.map_step, List.map_cons, Runs.run_cons]

end Lib.Outbox
