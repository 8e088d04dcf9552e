import FileSweep.Schedule.Visit

/-! A scan with the event by which it is cancelled. The event may be there before the scan begins,
shared with whoever may cancel it; where there is none, the scan is not cancelled, and to cancel it
is to bring in an event that is set. -/
namespace FileSweep

structure EventScan where
  visit : Visit
  /-- Whether the event is set, if there is one. -/
  event : Option Bool := none
  /-- The files handed on in their order. -/
  dispatched : List Task := []
  deriving Repr

namespace EventScan

variable {interrupts : Task → Bool} {s t : EventScan}

def cancelled (s : EventScan) : Bool := s.event == some true

def cancel (s : EventScan) : EventScan := { s with event := some true }

def after (s : EventScan) (action : Action) (visit : Visit) : EventScan :=
  { visit
    event := if action.cancels then some true else s.event
    dispatched := s.dispatched ++ action.tasks }

def Advance (interrupts : Task → Bool) (s t : EventScan) : Prop :=
  ∃ action visit, Visit.Step interrupts s.cancelled s.visit action visit ∧ t = s.after action visit

/-- Some visit makes a step, or the scan is cancelled from outside. -/
def Step (interrupts : Task → Bool) (s t : EventScan) : Prop := Advance interrupts s t ∨ t = s.cancel

def Reaches (interrupts : Task → Bool) : EventScan → EventScan → Prop :=
  Relation.ReflTransGen (Step interrupts)

/-- The scan without its event, of which it is only asked whether it is set. -/
def traversal (s : EventScan) : Traversal :=
  { visit := s.visit, cancelled := s.cancelled, dispatched := s.dispatched }

theorem cancelled_iff (s : EventScan) : s.cancelled = true ↔ s.event = some true := by
  simp [cancelled]

theorem traversal_cancel (s : EventScan) :
    s.cancel.traversal = { s.traversal with cancelled := true } := rfl

theorem traversal_after (s : EventScan) (action : Action) (visit : Visit) :
    (s.after action visit).traversal = s.traversal.after action visit := by
  cases h : action.cancels <;> simp [after, traversal, Traversal.after, cancelled, h]

theorem Advance.traversal (h : Advance interrupts s t) :
    Traversal.Advance interrupts s.traversal t.traversal := by
  obtain ⟨action, visit, hvisit, rfl⟩ := h
  exact ⟨action, visit, hvisit, traversal_after s action visit⟩

theorem Reaches.traversal (h : Reaches interrupts s t) :
    Traversal.Reaches interrupts s.traversal t.traversal := by
  refine Relation.ReflTransGen.lift EventScan.traversal (fun a b hstep => ?_) _ _ h
  rcases hstep with hadvance | rfl
  · exact Or.inl hadvance.traversal
  · exact Or.inr (traversal_cancel a)

end EventScan
end FileSweep
