import FileSweep.Log

/-! The gate that holds a sweep until all its work is done. It opens once, when the total
number of files is known and as many have finished, whichever comes last. -/
namespace FileSweep

structure Gate where
  total : Option Int := none
  completed : Nat := 0
  released : Bool := false
  deriving DecidableEq, Repr

namespace Gate

/-- Opens the gate if it is shut and everything counted has finished; tells whether this
call opened it. -/
def tryRelease (g : Gate) : Gate × Bool :=
  if g.released = false ∧ g.total = some (g.completed : Int) then
    ({ g with released := true }, true)
  else (g, false)

def mark (g : Gate) : Gate × Bool := tryRelease { g with completed := g.completed + 1 }

/-- Publishes the total, which can be done once. -/
def setTotal? (g : Gate) (total : Int) : Option (Gate × Bool) :=
  match g.total with
  | some _ => none
  | none => some (tryRelease { g with total := some total })

def totalTwice : String := "total file count was already set"

def releaseRecord (g : Gate) : Record :=
  ⟨.debug, "SYNC: released after " ++ toString g.completed ++ " of " ++
    toString (g.total.getD 0) ++ " files"⟩

@[simp] theorem tryRelease_total (g : Gate) : g.tryRelease.1.total = g.total := by
  unfold tryRelease; split <;> rfl
@[simp] theorem tryRelease_completed (g : Gate) : g.tryRelease.1.completed = g.completed := by
  unfold tryRelease; split <;> rfl
@[simp] theorem mark_completed (g : Gate) : g.mark.1.completed = g.completed + 1 := by
  simp [mark]
@[simp] theorem mark_total (g : Gate) : g.mark.1.total = g.total := by simp [mark]

end Gate
end FileSweep
