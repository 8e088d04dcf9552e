/-! A matched file together with what running a command on it has left. -/
namespace FileSweep

/-- One file of a sweep. The outputs and the exit code are those of the last step run,
and `completed` tells that the command ran to its end on this file. -/
structure Task where
  path : String
  /-- The path seen from the root of the sweep. -/
  relative : String
  name : String
  stdout : String := ""
  stderr : String := ""
  exitCode : Int := 0
  completed : Bool := false
  deriving DecidableEq, Repr, Inhabited

namespace Task

/-- A file passes when its command ran to the end and gave the expected exit code. -/
def passes (t : Task) (passCode : Int) : Bool := t.completed && t.exitCode == passCode

@[simp] theorem passes_iff (t : Task) (passCode : Int) :
    t.passes passCode = true ↔ t.completed = true ∧ t.exitCode = passCode := by
  simp [passes]

end Task
end FileSweep
