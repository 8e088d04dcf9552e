import FileSweep.Gate
import FileSweep.Schedule.Visit

/-! A sweep as its threads run it. While the scan goes on, the command is run on the files
already handed on; every execution reports its file and then counts it at the gate, whenever
it is done. The total is published once the scan has returned. -/
namespace FileSweep

/-- How far the execution on one file has come. -/
inductive Phase where
  | running
  | reported
  /-- Reported, and counted at the gate. -/
  | marked
  deriving DecidableEq, Repr

structure SweepState where
  scan : Traversal
  executions : List (Task × Phase) := []
  gate : Gate := {}
  /-- How many calls have opened the gate. -/
  openings : Nat := 0
  deriving Repr

namespace SweepState

def start (name : String) (survey : Survey) (cancelled : Bool) : SweepState :=
  { scan := { visit := .waiting name survey, cancelled } }

/-- The sweep after a call at its gate that has led to the given gate. -/
def passGate (s : SweepState) (call : Gate × Bool) : SweepState :=
  { s with gate := call.1, openings := s.openings + call.2.toNat }

/-- One step of a sweep: of its scan, of an execution, or of the thread that waits for both. -/
inductive Step (interrupts : Task → Bool) (s : SweepState) : SweepState → Prop
  | scan {action : Action} {visit : Visit}
      (h : Visit.Step interrupts s.scan.cancelled s.scan.visit action visit) :
      Step interrupts s
        { s with
          scan := s.scan.after action visit
          executions := s.executions ++ action.tasks.map fun t => (t, .running) }
  | cancel : Step interrupts s { s with scan := { s.scan with cancelled := true } }
  | report {before after : List (Task × Phase)} {t : Task}
      (h : s.executions = before ++ (t, .running) :: after) :
      Step interrupts s { s with executions := before ++ (t, .reported) :: after }
  | mark {before after : List (Task × Phase)} {t : Task}
      (h : s.executions = before ++ (t, .reported) :: after) :
      Step interrupts s
        (({ s with executions := before ++ (t, .marked) :: after } : SweepState).passGate s.gate.mark)
  | publish {node : DirNode} {call : Gate × Bool} (hvisit : s.scan.visit = .returned node)
      (hcall : s.gate.setTotal? node.count = some call) :
      Step interrupts s (s.passGate call)

def Reaches (interrupts : Task → Bool) : SweepState → SweepState → Prop :=
  Relation.ReflTransGen (Step interrupts)

def Scanned (s : SweepState) : Prop := ∃ node, s.scan.visit = .returned node

def Published (s : SweepState) : Prop := s.gate.total.isSome = true

def AllReported (s : SweepState) : Prop := ∀ e ∈ s.executions, e.2 ≠ .running

def AllMarked (s : SweepState) : Prop := ∀ e ∈ s.executions, e.2 = .marked

end SweepState
end FileSweep
