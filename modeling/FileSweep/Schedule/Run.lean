import FileSweep.Gate
import FileSweep.Schedule.Rounds
import FileSweep.Schedule.Visit
import FileSweep.Sweep

/-! A sweep as its threads run it, with what every file comes to. While the scan goes on, the
command is run on the files already handed on: the chains of all of them advance side by side,
each step with whatever outcome it has. A file whose chain has ended is reported and then counted
at the gate. -/
namespace FileSweep

inductive Stage where
  | running (left : List Step)
  | stopped
  | reported
  /-- Reported, and counted at the gate. -/
  | marked
  deriving DecidableEq, Repr

/-- The command on one file: the file as it was handed on, and what is recorded of it. -/
structure Job where
  file : Task
  task : Task
  stage : Stage
  escaped : Option AccessError := none
  deriving Repr

namespace Job

def start (chain : Chain) (t : Task) : Job :=
  { file := t, task := { t with completed := false }, stage := .running chain.steps }

/-- The command on a file after one round of it, `left` being the steps behind that round. -/
def next (j : Job) (left : List Step) : Execution.Verdict → Job
  | .proceeds t => { j with task := t, stage := .running left }
  | .ends t escaped => { j with task := t, stage := .stopped, escaped }

def reports (j : Job) : List Task :=
  match j.stage with
  | .running _ => []
  | .stopped => []
  | .reported => [j.task]
  | .marked => [j.task]

end Job

/-- A sweep at one moment, with the files reported so far as they were then. -/
structure SweepRun where
  scan : Traversal
  jobs : List Job := []
  gate : Gate := {}
  reports : List Task := []
  deriving Repr

namespace SweepRun

def start (name : String) (survey : Survey) (cancelled : Bool) : SweepRun :=
  { scan := { visit := .waiting name survey, cancelled } }

/-- One step of a sweep. A round is run in any world and by any launcher, so its step can come out
in any way, whatever the other files have come to. -/
inductive Step (chain : Chain) (options : ExecutionOptions) (s : SweepRun) : SweepRun → Prop
  | scan {action : Action} {visit : Visit}
      (h : Visit.Step (fun _ => false) s.scan.cancelled s.scan.visit action visit) :
      Step chain options s
        { s with
          scan := s.scan.after action visit
          jobs := s.jobs ++ action.tasks.map (Job.start chain) }
  | cancel : Step chain options s { s with scan := { s.scan with cancelled := true } }
  | round {σ : Type} {launcher : Launcher σ} {w w' : World σ} {before after : List Job} {job : Job}
      {step : FileSweep.Step} {left : List FileSweep.Step} {verdict : Execution.Verdict}
      (hjobs : s.jobs = before ++ job :: after) (hstage : job.stage = .running (step :: left))
      (hround : Execution.round launcher options step left.isEmpty job.task w = (w', verdict)) :
      Step chain options s { s with jobs := before ++ job.next left verdict :: after }
  | report {before after : List Job} {job : Job} (hjobs : s.jobs = before ++ job :: after)
      (hstage : job.stage = .stopped) :
      Step chain options s
        { s with
          jobs := before ++ { job with stage := .reported } :: after
          reports := s.reports ++ [job.task] }
  | mark {before after : List Job} {job : Job} (hjobs : s.jobs = before ++ job :: after)
      (hstage : job.stage = .reported) :
      Step chain options s
        { s with
          jobs := before ++ { job with stage := .marked } :: after
          gate := s.gate.mark.1 }
  | publish {node : DirNode} {call : Gate × Bool} (hvisit : s.scan.visit = .returned node)
      (hcall : s.gate.setTotal? node.count = some call) :
      Step chain options s { s with gate := call.1 }

def Reaches (chain : Chain) (options : ExecutionOptions) : SweepRun → SweepRun → Prop :=
  Relation.ReflTransGen (Step chain options)

/-- Whether the sweep has come to its end with the given tree: the gate is open, and no error has
escaped from a file. -/
structure Returned (s : SweepRun) (node : DirNode) : Prop where
  scanned : s.scan.visit = .returned node
  released : s.gate.released = true
  marked : ∀ j ∈ s.jobs, j.stage = .marked
  contained : ∀ j ∈ s.jobs, j.escaped = none

def result (s : SweepRun) (settings : Settings) (chain : Chain) (node : DirNode)
    (cancelled : Bool) : SweepResult :=
  Sweep.conclude settings chain (Sweep.withOutcomes node (s.jobs.map Job.task)) cancelled

end SweepRun
end FileSweep
