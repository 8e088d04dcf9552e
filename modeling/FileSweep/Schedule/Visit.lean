import FileSweep.Scan
import Mathlib.Logic.Relation

/-! A scan as its threads run it. Every directory has a visit of its own: the visits of
sibling directories go on side by side and end in any order, and the visit above them adds up
their counts in the order in which it comes to them. A schedule is one way in which all this
can happen; visiting the directories one after another is one of them. -/
namespace FileSweep

/-- How far the visit of a directory has come. -/
inductive Visit where
  | waiting (name : String) (survey : Survey)
  /-- The directory is listed and its files are being handed on. -/
  | sending (name : String) (sent left : List Task) (subdirs : List Survey)
  /-- The subdirectories are being visited, and those that have ended are counted. -/
  | joining (name : String) (files : List Task) (count : Int) (children : List Visit)
  | returned (node : DirNode)
  /-- Ended, and counted by the visit above. -/
  | merged (node : DirNode)
  /-- A visit below has broken off, and the others are only waited for. -/
  | leaving (files : List Task) (children : List Visit)
  /-- Broken off, after some files were handed on here and below. -/
  | raised (sent : List Task)
  deriving Repr

/-- What others can see of one step of a visit. -/
inductive Action where
  | quiet
  | dispatched (task : Task)
  | noticed
  deriving Repr

def Action.tasks : Action → List Task
  | dispatched t => [t]
  | _ => []

def Action.cancels : Action → Bool
  | noticed => true
  | _ => false

namespace Visit

def start (survey : Survey) : Visit := .waiting (Path.base survey.path) survey

def ended : Visit → Bool
  | returned _ => true
  | merged _ => true
  | raised _ => true
  | _ => false

mutual

def sent : Visit → List Task
  | waiting _ _ => []
  | sending _ sent _ _ => sent
  | joining _ files _ children => files ++ sentAll children
  | returned node => node.allFiles
  | merged node => node.allFiles
  | leaving files children => files ++ sentAll children
  | raised sent => sent

def sentAll : List Visit → List Task
  | [] => []
  | v :: vs => v.sent ++ sentAll vs

end

/-- One step of a visit or of a visit below it. The receiver of the files breaks off at those
that `interrupts` tells; `cancelled` is looked at only when a visit begins. -/
inductive Step (interrupts : Task → Bool) (cancelled : Bool) : Visit → Action → Visit → Prop
  | skip (name : String) (survey : Survey) (h : cancelled = true) :
      Step interrupts cancelled (waiting name survey) .quiet (returned { name })
  | list (name : String) (survey : Survey) (h : cancelled = false) :
      Step interrupts cancelled (waiting name survey) .quiet
        (sending name [] survey.files survey.subdirs)
  | send (name : String) (sent left : List Task) (subdirs : List Survey) (t : Task)
      (h : interrupts t = false) :
      Step interrupts cancelled (sending name sent (t :: left) subdirs) (.dispatched t)
        (sending name (sent ++ [t]) left subdirs)
  | interrupt (name : String) (sent left : List Task) (subdirs : List Survey) (t : Task)
      (h : interrupts t = true) :
      Step interrupts cancelled (sending name sent (t :: left) subdirs) .quiet (raised sent)
  | descend (name : String) (sent : List Task) (subdirs : List Survey) :
      Step interrupts cancelled (sending name sent [] subdirs) .quiet
        (joining name sent sent.length (subdirs.map start))
  | inside (name : String) (files : List Task) (count : Int) (before after : List Visit)
      {child child' : Visit} {action : Action} (h : Step interrupts cancelled child action child') :
      Step interrupts cancelled (joining name files count (before ++ child :: after)) action
        (joining name files count (before ++ child' :: after))
  | merge (name : String) (files : List Task) (count : Int) (before after : List Visit)
      (node : DirNode) :
      Step interrupts cancelled (joining name files count (before ++ returned node :: after)) .quiet
        (joining name files (count + node.count) (before ++ merged node :: after))
  | finish (name : String) (files : List Task) (count : Int) (nodes : List DirNode) :
      Step interrupts cancelled (joining name files count (nodes.map merged)) .quiet
        (returned ⟨name, files, nodes, count⟩)
  /-- A visit below has broken off, and the scan is cancelled for it. To take notice of the break and
  to set the event are two operations of a thread; this step is the moment at which the event is set. -/
  | notice (name : String) (files : List Task) (count : Int) (before after : List Visit)
      (sent : List Task) :
      Step interrupts cancelled (joining name files count (before ++ raised sent :: after)) .noticed
        (leaving files (before ++ raised sent :: after))
  | insideLeaving (files : List Task) (before after : List Visit) {child child' : Visit}
      {action : Action} (h : Step interrupts cancelled child action child') :
      Step interrupts cancelled (leaving files (before ++ child :: after)) action
        (leaving files (before ++ child' :: after))
  | leave (files : List Task) (children : List Visit) (h : ∀ c ∈ children, c.ended = true) :
      Step interrupts cancelled (leaving files children) .quiet (raised (files ++ sentAll children))

end Visit

/-- A scan at one moment: the visit of the root, whether the scan is cancelled, and the files
handed on in their order. -/
structure Traversal where
  visit : Visit
  cancelled : Bool := false
  dispatched : List Task := []
  deriving Repr

namespace Traversal

def after (t : Traversal) (action : Action) (visit : Visit) : Traversal :=
  { visit
    cancelled := t.cancelled || action.cancels
    dispatched := t.dispatched ++ action.tasks }

def Advance (interrupts : Task → Bool) (t u : Traversal) : Prop :=
  ∃ action visit, Visit.Step interrupts t.cancelled t.visit action visit ∧
    u = t.after action visit

/-- Some visit makes a step, or the scan is cancelled from outside. -/
def Step (interrupts : Task → Bool) (t u : Traversal) : Prop :=
  Advance interrupts t u ∨ u = { t with cancelled := true }

def Reaches (interrupts : Task → Bool) : Traversal → Traversal → Prop :=
  Relation.ReflTransGen (Step interrupts)

end Traversal
end FileSweep
