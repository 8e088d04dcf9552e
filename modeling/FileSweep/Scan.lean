import FileSweep.Log
import FileSweep.Survey
import FileSweep.Tree

/-! Scanning: visiting the directories of a survey, handing each matched file on as soon
as its directory is listed, and adding up the counts. Cancellation is looked at when a
visit begins, so a directory that is being visited is finished first. -/
namespace FileSweep

/-- What the receiver of a file answers: to go on, to start no further visit, or to break
off, in which case the file was not taken. -/
inductive Reply where
  | go
  | cancel
  | interrupt
  deriving DecidableEq, Repr

inductive ScanError where
  | notDirectory (path : String)
  | invalidPattern (pattern : String)
  deriving DecidableEq, Repr

def ScanError.message : ScanError → String
  | notDirectory path => "invalid DIR argument: " ++ path
  | invalidPattern pattern => (ListError.invalidPattern pattern).message

structure ScanState where
  cancelled : Bool := false
  dispatched : List Task := []
  log : List Record := []
  deriving Repr

namespace ScanState

def note (s : ScanState) (level : Level) (message : String) : ScanState :=
  { s with log := s.log ++ [⟨level, message⟩] }

/-- Hands on one file; tells whether the receiver broke off. -/
def dispatch (reply : Task → Reply) (s : ScanState) (t : Task) : ScanState × Bool :=
  match reply t with
  | .go => ({ s with dispatched := s.dispatched ++ [t] }, false)
  | .cancel => ({ s with dispatched := s.dispatched ++ [t], cancelled := true }, false)
  | .interrupt => (s, true)

def dispatchAll (reply : Task → Reply) : ScanState → List Task → ScanState × Bool
  | s, [] => (s, false)
  | s, t :: ts =>
    match dispatch reply s t with
    | (s, true) => (s, true)
    | (s, false) => dispatchAll reply s ts

def noteRefusal (s : ScanState) (path : String) (times : Nat) : ScanState :=
  { s with
    log := s.log ++ List.replicate times
      ⟨.warning, "warning: " ++ (ListError.accessDenied path).message⟩ }

end ScanState

/-- The request for a scan. Without a receiver the files are only listed. -/
structure ScanRequest where
  root : String
  pattern : String := "*.*"
  recurse : Bool := true
  deriving Repr

namespace Scan

/-- Adds the finished visit of a child to its parent. -/
def adopt (parent child : DirNode) : DirNode :=
  { parent with dirs := parent.dirs ++ [child], count := parent.count + child.count }

def visitMessage (path : String) (node : DirNode) : String :=
  "DIRSCAN: " ++ path ++ " subdirs=" ++ toString node.dirs.length ++ " files=" ++
    toString node.files.length

mutual

/-- Visits a directory. There is no node when the receiver broke off. -/
def visit (recurse : Bool) (reply : Task → Reply) (name : String) :
    Survey → ScanState → Option DirNode × ScanState
  | ⟨path, refused, files, subdirs⟩, s =>
    if s.cancelled then (some { name }, s)
    else
      let s := if refused then s.noteRefusal path (if recurse then 2 else 1) else s
      match s.dispatchAll reply files with
      | (s, true) => (none, s)
      | (s, false) =>
        let node : DirNode := { name, files, count := files.length }
        match visitAll recurse reply node subdirs s with
        | (none, s) => (none, { s with cancelled := true }.note .debug
            ("DIRSCAN: interrupted below " ++ path))
        | (some node, s) => (some node, s.note .debug (visitMessage path node))

def visitAll (recurse : Bool) (reply : Task → Reply) (node : DirNode) :
    List Survey → ScanState → Option DirNode × ScanState
  | [], s => (some node, s)
  | sub :: subs, s =>
    match visit recurse reply (Path.base sub.path) sub s with
    | (none, s) => (none, s)
    | (some child, s) => visitAll recurse reply (adopt node child) subs s

end

/-- The end of a scan: the tree, unless the receiver broke off. -/
structure Outcome where
  tree : Option DirNode
  state : ScanState
  deriving Repr

def run (h : Host) (request : ScanRequest) (reply : Task → Reply) (cancelled : Bool) :
    Except ScanError Outcome :=
  let root := h.absolute request.root
  match h.entry? root with
  | some (.dir children) =>
    match Glob.compile? request.pattern with
    | none => .error (.invalidPattern request.pattern)
    | some glob =>
      let survey := Survey.ofEntry h ⟨root, glob, request.recurse⟩ root (.dir children)
      let s := { cancelled : ScanState }.note .debug
        ("DIRSCAN: start root=" ++ root ++ " files=" ++ request.pattern ++ " recurse=" ++
          (if request.recurse then "True" else "False"))
      match visit request.recurse reply root survey s with
      | (none, s) => .ok ⟨none, s⟩
      | (some node, s) =>
        .ok ⟨some node, s.note .debug
          ("DIRSCAN: finished root=" ++ root ++ " num_files=" ++ toString node.count)⟩
  | _ => .error (.notDirectory request.root)

end Scan
end FileSweep
