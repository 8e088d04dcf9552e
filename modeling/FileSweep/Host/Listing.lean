import FileSweep.Glob
import FileSweep.Host.Basic

/-! Listing one directory: the files that match a pattern, and the directories. Both are
paths that begin with the directory as given, in the order of their characters. -/
namespace FileSweep

inductive ListError where
  | invalidPattern (pattern : String)
  /-- The directory refuses to be listed, as the sweep reports it. -/
  | accessDenied (dir : String)
  | access (error : AccessError)
  deriving DecidableEq, Repr

def ListError.message : ListError → String
  | invalidPattern pattern => "invalid FILES argument: " ++ pattern
  | accessDenied dir => "access denied: " ++ dir
  | access error => error.message

namespace Host

def scanDir (h : Host) (dir : String) : Except ListError (List (String × Entry)) :=
  match h.nameFault? dir with
  | some e => .error (.access e)
  | none =>
    if h.refused.contains (h.absolute dir) then .error (.accessDenied dir)
    else
      match h.locate dir with
      | .error e => .error (.access (.os e dir))
      | .ok (.free _ _) => .error (.access (.os .noEntry dir))
      | .ok (.taken names) =>
        match h.root.at? names with
        | some (.dir children) => .ok children
        | _ => .error (.access (.os .notDirectory dir))

def sortPaths (paths : List String) : List String := paths.mergeSort fun a b => a ≤ b

/-- Whether the entry of a directory is a file; a link is followed. -/
def entryIsFile (h : Host) (dir : String) (child : String × Entry) : Bool :=
  match child.2 with
  | .link _ => h.isFile (Path.join dir child.1)
  | e => e.isRegular

def listFiles (h : Host) (dir pattern : String) : Except ListError (List String) :=
  match Glob.compile? pattern with
  | none => .error (.invalidPattern pattern)
  | some glob =>
    (h.scanDir dir).map fun children =>
      sortPaths ((children.filter fun c => glob.matches c.1 && h.entryIsFile dir c).map
        fun c => Path.join dir c.1)

/-- The directories in a directory, links to directories not among them. -/
def listDirs (h : Host) (dir : String) : Except ListError (List String) :=
  (h.scanDir dir).map fun children =>
    sortPaths ((children.filter fun c => c.2.isDir).map fun c => Path.join dir c.1)

end Host
end FileSweep
