import FileSweep.Host.Listing
import FileSweep.Task

/-! The listings of every directory that a sweep can reach, taken as one tree. A symbolic
link to a directory is not entered, so the tree is as deep as the directories are. -/
namespace FileSweep

/-- The listings of one directory. A directory that refuses to be listed has none. -/
structure Survey where
  path : String
  refused : Bool := false
  files : List Task := []
  subdirs : List Survey := []
  deriving Repr, Inhabited

namespace Survey

/-- What is listed: the root, the pattern, and whether subdirectories are entered. -/
structure Scope where
  root : String
  glob : Glob
  recurse : Bool

def taskAt (root path : String) : Task :=
  { path, relative := Path.relative path root, name := Path.base path }

/-- The files of a directory that match, in the order of their paths. -/
def matching (h : Host) (scope : Scope) (dir : String) (children : List (String × Entry)) :
    List Task :=
  (Host.sortPaths ((children.filter fun c =>
    scope.glob.matches c.1 && h.entryIsFile dir c).map fun c => Path.join dir c.1)).map
      (taskAt scope.root)

mutual

def ofEntry (h : Host) (scope : Scope) (path : String) : Entry → Survey
  | .dir children =>
    if h.refused.contains path then { path, refused := true }
    else
      { path
        files := matching h scope path children
        subdirs :=
          if scope.recurse then
            (ofChildren h scope path children).mergeSort fun a b => a.path ≤ b.path
          else [] }
  | _ => { path }

def ofChildren (h : Host) (scope : Scope) (path : String) :
    List (String × Entry) → List Survey
  | [] => []
  | (name, .dir cs) :: rest =>
    ofEntry h scope (Path.join path name) (.dir cs) :: ofChildren h scope path rest
  | (_, _) :: rest => ofChildren h scope path rest

end

end Survey
end FileSweep
