import FileSweep.Task

/-! The tree of directories that a sweep has found, each with its files, its
subdirectories and a count of the files below it. -/
namespace FileSweep

/-- A directory. The root is named by its path and every other directory by its last
component. The count is kept apart from the lists: it is what the sweep has added up. -/
structure DirNode where
  name : String := ""
  files : List Task := []
  dirs : List DirNode := []
  count : Int := 0
  deriving Repr, Inhabited

namespace DirNode

def addFiles (d : DirNode) (n : Int) : DirNode := { d with count := d.count + n }

mutual

/-- The files of the whole tree, those of a directory before those below it. -/
def allFiles : DirNode → List Task
  | ⟨_, files, dirs, _⟩ => files ++ allFilesOf dirs

def allFilesOf : List DirNode → List Task
  | [] => []
  | d :: ds => allFiles d ++ allFilesOf ds

end

def indent (level : Nat) : String := String.ofList (List.replicate (2 * level) ' ')

mutual

/-- The lines of a listing. Directories end in a slash, and those that count no file are
left out. -/
def listingFrom (level : Nat) : DirNode → List String
  | ⟨name, files, dirs, _⟩ =>
    (indent level ++ name ++ "/") ::
      files.map (fun t => indent (level + 1) ++ t.name) ++ listingsFrom (level + 1) dirs

def listingsFrom (level : Nat) : List DirNode → List String
  | [] => []
  | d :: ds => (if 0 < d.count then listingFrom level d else []) ++ listingsFrom level ds

end

def listing (d : DirNode) : List String := listingFrom 0 d

mutual

/-- The tree with every file passed through a function, in the order of `allFiles`. -/
def mapFiles (f : Task → Task) : DirNode → DirNode
  | ⟨name, files, dirs, count⟩ => ⟨name, files.map f, mapFilesOf f dirs, count⟩

def mapFilesOf (f : Task → Task) : List DirNode → List DirNode
  | [] => []
  | d :: ds => mapFiles f d :: mapFilesOf f ds

end

end DirNode
end FileSweep
