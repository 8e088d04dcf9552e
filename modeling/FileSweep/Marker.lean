import FileSweep.Path
import FileSweep.Task
import FileSweep.Text.Letters

/-! Markers that stand for a part of the file's name. A marker is `%DIRUN_`, a name and a
percent sign, in any letter case. Replacing them is one pass from left to right: a value
is never read again, and a marker with an unknown name stays as it is. -/
namespace FileSweep

inductive Variable where
  | stem
  | extension
  | path
  | directory
  | relativePath
  | relativeDirectory
  deriving DecidableEq, Repr

namespace Variable

def all : List Variable :=
  [stem, extension, path, directory, relativePath, relativeDirectory]

def name : Variable → String
  | stem => "FNAME"
  | extension => "FEXT"
  | path => "FPATH"
  | directory => "DPATH"
  | relativePath => "FPATH_REL"
  | relativeDirectory => "DPATH_REL"

def ofName? (name : String) : Option Variable :=
  all.find? fun v => v.name == Text.upperWord name

def value (t : Task) : Variable → String
  | stem => Path.stem t.path
  | extension => Path.extension t.path
  | path => t.path
  | directory => Path.dir t.path
  | relativePath => t.relative
  | relativeDirectory => Path.dir t.relative

end Variable

namespace Marker

def opening : List Char := ['%', 'D', 'I', 'R', 'U', 'N', '_']

/-- What follows the given letters, when the text begins with them in any case. -/
def afterLetters? : List Char → List Char → Option (List Char)
  | [], cs => some cs
  | _ :: _, [] => none
  | letter :: letters, c :: cs =>
    if Text.matchesLetter letter c then afterLetters? letters cs else none

def afterOpening? (cs : List Char) : Option (List Char) := afterLetters? opening cs

/-- Whether a marker's opening occurs anywhere. -/
def occursChars : List Char → Bool
  | [] => false
  | c :: cs => (afterOpening? (c :: cs)).isSome || occursChars cs

/-- The name of the marker that the text begins with, up to the closing percent sign. -/
def nameAt? (cs : List Char) : Option (List Char) :=
  match afterOpening? cs with
  | none => none
  | some rest =>
    let name := rest.takeWhile (· != '%')
    if name.length < rest.length then some name else none

/-- Replaces markers in a text whose first `skip` characters are already dealt with. -/
def replaceFrom (value : String → Option String) : Nat → List Char → List Char
  | _, [] => []
  | skip + 1, _ :: cs => replaceFrom value skip cs
  | 0, c :: cs =>
    match nameAt? (c :: cs) with
    | none => c :: replaceFrom value 0 cs
    | some name =>
      let after := opening.length + name.length
      match value (String.ofList name) with
      | some text => text.toList ++ replaceFrom value after cs
      | none => (c :: cs).take (after + 1) ++ replaceFrom value after cs

def occurs (s : String) : Bool := occursChars s.toList

/-- The text with every known marker replaced by its value for the file. -/
def replace (t : Task) (s : String) : String :=
  String.ofList
    (replaceFrom (fun name => (Variable.ofName? name).map (Variable.value t)) 0 s.toList)

end Marker
end FileSweep
