import FileSweep.Host.Entry
import FileSweep.Path.Expand
import FileSweep.Text.Blank
import FileSweep.Text.Quoted
import FileSweep.Text.Utf8

/-! The host on which a sweep runs: its files, the current directory, the environment,
and the directories that refuse to be listed. Names are resolved as a kernel does it,
following symbolic links up to a limit. -/
namespace FileSweep

inductive OsError where
  | noEntry
  | denied
  | alreadyExists
  | notDirectory
  | isDirectory
  | badFormat
  | nameTooLong
  | tooManyLinks
  | noSpace
  deriving DecidableEq, Repr

namespace OsError

def isAbsence : OsError → Bool
  | noEntry => true
  | notDirectory => true
  | nameTooLong => true
  | tooManyLinks => true
  | _ => false

def number : OsError → Nat
  | noEntry => 2
  | badFormat => 8
  | denied => 13
  | alreadyExists => 17
  | notDirectory => 20
  | isDirectory => 21
  | noSpace => 28
  | nameTooLong => 36
  | tooManyLinks => 40

def text : OsError → String
  | noEntry => "No such file or directory"
  | badFormat => "Exec format error"
  | denied => "Permission denied"
  | alreadyExists => "File exists"
  | notDirectory => "Not a directory"
  | isDirectory => "Is a directory"
  | nameTooLong => "File name too long"
  | tooManyLinks => "Too many levels of symbolic links"
  | noSpace => "No space left on device"

def kind : OsError → String
  | noEntry => "FileNotFoundError"
  | denied => "PermissionError"
  | alreadyExists => "FileExistsError"
  | notDirectory => "NotADirectoryError"
  | isDirectory => "IsADirectoryError"
  | _ => "OSError"

end OsError

inductive NameEncoding where
  | utf8
  | latin1
  | ascii
  deriving DecidableEq, Repr

namespace NameEncoding

def codec : NameEncoding → String
  | utf8 => "utf-8"
  | latin1 => "latin-1"
  | ascii => "ascii"

def size? : NameEncoding → Option Nat
  | utf8 => none
  | latin1 => some 256
  | ascii => some 128

def writes (e : NameEncoding) (c : Char) : Bool := e.size?.all (c.toNat < ·)

/-- The characters of a name that cannot be written, up to the next one that can, and how many stand
before them. -/
def foreign? (e : NameEncoding) (name : String) : Option (Nat × List Char) :=
  let front := name.toList.takeWhile e.writes
  let run := (name.toList.drop front.length).takeWhile fun c => !e.writes c
  if run.isEmpty then none else some (front.length, run)

end NameEncoding

/-- A failed operation: the system refused a name or what was to be written, or the name cannot be
passed to it at all. -/
inductive AccessError where
  | os (error : OsError) (name : String)
  | nulInName
  | unencodable (encoding : NameEncoding) (position : Nat) (run : List Char)
  | unwritten (error : OsError)
  deriving DecidableEq, Repr

/-- An error as it is shown where nothing deals with it: its class and its message. -/
structure Fault where
  kind : String := "ValueError"
  message : String
  deriving DecidableEq, Repr

namespace AccessError

def foreignPlace (position : Nat) : List Char → String
  | [c] => "character '" ++ String.ofList (Text.numberedChar c) ++ "' in position " ++ toString position
  | run =>
    "characters in position " ++ toString position ++ "-" ++ toString (position + run.length - 1)

def message : AccessError → String
  | os error name =>
    "[Errno " ++ toString error.number ++ "] " ++ error.text ++ ": " ++ Text.quoted name
  | nulInName => "embedded null byte"
  | unencodable encoding position run =>
    "'" ++ encoding.codec ++ "' codec can't encode " ++ foreignPlace position run ++
      ": ordinal not in range(" ++ toString (encoding.size?.getD 0) ++ ")"
  | unwritten error => "[Errno " ++ toString error.number ++ "] " ++ error.text

def kind : AccessError → String
  | os error _ => error.kind
  | nulInName => "ValueError"
  | unencodable .. => "UnicodeEncodeError"
  | unwritten error => error.kind

def fault (e : AccessError) : Fault := ⟨e.kind, e.message⟩

end AccessError

structure Host where
  root : Entry
  /-- The current directory, absolute and normalized. -/
  cwd : String
  environment : Environment
  /-- Directories that refuse to be listed, absolute and normalized. -/
  refused : List String := []
  /-- How names are passed to the system. A `String` has no unpaired surrogates, which no encoding
  can write. -/
  encoding : NameEncoding := .utf8
  /-- Files that can be opened but take no bytes, such as those of a full device, with the error of
  a write to them. -/
  unwritable : List (List String × OsError) := []
  deriving Repr

namespace Host

/-- The place that a name resolves to: an entry, or a free name in a directory. -/
inductive Place where
  | taken (names : List String)
  | free (parent : List String) (name : String)
  deriving DecidableEq, Repr

def nameLimit : Nat := 255

def pathLimit : Nat := 4096

def linkLimit : Nat := 40

def startOf (target : String) (here : List String) : List String :=
  if Path.isAbsolute target then [] else here

def parts (path : String) : List String := (Path.componentsChars path.toList).map String.ofList

/-- Walks through the components of a path from a directory, given what a link leads to. -/
def walkWith (root : Entry) (followLast : Bool)
    (onLink : List String → List String → Except OsError Place) (here : List String) :
    List String → Except OsError Place
  | [] => .ok (.taken here)
  | name :: rest =>
    match root.at? here with
    | some (.dir children) =>
      if name = "" ∨ name = "." then walkWith root followLast onLink here rest
      else if name = ".." then walkWith root followLast onLink here.dropLast rest
      else if nameLimit < name.utf8ByteSize then .error .nameTooLong
      else
        match children.lookup name with
        | none => if rest.isEmpty then .ok (.free here name) else .error .noEntry
        | some (.link target) =>
          if rest.isEmpty && !followLast then .ok (.taken (here ++ [name]))
          else onLink (startOf target here) (parts target ++ rest)
        | some _ => walkWith root followLast onLink (here ++ [name]) rest
    | _ => .error .notDirectory

def walk (root : Entry) (followLast : Bool) : Nat → List String → List String →
    Except OsError Place
  | 0 => walkWith root followLast fun _ _ => .error .tooManyLinks
  | links + 1 => walkWith root followLast (walk root followLast links)

def locate (h : Host) (path : String) (followLast : Bool := true) : Except OsError Place :=
  if path.isEmpty then .error .noEntry
  else if pathLimit ≤ path.utf8ByteSize then .error .nameTooLong
  else
    let start := if Path.isAbsolute path then [] else Path.components h.cwd
    walk h.root followLast linkLimit start (parts path)

def holdsNul (path : String) : Bool := path.toList.contains '\x00'

def nameFault? (h : Host) (path : String) : Option AccessError :=
  match h.encoding.foreign? path with
  | some (position, run) => some (.unencodable h.encoding position run)
  | none => if holdsNul path then some .nulInName else none

theorem holdsNul_of_nameFault? {h : Host} {path : String} (hfault : h.nameFault? path = none) :
    holdsNul path = false := by
  unfold nameFault? at hfault
  split at hfault
  next => cases hfault
  next =>
    split at hfault
    next => cases hfault
    next hnul => exact Bool.not_eq_true _ ▸ hnul

/-- The entry that a name leads to, links followed. -/
def entry? (h : Host) (path : String) : Option Entry :=
  if holdsNul path then none
  else
    match h.locate path with
    | .ok (.taken names) => h.root.at? names
    | _ => none

def isDir (h : Host) (path : String) : Bool := (h.entry? path).any Entry.isDir

def isFile (h : Host) (path : String) : Bool := (h.entry? path).any Entry.isRegular

def isLink (h : Host) (path : String) : Bool :=
  if holdsNul path then false
  else
    match h.locate path false with
    | .ok (.taken names) => (h.root.at? names).any Entry.isLink
    | _ => false

/-- Whether a name leads to anything; a name with a NUL leads nowhere. -/
def pathExists (h : Host) (path : String) : Bool := (h.entry? path).isSome

def absolute (h : Host) (path : String) : String := Path.absolute h.cwd path

/-- The directory that a setting names: trimmed, or the fallback if blank, with home and
environment shortcuts expanded, absolute and normalized. -/
def normalizeSetting (h : Host) (path : Option String) (fallback : String) : String :=
  let trimmed := Text.trim (path.getD "")
  let p := if trimmed.isEmpty then fallback else trimmed
  h.absolute (Path.expandVariables h.environment (Path.expandHome h.environment p))

def dataDir (h : Host) : String := Path.join (Path.expandHome h.environment "~") ".dirun"

def configFile (h : Host) : String := Path.join h.dataDir "config.json"

def logPath (h : Host) (fileName : String := "dirun.log") : String :=
  Path.join (Path.join h.dataDir "logs") fileName

end Host
end FileSweep
