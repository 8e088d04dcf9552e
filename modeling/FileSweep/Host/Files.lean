import FileSweep.Host.Basic

/-! Reading and writing files, making directories, and moving files about. -/
namespace FileSweep

inductive WriteMode where
  | truncate
  | append
  deriving DecidableEq, Repr

namespace Host

def fileMode : Nat := 0o644

def readBytes (h : Host) (path : String) : Except AccessError (List UInt8) :=
  match h.nameFault? path with
  | some e => .error e
  | none =>
    match h.locate path with
    | .error e => .error (.os e path)
    | .ok (.free _ _) => .error (.os .noEntry path)
    | .ok (.taken names) =>
      match h.root.at? names with
      | some (.file content _) => .ok content
      | some (.dir _) => .error (.os .isDirectory path)
      | _ => .ok []

inductive TextError where
  | access (error : AccessError)
  | encoding (error : Text.DecodeError)
  deriving DecidableEq, Repr

def TextError.message : TextError → String
  | access error => error.message
  | encoding error => error.message

/-- Every line end as a line feed: a carriage return, alone or before a line feed, is one. -/
def unifyLineEnds : List Char → List Char
  | '\r' :: '\n' :: cs => '\n' :: unifyLineEnds cs
  | c :: cs => (if c = '\r' then '\n' else c) :: unifyLineEnds cs
  | [] => []

def readText (h : Host) (path : String) : Except TextError String :=
  match h.readBytes path with
  | .error e => .error (.access e)
  | .ok bytes =>
    match Text.decodeStrict bytes with
    | .error e => .error (.encoding e)
    | .ok s => .ok (String.ofList (unifyLineEnds s.toList))

def putEntry (h : Host) (names : List String) (e : Entry) : Host :=
  { h with root := h.root.put e names }

/-- The name before its trailing slashes, if it has any and is not all slashes. -/
def beforeSlashes? (path : String) : Option String :=
  let bare := Path.dropSlashes path.toList
  if bare.length < path.toList.length then some (String.ofList bare) else none

/-- Opens a file for writing: the host with the file made or emptied, and where the file
is. A name that ends in a slash can only be a directory's. -/
def openWrite (h : Host) (path : String) (mode : WriteMode) :
    Except AccessError (Host × List String) :=
  match h.nameFault? path with
  | some e => .error e
  | none =>
    match beforeSlashes? path with
    | some bare =>
      match h.locate (Path.join (Path.dir bare) ".") with
      | .error e => .error (.os e path)
      | .ok _ => .error (.os .isDirectory path)
    | none =>
      match h.locate path with
      | .error e => .error (.os e path)
      | .ok (.free parent name) =>
        .ok (h.putEntry (parent ++ [name]) (.file [] fileMode), parent ++ [name])
      | .ok (.taken names) =>
        match h.root.at? names with
        | some (.dir _) => .error (.os .isDirectory path)
        | some (.file _ m) =>
          match mode with
          | .truncate => .ok (h.putEntry names (.file [] m), names)
          | .append => .ok (h, names)
        | _ => .ok (h, names)

def contentAt (h : Host) (names : List String) : List UInt8 :=
  match h.root.at? names with
  | some (.file content _) => content
  | _ => []

def appendAt (h : Host) (names : List String) (bytes : List UInt8) : Host :=
  match h.root.at? names with
  | some (.file content mode) => h.putEntry names (.file (content ++ bytes) mode)
  | _ => h

/-- Writes bytes over the start of the file at a place and keeps what lies behind them. -/
def overwriteAt (h : Host) (names : List String) (bytes : List UInt8) : Host :=
  match h.root.at? names with
  | some (.file content mode) =>
    h.putEntry names (.file (bytes ++ content.drop bytes.length) mode)
  | _ => h

/-- Why a file takes no bytes, if it takes none. There is nothing to refuse in no bytes. -/
def refusal? (h : Host) (names : List String) (bytes : List UInt8) : Option OsError :=
  if bytes.isEmpty then none else h.unwritable.lookup names

/-- Makes the directories that lead to a normalized absolute path, where they are missing; `made` is
the part of it already dealt with. An error leaves those that were made before. -/
def makeDirsFrom (h : Host) (made : String) : List String → Host × Option AccessError
  | [] => (h, none)
  | name :: rest =>
    let path := Path.join made name
    match h.nameFault? path, h.locate path with
    | some e, _ => (h, some e)
    | none, .error e => (h, some (.os e path))
    | none, .ok (.free parent last) =>
      match h.locate path false with
      | .ok (.taken _) =>
        if rest.isEmpty then (h, some (.os .alreadyExists path))
        else (h, some (.os .noEntry (Path.join path (rest.headD ""))))
      | _ => makeDirsFrom (h.putEntry (parent ++ [last]) (.dir [])) path rest
    | none, .ok (.taken names) =>
      if (h.root.at? names).any Entry.isDir then makeDirsFrom h path rest
      else if rest.isEmpty then (h, some (.os .alreadyExists path))
      else (h, some (.os .notDirectory (Path.join path (rest.headD ""))))

def makeDirs (h : Host) (path : String) : Host × Option AccessError :=
  makeDirsFrom h "/" (Path.components path)

/-- Moves a file, if it is there, over whatever has the new name. -/
def moveFile (h : Host) (source dest : String) : Host :=
  match h.locate source false, h.locate dest false with
  | .ok (.taken names), .ok place =>
    match h.root.at? names with
    | none => h
    | some e =>
      let target := match place with
        | .taken t => t
        | .free parent name => parent ++ [name]
      { h with root := (h.root.remove names).put e target }
  | _, _ => h

end Host
end FileSweep
