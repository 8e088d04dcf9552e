import FileSweep.Host.Files
import FileSweep.Log
import FileSweep.LogForm

/-! The life of the diagnostic log. Configuring starts a listener that writes records to its outlets,
the console and a file that is rolled over by size; the root logger then carries one handler that
feeds the listener. Shutting down stops the listener, closes its outlets and leaves the level. -/
namespace FileSweep

structure LogSetup where
  level : String := "INFO"
  console : Bool := true
  file : Option String := none
  maxBytes : Int := 1048576
  backups : Int := 3
  consoleFormat : String := "%(levelname)s | %(message)s"
  fileFormat : String :=
    "%(asctime)s | %(levelname)s | %(threadName)s | %(name)s | %(message)s"
  deriving DecidableEq, Repr

/-- The level of a setup; one that is not understood is the ordinary level. -/
def LogSetup.threshold (s : LogSetup) : Level :=
  if Text.upperWord (Text.trim s.level) == "WARN" then .warning
  else (Level.ofSetting? s.level).getD .info

structure LogEntry where
  logger : String
  level : Level
  message : String
  deriving DecidableEq, Repr

namespace LogEntry

/-- The moment shown for a record; records carry no clock of their own. -/
def moment : String := "1970-01-01 00:00:00"

def field (e : LogEntry) (name : List Char) : Option String :=
  let logger := if e.logger.isEmpty then "root" else e.logger
  [("levelname", e.level.name), ("name", logger), ("message", e.message),
    ("asctime", moment), ("threadName", "MainThread")].lookup (String.ofList name)

def fieldAt? : List Char → Option (List Char × Nat)
  | '(' :: cs =>
    let name := cs.takeWhile (· != ')')
    match cs.drop name.length with
    | ')' :: 's' :: _ => some (name, name.length + 3)
    | _ => none
  | _ => none

/-- Fills in a record format of which the first `skip` characters are already used. -/
def formatFrom (e : LogEntry) : Nat → List Char → List Char
  | _, [] => []
  | skip + 1, _ :: cs => formatFrom e skip cs
  | 0, c :: cs =>
    if c = '%' then
      match fieldAt? cs with
      | some (name, taken) =>
        match e.field name with
        | some text => text.toList ++ formatFrom e taken cs
        | none => c :: formatFrom e 0 cs
      | none => if cs.head? = some '%' then '%' :: formatFrom e 1 cs else c :: formatFrom e 0 cs
    else c :: formatFrom e 0 cs

def format (e : LogEntry) (form : String) : String :=
  String.ofList (formatFrom e 0 form.toList)

end LogEntry

structure LogFile where
  path : String
  maxBytes : Int
  backups : Int
  deriving DecidableEq, Repr

namespace LogFile

def segment (f : LogFile) (n : Nat) : String := f.path ++ "." ++ toString n

/-- Moves each older segment up by one, from the last down to the first. -/
def shiftSegments (f : LogFile) : Nat → Host → Host
  | 0, h => h
  | n + 1, h =>
    let source := f.segment (n + 1)
    let h := if h.pathExists source then h.moveFile source (f.segment (n + 2)) else h
    shiftSegments f n h

/-- Starts a new segment. Without backups the file just goes on. -/
def rollOver (f : LogFile) (h : Host) : Host :=
  if 0 < f.backups then
    let h := f.shiftSegments (f.backups.toNat - 1) h
    h.moveFile f.path (f.segment 1)
  else h

/-- Whether a line would fill the segment: its bytes and the characters of the line with
its line end reach the limit. -/
def isFull (f : LogFile) (h : Host) (line : String) : Bool :=
  0 < f.maxBytes &&
    match h.readBytes f.path with
    | .ok bytes => decide (f.maxBytes ≤ (bytes.length + line.length + 1 : Nat))
    | .error _ => false

/-- Writes a line, after a rollover if need be. A line that the file does not take is lost; what the
logging itself then says about that on the standard error is left out. -/
def write (f : LogFile) (h : Host) (line : String) : Host :=
  let h := if f.isFull h line then f.rollOver h else h
  let bytes := Text.encode (line ++ "\n")
  match h.openWrite f.path .append with
  | .ok (h, names) => if (h.refusal? names bytes).isSome then h else h.appendAt names bytes
  | .error _ => h

end LogFile

/-- Lets each of a list write in its turn: the host in the end and all that goes to the standard
error. -/
def inTurn {α : Type} (write : α → Host → Host × String) : List α → Host → Host × String
  | [], h => (h, "")
  | a :: as, h =>
    let first := write a h
    let rest := inTurn write as first.1
    (rest.1, first.2 ++ rest.2)

inductive LogTarget where
  | console
  | file (f : LogFile)
  deriving DecidableEq, Repr

/-- A handler behind a listener: it writes what passes its level, line by line. -/
structure Outlet where
  level : Level
  form : String
  target : LogTarget
  closed : Bool := false
  deriving DecidableEq, Repr

namespace Outlet

def close (o : Outlet) : Outlet := { o with closed := true }

def write (o : Outlet) (h : Host) (e : LogEntry) : Host × String :=
  if e.level.passes o.level then
    match o.target with
    | .console => (h, e.format o.form ++ "\n")
    | .file f => (f.write h (e.format o.form), "")
  else (h, "")

end Outlet

/-- What takes records from the queue and hands them to its outlets, as long as it runs. -/
structure Listener where
  outlets : List Outlet
  running : Bool := true
  deriving DecidableEq, Repr

namespace Listener

def stop (l : Listener) : Listener := { l with running := false }

def closeOutlets (l : Listener) : Listener := { l with outlets := l.outlets.map Outlet.close }

def deliver (l : Listener) (h : Host) (e : LogEntry) : Host × String :=
  inTurn (·.write · e) l.outlets h

end Listener

/-- A handler of the root logger: the one that feeds a listener, or one that somebody else
has put there. -/
inductive RootHandler where
  | feed (listener : Nat)
  | foreign (name : String)
  deriving DecidableEq, Repr

namespace RootHandler

def isOurs : RootHandler → Bool
  | feed _ => true
  | foreign _ => false

end RootHandler

/-- The state of the log. Listeners are known by their place among all that were started. -/
structure Diagnostics where
  level : Level := .warning
  handlers : List RootHandler := []
  listeners : List Listener := []
  attached : Option Nat := none
  configured : Bool := false
  deriving DecidableEq, Repr

namespace Diagnostics

def oursCount (d : Diagnostics) : Nat := d.handlers.countP RootHandler.isOurs

def removeOurs (d : Diagnostics) : Diagnostics :=
  { d with handlers := d.handlers.filter fun h => !h.isOurs }

/-- Stops the attached listener and closes what it writes to. Closing is taken not to fail: records
are written out as they come, so only a record that its file has refused could be left to write. Such
a closing would fail, and leave the listener attached and the log configured. -/
def stopListener (d : Diagnostics) : Diagnostics :=
  match d.attached with
  | none => d
  | some n =>
    { d with
      attached := none
      listeners := d.listeners.modify n fun l => l.stop.closeOutlets }

/-- Detaches the listener and its handler. The level stays. As in `stopListener`, closing is taken not
to fail. -/
def shutdown (d : Diagnostics) : Diagnostics :=
  { d.stopListener.removeOurs with configured := false }

inductive FileOpening where
  | opened (host : Host) (path : String)
  | refused (host : Host) (warning : String)
  | failed (host : Host) (fault : Fault)

/-- The error for a path with a NUL for which directories would have to be made. -/
def nulDirectory : Fault := { message := "mkdir: embedded null character in path" }

/-- Opens a log file, making the directories that lead to it. What the system refuses is a warning;
a name that cannot be passed to it is an error. -/
def openFile (h : Host) (name : String) : FileOpening :=
  let path := h.absolute name
  let refuse (h : Host) (e : AccessError) : FileOpening :=
    match e with
    | .os _ _ =>
      .refused h ("warning: cannot open log file '" ++ name ++ "': " ++ e.message ++ "\n")
    | e => .failed h e.fault
  match h.makeDirs (Path.dir path) with
  | (h, some .nulInName) => .failed h nulDirectory
  | (h, some e) => refuse h e
  | (h, none) =>
    match h.openWrite path .append with
    | .error e => refuse h e
    | .ok (h, _) => .opened h path

/-- The outlets of a setup, opened in order: with them the host, what is written to the standard
error, and an error that ends the opening. -/
structure Opening where
  host : Host
  outlets : List Outlet := []
  stderr : String := ""
  failure : Option Fault := none

def openConsole (h : Host) (s : LogSetup) : Opening :=
  if s.console then
    match LogForm.ofSetting s.consoleFormat with
    | .error message => { host := h, failure := some { message } }
    | .ok form => { host := h, outlets := [{ level := s.threshold, form, target := .console }] }
  else { host := h }

def openLogFile (h : Host) (s : LogSetup) : Opening :=
  match s.file.filter (!·.isEmpty) with
  | none => { host := h }
  | some name =>
    match LogForm.ofSetting s.fileFormat with
    | .error message => { host := h, failure := some { message } }
    | .ok form =>
      match openFile h name with
      | .opened h path =>
        let target := .file { path, maxBytes := s.maxBytes, backups := s.backups }
        { host := h, outlets := [{ level := s.threshold, form, target }] }
      | .refused h warning => { host := h, stderr := warning }
      | .failed h fault => { host := h, failure := some fault }

def openOutlets (h : Host) (s : LogSetup) : Opening :=
  let console := openConsole h s
  if console.failure.isSome then console
  else
    let file := openLogFile h s
    { file with outlets := console.outlets ++ file.outlets }

/-- Starts a listener, unless it would write nothing, and puts its handler on the root. -/
def attach (d : Diagnostics) (outlets : List Outlet) : Diagnostics :=
  if outlets.isEmpty then { d with configured := true }
  else
    let n := d.listeners.length
    { d with
      handlers := d.handlers ++ [.feed n]
      listeners := d.listeners ++ [{ outlets }]
      attached := some n
      configured := true }

/-- The end of a configuration: the state, the host, what is written to the standard
error, and an error that ended it. -/
structure Configured where
  state : Diagnostics
  host : Host
  stderr : String := ""
  failure : Option Fault := none

/-- Sets the log up. Once it is, only force sets it up again. An error comes after the level is set
and the old listener stopped, and before anything is attached. -/
def configure (d : Diagnostics) (h : Host) (s : LogSetup) (force : Bool) : Configured :=
  if d.configured && !force then { state := d, host := h }
  else
    let d := { d with level := s.threshold }.removeOurs.stopListener
    let o := openOutlets h s
    { state := if o.failure.isSome then d else d.attach o.outlets
      host := o.host
      stderr := o.stderr
      failure := o.failure }

/-- What a handler of the root does with a record: a feed hands it to its listener if that runs. -/
def handle (d : Diagnostics) (e : LogEntry) : RootHandler → Host → Host × String
  | .feed n, h =>
    match d.listeners[n]? with
    | some l => if l.running then l.deliver h e else (h, "")
    | none => (h, "")
  | .foreign _, h => (h, "")

/-- What the root logger does with a record. Where no handler is, a warning or worse is
written bare. -/
def emit (d : Diagnostics) (h : Host) (e : LogEntry) : Host × String :=
  if !e.level.passes d.level then (h, "")
  else if d.handlers.isEmpty then
    (h, if e.level.passes .warning then e.message ++ "\n" else "")
  else inTurn (d.handle e) d.handlers h

end Diagnostics
end FileSweep
