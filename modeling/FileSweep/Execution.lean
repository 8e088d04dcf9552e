import FileSweep.Command.Basic
import FileSweep.Command.Words
import FileSweep.Gate
import FileSweep.Host.Files
import FileSweep.Launch
import FileSweep.Marker

/-! Running a chain on one file. For each step the redirections are opened, markers are
replaced, the process is started and its output recorded; the operator after the step
decides what follows. A failure that concerns only this file ends its chain with exit
code -1. Whatever happens, the file is then reported once and counted once. -/
namespace FileSweep

structure ExecutionOptions where
  workingDirectory : String := ""
  collectStdout : Bool := false
  collectStderr : Bool := false
  deriving DecidableEq, Repr

inductive Failure where
  | redirection (error : OsError) (name : String)
  | launch (message : String)
  | pipe
  deriving DecidableEq, Repr

def Failure.message : Failure → String
  | redirection error name =>
    if name.isEmpty then (AccessError.os error name).message
    else error.text ++ ": '" ++ name ++ "'"
  | launch message => message
  | pipe => "command pipe (|) is not yet implemented."

/-- How a step ends other than by its process ending: in a failure of the file, or in an
error that nothing of the chain deals with. -/
inductive Abort where
  | failed (failure : Failure)
  | escaped (error : AccessError)
  deriving DecidableEq, Repr

def Abort.ofOpening : AccessError → Abort
  | .os error name => .failed (.redirection error name)
  | e => .escaped e

inductive OpenMode where
  | read
  | write (mode : WriteMode)
  deriving DecidableEq, Repr

/-- What can be observed of an execution from outside. -/
inductive Event where
  | opened (path : String) (mode : OpenMode)
  | launched (launch : Launch) (exitSoFar : Int)
  | closed (path : String)
  /-- The report of a file, and whether the gate was open when it was made. -/
  | reported (task : Task) (released : Bool)
  | marked
  | logged (record : Record)
  deriving DecidableEq, Repr

def Event.report? : Event → Option Task
  | .reported t _ => some t
  | _ => none

/-- The report hook: there may be none, and one that is called may fail. -/
inductive Callback where
  | absent
  | returning
  | raising
  deriving DecidableEq, Repr

/-- The world of an execution: the host, the state of the launcher, the gate, and what
has happened so far. -/
structure World (σ : Type) where
  host : Host
  launcher : σ
  gate : Gate := {}
  trace : List Event := []

namespace World

variable {σ : Type}

def note (w : World σ) (events : List Event) : World σ := { w with trace := w.trace ++ events }

def log (w : World σ) (level : Level) (message : String) : World σ :=
  w.note [.logged ⟨level, message⟩]

def passGate (w : World σ) (call : Gate × Bool) : World σ :=
  let w := { w with gate := call.1 }
  if call.2 then w.note [.logged call.1.releaseRecord] else w

end World

structure Streams where
  stdout : Option Sink := none
  stderr : Option Sink := none
  stdin : Option (String × List UInt8) := none
  deriving DecidableEq, Repr

namespace Execution

variable {σ : Type}

def workingDir? (options : ExecutionOptions) (t : Task) : Option String :=
  if options.workingDirectory.isEmpty then none
  else some (Marker.replace t options.workingDirectory)

def resolveTarget (t : Task) (workingDir : Option String) (target : String) : String :=
  let path := Marker.replace t target
  match workingDir with
  | none => path
  | some dir => if dir.isEmpty then path else Path.join dir path

/-- Connects a redirected output. One that duplicates another handle is captured. -/
def openSlot (h : Host) (t : Task) (workingDir : Option String) (r : Redirection) :
    Except AccessError (Host × Sink) :=
  match r.target, r.path with
  | .file, none => .ok (h, .discard)
  | .file, some target =>
    let path := resolveTarget t workingDir target
    let mode : WriteMode := if r.append then .append else .truncate
    (h.openWrite path mode).map fun (h, names) => (h, .file path names r.append)
  | _, _ => .ok (h, .buffer)

/-- Connects an output: the first redirected handle of the order decides, and without one
the output is collected or stays with the console. -/
def openSink (h : Host) (t : Task) (workingDir : Option String) (step : Step)
    (order : List Handle) (collect : Bool) : Except AccessError (Host × Option Sink) :=
  match step.firstSet? order with
  | none => .ok (h, if collect then some .buffer else none)
  | some handle => (openSlot h t workingDir (step.slot handle)).map fun (h, k) => (h, some k)

def openInput (h : Host) (t : Task) (workingDir : Option String) (step : Step) :
    Except AccessError (Option (String × List UInt8)) :=
  let r := step.slot Handle.input
  match r.target, r.path with
  | .file, some target =>
    let path := resolveTarget t workingDir target
    (h.readBytes path).map fun bytes => some (path, bytes)
  | _, _ => .ok none

def openEvents : Option Sink → List Event
  | some (.file path _ append) =>
    [.opened path (.write (if append then .append else .truncate))]
  | _ => []

/-- Writes what a sink has taken in and closes it. A file that refuses the text is closed too, and the
error of the write comes back. (In the middle of a long output a write is refused in the same way and
with the same error, while the process still runs.) -/
def closeSink (w : World σ) (sink : Option Sink) (text : String) :
    World σ × Option AccessError :=
  match sink with
  | some (.file path names append) =>
    let bytes := Text.encode text
    match w.host.refusal? names bytes with
    | some error => (w.note [.closed path], some (.unwritten error))
    | none =>
      let host := if append then w.host.appendAt names bytes else w.host.overwriteAt names bytes
      ({ w with host }.note [.closed path], none)
  | _ => (w, none)

/-- Closes the streams of a step, the standard output first. At an error the streams that come later
stay open with nothing written. (They are closed some time after, when nobody holds them any more.) -/
def closeStreams (w : World σ) (streams : Streams) (out err : String) :
    World σ × Option AccessError :=
  match closeSink w streams.stdout out with
  | (w, some e) => (w, some e)
  | (w, none) =>
    match closeSink w streams.stderr err with
    | (w, some e) => (w, some e)
    | (w, none) =>
      match streams.stdin with
      | some (path, _) => (w.note [.closed path], none)
      | none => (w, none)

/-- Closes the streams of a step with an outcome. An error in closing takes its place. -/
def closeWith {α : Type} (w : World σ) (streams : Streams) (out err : String)
    (outcome : Except Abort α) : World σ × Except Abort α :=
  match closeStreams w streams out err with
  | (w, some e) => (w, .error (.escaped e))
  | (w, none) => (w, outcome)

/-- Gives up opening. What is open is closed, unless the error is one that escapes. -/
def abandon {α : Type} (w : World σ) (streams : Streams) (e : AccessError) :
    World σ × Except Abort α :=
  match e with
  | .os _ _ => closeWith w streams "" "" (.error (.ofOpening e))
  | e => (w, .error (.ofOpening e))

/-- Opens the streams of a step in the order output, error, input. -/
def openStreams (options : ExecutionOptions) (step : Step) (t : Task)
    (workingDir : Option String) (w : World σ) : World σ × Except Abort Streams :=
  match openSink w.host t workingDir step Handle.outputOrder options.collectStdout with
  | .error e => abandon w {} e
  | .ok (host, stdout) =>
    let w := { w with host }.note (openEvents stdout)
    match openSink w.host t workingDir step Handle.errorOrder options.collectStderr with
    | .error e => abandon w { stdout } e
    | .ok (host, stderr) =>
      let w := { w with host }.note (openEvents stderr)
      match openInput w.host t workingDir step with
      | .error e => abandon w { stdout, stderr } e
      | .ok stdin =>
        let w := match stdin with
          | some (path, _) => w.note [.opened path .read]
          | none => w
        (w, .ok { stdout, stderr, stdin })

def recorded (sink : Option Sink) (output : Output) : String :=
  match sink with
  | some .buffer => Capture.normalize (Capture.captured output)
  | _ => ""

/-- What the reader of an output logs: every line that it drops. Only what is captured is read. -/
def dropEvents (sink : Option Sink) (output : Output) : List Event :=
  if sink.any Sink.captures then
    ((Capture.read output).filterMap Capture.Reading.reason?).map fun reason =>
      .logged ⟨.warning, "EXEC: output line exceeds " ++ toString Capture.lineLimit ++
        " bytes and was dropped: " ++ reason⟩
  else []

def launchOf (step : Step) (t : Task) (workingDir : Option String) (streams : Streams) :
    Launch :=
  { path := Marker.replace t step.path
    argv := Words.split (Marker.replace t step.args)
    workingDir
    stdout := streams.stdout
    stderr := streams.stderr
    stdin := streams.stdin.map Prod.snd }

def runStep (launcher : Launcher σ) (options : ExecutionOptions) (step : Step) (t : Task)
    (w : World σ) : World σ × Except Abort Task :=
  let workingDir := workingDir? options t
  match openStreams options step t workingDir w with
  | (w, .error a) => (w, .error a)
  | (w, .ok streams) =>
    let launch := launchOf step t workingDir streams
    let w := w.note [.launched launch t.exitCode]
    match launcher launch w.host w.launcher with
    | (.error message, host, state) =>
      closeWith { w with host, launcher := state } streams "" ""
        (.error (.failed (.launch message)))
    | (.ok f, host, state) =>
      let w := { w with host, launcher := state }.note
        (dropEvents streams.stdout f.stdout ++ dropEvents streams.stderr f.stderr)
      closeWith w streams (Capture.captured f.stdout) (Capture.captured f.stderr)
        (.ok
          { t with
            stdout := recorded streams.stdout f.stdout
            stderr := recorded streams.stderr f.stderr
            exitCode := f.status })

/-- Whether the step after one with this operator and exit code is run. A pipe cannot be
run at all. -/
def proceeds? (continuation : Continuation) (exitCode : Int) : Except Failure Bool :=
  match continuation with
  | .terminate => .ok false
  | .pipe => .error .pipe
  | .always => .ok true
  | .ifPass => .ok (exitCode != 0)
  | .ifFail => .ok (exitCode == 0)

def completes (continuation : Continuation) (isLast : Bool) : Bool :=
  continuation == .terminate || (continuation == .always && isLast)

def fail (t : Task) (f : Failure) (w : World σ) : World σ × Task :=
  (w.log .error (t.relative ++ ": " ++ f.message),
    { t with exitCode := -1, stderr := "error: " ++ f.message })

/-- Runs the steps of a chain until one ends it. The last component is an error that
escapes. -/
def runSteps (launcher : Launcher σ) (options : ExecutionOptions) :
    List Step → Task → World σ → World σ × Task × Option AccessError
  | [], t, w => (w, t, none)
  | step :: rest, t, w =>
    match runStep launcher options step t w with
    | (w, .error (.escaped e)) => (w, t, some e)
    | (w, .error (.failed f)) => let (w, t) := fail t f w; (w, t, none)
    | (w, .ok t) =>
      match proceeds? step.continuation t.exitCode with
      | .error f => let (w, t) := fail t f w; (w, t, none)
      | .ok proceed =>
        if completes step.continuation rest.isEmpty then (w, { t with completed := true }, none)
        else if !proceed || rest.isEmpty then (w, t, none)
        else runSteps launcher options rest t w

def tell (callback : Callback) (t : Task) (w : World σ) : World σ :=
  match callback with
  | .absent => w
  | .returning => w.note [.reported t w.gate.released]
  | .raising =>
    (w.note [.reported t w.gate.released]).log .error
      ("Completion callback failed for " ++ t.path)

/-- Reports a file whose chain has stopped, then counts it at the gate. -/
def report (callback : Callback) (t : Task) (w : World σ) : World σ :=
  let w := tell callback t w
  (w.note [.marked]).passGate w.gate.mark

def flag (b : Bool) : String := if b then "True" else "False"

/-- What can be run on a file: it leaves a world and the file as it is then, beside an error that
escaped. -/
abbrev Body (σ ε : Type) := Task → World σ → World σ × Task × Option ε

/-- Runs the steps of a chain on a file, which has not completed it until it has. -/
def runChain (launcher : Launcher σ) (chain : Chain) (options : ExecutionOptions) :
    Body σ AccessError :=
  fun t w => runSteps launcher options chain.steps { t with completed := false } w

/-- Runs a body on a file, then reports the file and counts it, also when an error escapes. -/
def attend {ε : Type} (body : Body σ ε) (callback : Callback) (t : Task) (w : World σ) :
    World σ × Task × Option ε :=
  let w := w.log .debug ("EXEC: enter " ++ t.path)
  let (w, t, escaped) := body t w
  let w := report callback t w
  match escaped with
  | some e => (w, t, some e)
  | none =>
    (w.log .debug ("EXEC: leave " ++ t.path ++ " exit=" ++ toString t.exitCode ++
      " completed=" ++ flag t.completed), t, none)

/-- Runs a chain on a file. The task comes back with its outcome, beside an error that
escaped. -/
def run (launcher : Launcher σ) (chain : Chain) (options : ExecutionOptions)
    (callback : Callback) (t : Task) (w : World σ) : World σ × Task × Option AccessError :=
  attend (runChain launcher chain options) callback t w

end Execution
end FileSweep
