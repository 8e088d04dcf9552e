import FileSweep.Command.Printer
import FileSweep.Execution
import FileSweep.Scan
import FileSweep.Settings.Validation

/-! A whole sweep: settings are checked, the tree is scanned, the command is run on every
file handed on, the total opens the gate, and the outcomes are added up. -/
namespace FileSweep

/-- The outcome of a sweep. One that did not begin has a message and no tree. -/
structure SweepResult where
  ok : Bool
  message : String := ""
  rootPath : String
  filePattern : Json.Value
  recurse : Bool
  command : Chain := {}
  root : Option DirNode := none
  numFiles : Int := 0
  numPassed : Int := 0
  numFailed : Int := 0
  durationMs : Int := 0
  cancelled : Bool := false
  summary : List (String × Json.Value) := []
  deriving Repr

namespace SweepResult

/-- The outcome of a sweep that did not begin, for settings of any shape. -/
def failed (message : String) (settings : List (String × Json.Value)) (rootPath : String)
    (command : Chain) (durationMs : Int) : SweepResult :=
  { ok := false
    message
    rootPath
    filePattern := (settings.lookup "file_pattern").getD (.str "*.*")
    recurse := ((settings.lookup "recurse").map Json.Value.truthy).getD true
    command
    durationMs }

end SweepResult

/-- What a sweep has led to, its outcome aside: the host, the launcher's state, what
happened while commands ran, and the diagnostics in order. -/
structure SweepReport (σ : Type) where
  result : Except AccessError SweepResult
  host : Host
  launcher : σ
  trace : List Event := []
  log : List Record := []

namespace Sweep

variable {σ : Type}

def executionOptions (s : Settings) : ExecutionOptions :=
  { workingDirectory := s.workingDirectory
    collectStdout := s.collectStdout
    collectStderr := s.collectStderr }

/-- Runs a chain on files one after another: the world, the files with their outcomes,
and the first error that escaped. -/
def executeAll (launcher : Launcher σ) (chain : Chain) (options : ExecutionOptions)
    (callback : Callback) : List Task → World σ → World σ × List Task × Option AccessError
  | [], w => (w, [], none)
  | t :: ts, w =>
    let (w, t, escaped) := Execution.run launcher chain options callback t w
    let (w, done, later) := executeAll launcher chain options callback ts w
    (w, t :: done, escaped <|> later)

def publishTotal (w : World σ) (total : Int) : World σ :=
  match w.gate.setTotal? total with
  | none => w
  | some call => w.passGate call

def withOutcomes (root : DirNode) (done : List Task) : DirNode :=
  root.mapFiles fun t => (done.find? fun d => d.path == t.path).getD t

def records (trace : List Event) : List Record :=
  trace.filterMap fun
    | .logged r => some r
    | _ => none

/-- The message of the work queue's own start. -/
def queueRecord : Record := ⟨.debug, "Using selector: EpollSelector"⟩

def conclude (s : Settings) (chain : Chain) (root : DirNode) (cancelled : Bool) :
    SweepResult :=
  let files := if chain.isEmpty then [] else root.allFiles
  let passed := files.countP fun t => t.passes s.passCode
  let failed := files.countP fun t => !t.passes s.passCode
  { ok := true
    rootPath := root.name
    filePattern := .str s.filePattern
    recurse := s.recurse
    command := chain
    root := some root
    numFiles := root.count
    numPassed := passed
    numFailed := failed
    cancelled
    summary :=
      [("root_path", .str root.name), ("command", .str chain.render),
        ("num_files", .int root.count), ("passed", .int passed), ("failed", .int failed),
        ("duration_ms", .int 0), ("cancelled", .bool cancelled)] }

def completedRecord (r : SweepResult) : Record :=
  ⟨.info, "Run completed: files=" ++ toString r.numFiles ++ " passed=" ++
    toString r.numPassed ++ " failed=" ++ toString r.numFailed ++ " duration=" ++
    toString r.durationMs ++ "ms"⟩

/-- Sweeps with checked settings. `cancel` is the state of the cancellation event, if
there is one. -/
def runWith (launcher : Launcher σ) (s : Settings) (chain : Chain) (callback : Callback)
    (cancel : Option Bool) (h : Host) (state : σ) : SweepReport σ :=
  let rootPath := h.normalizeSetting (some s.rootPath) h.cwd
  let request : ScanRequest := ⟨rootPath, s.filePattern, s.recurse⟩
  let cancelled := cancel.getD false
  match Scan.run h request (fun _ => .go) cancelled with
  | .error e =>
    { result := .ok (.failed e.message s.members rootPath chain 0)
      host := h
      launcher := state
      log := (if chain.isEmpty then [] else [queueRecord]) ++ [⟨.error, e.message⟩] }
  | .ok outcome =>
    let root := outcome.tree.getD {}
    if chain.isEmpty then
      let r := conclude s chain root cancelled
      { result := .ok r, host := h, launcher := state,
        log := outcome.state.log ++ [completedRecord r] }
    else
      let handedOn := outcome.state.dispatched
      let world : World σ := { host := h, launcher := state }
      let (world, done, escaped) :=
        executeAll launcher chain (executionOptions s) callback handedOn world
      let world := publishTotal world root.count
      let log := queueRecord :: outcome.state.log ++
        handedOn.map (fun t => ⟨.debug, "DISPATCH: " ++ t.path⟩) ++ records world.trace
      match escaped with
      | some e =>
        { result := .error e, host := world.host, launcher := world.launcher,
          trace := world.trace, log }
      | none =>
        let r := conclude s chain (withOutcomes root done) cancelled
        { result := .ok r, host := world.host, launcher := world.launcher,
          trace := world.trace, log := log ++ [completedRecord r] }

def run (launcher : Launcher σ) (config : Json.Value) (chain : Chain) (callback : Callback)
    (cancel : Option Bool) (h : Host) (state : σ) : SweepReport σ :=
  let (s, warnings) := Settings.sanitize h config
  let report := runWith launcher s chain callback cancel h state
  { report with
    log := ⟨.info, "Run started."⟩ :: Settings.validationLog config ++
      warnings.map (fun w => ⟨.warning, "Configuration Warning: " ++ w⟩) ++ report.log }

end Sweep
end FileSweep
