import FileSweep.Command.Parser
import FileSweep.Diagnostics
import FileSweep.Json.Printer
import FileSweep.Options.Parser
import FileSweep.Report
import FileSweep.Spawn

/-! The program from its arguments to its exit status: options, settings, the sweep and
its report, with diagnostics on the way. -/
namespace FileSweep

structure ProgramResult where
  exit : Int
  stdout : String := ""
  stderr : String := ""
  host : Host

namespace App

def exitUsage : Int := 2

def exitFatal : Int := 1

def exitInterrupted : Int := 130

/-- The exit status counts the failed files up to this number. -/
def exitLimit : Int := 255

/-- The program while it runs: what it has written, and the state of its log. -/
structure State where
  host : Host
  log : Diagnostics := {}
  stdout : String := ""
  stderr : String := ""

namespace State

def out (s : State) (text : String) : State := { s with stdout := s.stdout ++ text }

def err (s : State) (text : String) : State := { s with stderr := s.stderr ++ text }

def prints (s : State) (ps : List Print) : State :=
  (s.out (Print.outText ps)).err (Print.errText ps)

def record (s : State) (r : Record) : State :=
  let (host, text) := s.log.emit s.host ⟨Help.programName, r.level, r.message⟩
  { s with host }.err text

def records (s : State) (rs : List Record) : State := rs.foldl record s

def configure (s : State) (setup : LogSetup) (force : Bool) : State × Option Fault :=
  let c := s.log.configure s.host setup force
  ({ s with log := c.state, host := c.host }.err c.stderr, c.failure)

def shutdown (s : State) : State := { s with log := s.log.shutdown }

def finish (s : State) (exit : Int) : ProgramResult :=
  { exit, stdout := s.stdout, stderr := s.stderr, host := s.host }

end State

def banner : String := String.ofList (List.replicate 80 '=') ++ "\n"

/-- The end of the program in an error that nothing deals with. -/
def crash (s : State) (fault : Fault) : ProgramResult :=
  let trace :=
    "Traceback (most recent call last):\n" ++ fault.kind ++ ": " ++ fault.message ++ "\n"
  let s := s.record ⟨.critical, "FATAL EXCEPTION DETECTED: " ++ fault.message ++ "\n" ++ trace⟩
  (s.err ("\n" ++ banner ++ "CRITICAL ERROR (DIRUN)\n" ++ banner ++ trace)).finish exitFatal

inductive Ending where
  | exit (status : Int)
  | crashed (fault : Fault)

def logSetup (a : Arguments) (level : Level) : LogSetup :=
  { level := level.name, file := a.logFile }

def sweep (settings : Settings) (chain : Chain) (interrupted : Bool) (s : State) :
    State × Ending :=
  if interrupted then
    let message := Catalog.say "cli.status.interrupted"
    ((s.record ⟨.warning, message⟩).err (message ++ "\n"), .exit exitInterrupted)
  else
    let callback : Callback := if chain.isEmpty then .absent else .returning
    let r := Sweep.run Spawn.launcher settings.toJson chain callback (some false) s.host ()
    let (_, reports) := Reporter.files { settings, chain } (r.trace.filterMap Event.report?)
    let s := ({ s with host := r.host }.records r.log).prints reports
    match r.result with
    | .error e => (s, .crashed e.fault)
    | .ok result =>
      if result.ok then
        (s.prints (Report.result result), .exit (min result.numFailed exitLimit))
      else
        (s.prints [.err (Catalog.say "cli.errors.run_failed" [("error", .str result.message)])],
          .exit exitFatal)

def work (a : Arguments) (settings : Settings) (command : List String) (interrupted : Bool)
    (s : State) : State × Ending :=
  if a.dumpConfig then
    (s.out (Json.printIndented settings.toJson ++ "\n"), .exit 0)
  else
    let chain := Chain.parse command
    let s := if settings.verbose then s.prints (Report.settings settings chain) else s
    let s := if chain.isEmpty && !settings.workingDirectory.isEmpty then
        s.prints [Report.warn (Catalog.say "cli.warnings.working_unused")]
      else s
    sweep settings chain interrupted s

/-- Whether a working directory given as an argument can be used: it is there, or a marker
leaves it open. -/
def workingUsable (h : Host) (working : Option String) : Bool :=
  match working with
  | none => true
  | some dir => dir.isEmpty || Marker.occurs dir || h.isDir dir

def runLogged (a : Arguments) (command : List String) (configFile : String)
    (interrupted : Bool) (s : State) : State × Ending :=
  let s := s.record ⟨.debug, "CLI execution initiated. Resolving configuration hierarchy..."⟩
  match a.overrides s.host with
  | .error message => (s.err (message ++ "\n"), .exit exitUsage)
  | .ok overrides =>
    if !workingUsable s.host a.workingDirectory then
      (s.err (Catalog.say "cli.errors.invalid_working"
        [("path", .str (a.workingDirectory.getD ""))] ++ "\n"), .exit exitUsage)
    else
      let given := a.configFile.getD ""
      let (base, loadLog) := Settings.load s.host (if given.isEmpty then configFile else given)
      let s := s.records loadLog
      let (settings, warnings) :=
        Settings.sanitize s.host (.obj (Settings.merge base overrides))
      let s := s.records (warnings.map fun w => ⟨.warning, "Configuration Constraint: " ++ w⟩)
      if !a.debug && settings.logLevel != .warning then
        match s.configure (logSetup a settings.logLevel) true with
        | (s, some fault) => (s, .crashed fault)
        | (s, none) => work a settings command interrupted s
      else work a settings command interrupted s

/-- Runs the program. `configFile` holds the settings where no other file is named, and
`interrupted` tells that the user breaks off the sweep. -/
def run (args : List String) (configFile : String) (interrupted : Bool) (h : Host) :
    ProgramResult :=
  let s : State := { host := h }
  if args.isEmpty then (s.out Help.usage).finish exitUsage
  else
    let (own, command) := Arguments.splitCommand args
    match Arguments.parse own with
    | .error .help => (s.out Help.text).finish 0
    | .error (.error e) => (s.err e.report).finish exitUsage
    | .ok a =>
      match s.configure (logSetup a (if a.debug then .debug else .warning)) false with
      | (s, some fault) => crash s fault
      | (s, none) =>
        match runLogged a command configFile interrupted s with
        | (s, .exit status) => s.shutdown.finish status
        | (s, .crashed fault) => crash s.shutdown fault

end App
end FileSweep
