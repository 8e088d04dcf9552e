import FileSweep.Catalog
import FileSweep.Sweep
import FileSweep.Text.Columns

/-! What the user sees of a sweep: a report for every file, the settings, and a closing
section. Every text is one message of the console, either as output or as an error. -/
namespace FileSweep

inductive Print where
  | out (text : String)
  | err (text : String)
  deriving DecidableEq, Repr

namespace Print

def outText (prints : List Print) : String :=
  String.join (prints.map fun
    | out text => Text.consoleLine text
    | err _ => "")

def errText (prints : List Print) : String :=
  String.join (prints.map fun
    | out _ => ""
    | err text => Text.consoleLine text)

end Print

namespace Report

/-- The command as it ran for a file. A working directory is shown as a change there and
back. -/
def fileCommand (s : Settings) (chain : Chain) (t : Task) : String :=
  let text := Marker.replace t chain.render
  if s.workingDirectory.isEmpty then text
  else "pushd \"" ++ Marker.replace t s.workingDirectory ++ "\" && " ++ text ++ " & popd"

def file (s : Settings) (chain : Chain) (t : Task) : List Print :=
  if s.verbose then
    [.out (fileCommand s chain t)] ++
      (if t.stdout.isEmpty then [] else [.out t.stdout]) ++
      (if t.stderr.isEmpty then [] else [.out t.stderr]) ++
      [.out (Catalog.say "cli.report.exit_code" [("code", .int t.exitCode)])]
  else
    let status :=
      Catalog.say (if t.passes s.passCode then "cli.report.pass" else "cli.report.fail")
    let subject := if s.reportFileName then t.path else fileCommand s chain t
    [.out (status ++ ": " ++ subject)]

/-- A row of the settings: the key filled up to nine characters, and the value. -/
def settingRow (key value : String) : Print :=
  .out (key ++ String.ofList (List.replicate (9 - key.length) ' ') ++ " = " ++ value)

def flagText (b : Bool) : String := if b then "true" else "false"

def settings (s : Settings) (chain : Chain) : List Print :=
  let command := if chain.isEmpty then Catalog.say "cli.settings.no_command" else chain.render
  [settingRow "dir" s.rootPath, settingRow "files" s.filePattern,
    settingRow "recurse" (flagText s.recurse), settingRow "working" s.workingDirectory,
    settingRow "command" command, settingRow "pass" (toString s.passCode),
    settingRow "repfile" (flagText s.reportFileName), settingRow "verbose" (flagText s.verbose)]

def warn (message : String) : Print := .err message

def result (r : SweepResult) : List Print :=
  match r.root with
  | none => [warn (Catalog.say "cli.warnings.no_files")]
  | some root =>
    if r.numFiles = 0 then [warn (Catalog.say "cli.warnings.no_files")]
    else if r.command.isEmpty then
      warn (Catalog.say "cli.warnings.listing") :: root.listing.map Print.out
    else
      [.out (Catalog.say "cli.summary.duration" [("ms", .int r.durationMs)]),
        .out (Catalog.say "cli.summary.num_files" [("count", .int r.numFiles)]),
        .out (Catalog.say "cli.summary.passed" [("count", .int r.numPassed)]),
        .out (Catalog.say "cli.summary.failed" [("count", .int r.numFailed)])]

end Report

/-- The view of a sweep while it goes on, with the number of files reported. -/
structure Reporter where
  settings : Settings
  chain : Chain
  reported : Nat := 0

namespace Reporter

def file (r : Reporter) (t : Task) : Reporter × List Print :=
  ({ r with reported := r.reported + 1 }, Report.file r.settings r.chain t)

def files : Reporter → List Task → Reporter × List Print
  | r, [] => (r, [])
  | r, t :: ts =>
    let (r, first) := r.file t
    let (r, rest) := r.files ts
    (r, first ++ rest)

end Reporter
end FileSweep
