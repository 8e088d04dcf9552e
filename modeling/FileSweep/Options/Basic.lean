import FileSweep.Catalog
import FileSweep.Host.Basic
import FileSweep.Text.Wrap

/-! The options of the command line: their spellings, the values they set, and the help
text. -/
namespace FileSweep

inductive Flag where
  | help
  | working
  | pass
  | norecurse
  | repfile
  | verbose
  | config
  | dumpConfig
  | logFile
  | debug
  deriving DecidableEq, Repr

namespace Flag

def all : List Flag :=
  [help, working, pass, norecurse, repfile, verbose, config, dumpConfig, logFile, debug]

/-- The spellings of an option, in the order in which they are tried. -/
def spellings : Flag → List String
  | help => ["-h", "--help"]
  | working => ["--working"]
  | pass => ["--pass"]
  | norecurse => ["--norecurse"]
  | repfile => ["--repfile"]
  | verbose => ["--verbose"]
  | config => ["--config"]
  | dumpConfig => ["--dump-config"]
  | logFile => ["--log-file"]
  | debug => ["--debug"]

def valueName? : Flag → Option String
  | working => some "DIR"
  | pass => some "NUM"
  | config => some "FILE"
  | logFile => some "FILE"
  | _ => none

def takesValue (f : Flag) : Bool := f.valueName?.isSome

def title (f : Flag) : String := String.intercalate "/" f.spellings

def description : Flag → String
  | help => "show this help message and exit"
  | working => Catalog.say "cli.args.working"
  | pass => Catalog.say "cli.args.pass"
  | norecurse => Catalog.say "cli.args.norecurse"
  | repfile => Catalog.say "cli.args.repfile"
  | verbose => Catalog.say "cli.args.verbose"
  | config => Catalog.say "cli.args.config"
  | dumpConfig => Catalog.say "cli.args.dump"
  | logFile => Catalog.say "cli.args.log_file"
  | debug => Catalog.say "cli.args.debug"

def table : List (String × Flag) := all.flatMap fun f => f.spellings.map fun s => (s, f)

end Flag

structure Arguments where
  dir : Option String := none
  files : Option String := none
  workingDirectory : Option String := none
  passCode : Option Int := none
  norecurse : Bool := false
  repfile : Bool := false
  verbose : Bool := false
  configFile : Option String := none
  dumpConfig : Bool := false
  logFile : Option String := none
  debug : Bool := false
  deriving DecidableEq, Repr

namespace Help

def programName : String := "dirun"

def usage : String := "usage: " ++ programName ++ " [DIR] [FILES] [options] -- COMMAND\n"

def width : Nat := 78

def column : Nat := 19

def blanks (n : Nat) : String := String.ofList (List.replicate n ' ')

def entry (head description : String) : String :=
  match Text.wrap (width - column) description with
  | [] => "  " ++ head ++ "\n"
  | first :: rest =>
    "  " ++ head ++ blanks (column - 2 - head.length) ++ first ++ "\n" ++
      String.join (rest.map fun line => blanks column ++ line ++ "\n")

def heading (f : Flag) : String :=
  String.intercalate ", " (f.spellings.map fun s =>
    match f.valueName? with
    | some v => s ++ " " ++ v
    | none => s)

def paragraph (s : String) : String :=
  String.join ((Text.wrap width s).map fun line => line ++ "\n")

def text : String :=
  usage ++ "\n" ++ paragraph (Catalog.say "app.description") ++ "\npositional arguments:\n" ++
    entry "DIR" (Catalog.say "cli.args.dir") ++ entry "FILES" (Catalog.say "cli.args.files") ++
    "\noptions:\n" ++ String.join (Flag.all.map fun f => entry (heading f) f.description) ++
    "\n" ++ paragraph (Catalog.say "app.epilog")

end Help

namespace Arguments

def separator : String := "--"

def splitCommand : List String → List String × List String
  | [] => ([], [])
  | a :: as =>
    if a = separator then ([], as)
    else
      let (own, command) := splitCommand as
      (a :: own, command)

/-- The directory and the pattern that the positional arguments stand for. A single
argument that is no directory is the pattern; the error is its message. -/
def targets (a : Arguments) (h : Host) : Except String (Option String × Option String) :=
  match a.dir, a.files with
  | none, _ => .ok (none, none)
  | some first, second =>
    if h.isDir first then .ok (some first, second)
    else
      match second with
      | some second =>
        .error (Catalog.say "cli.errors.not_a_directory"
          [("arg", .str second), ("files", .str first)])
      | none => .ok (none, some first)

def textOrNull : Option String → Json.Value
  | some s => .str s
  | none => .null

/-- The settings that the arguments override; one that is not given is null. -/
def overrides (a : Arguments) (h : Host) : Except String (List (String × Json.Value)) :=
  (a.targets h).map fun (root, pattern) =>
    [("root_path", textOrNull root), ("file_pattern", textOrNull pattern),
      ("working_directory", textOrNull a.workingDirectory),
      ("pass_code", (a.passCode.map Json.Value.int).getD .null)] ++
      (if a.norecurse then [("recurse", .bool false)] else []) ++
      (if a.repfile then [("report_file_name", .bool true)] else []) ++
      (if a.verbose then [("verbose", .bool true)] else []) ++
      (if a.debug then [("log_level", .str Level.debug.name)] else [])

end Arguments
end FileSweep
