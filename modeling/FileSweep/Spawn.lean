import FileSweep.Launch
import FileSweep.Shell.Run

/-! Starting a process on the host: the working directory is entered, the program is found
by its path or on the search path, and it runs to its end. -/
namespace FileSweep
namespace Spawn

/-- The host inside a working directory. The error carries the name as given. -/
def enter (h : Host) (dir : String) : Except AccessError Host :=
  match h.locate dir with
  | .error e => .error (.os e dir)
  | .ok (.free _ _) => .error (.os .noEntry dir)
  | .ok (.taken names) =>
    if (h.root.at? names).any Entry.isDir then
      .ok { h with cwd := "/" ++ String.intercalate "/" names }
    else .error (.os .notDirectory dir)

/-- The host that a process starts in. An empty working directory is none. -/
def workplace (h : Host) : Option String → Except AccessError Host
  | none => .ok h
  | some dir => if dir.isEmpty then .ok h else enter h dir

/-- Why a text that starts a process cannot be passed to the system, if one cannot. -/
def fault? (h : Host) (l : Launch) : Option AccessError :=
  (l.path :: l.argv ++ l.workingDir.toList).findSome? h.nameFault?

def pipeSize : Nat := 65536

/-- The bytes of an output as they come out of a pipe that is filled again each time. -/
def piped (bytes : List UInt8) : Output :=
  (List.range ((bytes.length + pipeSize - 1) / pipeSize)).map fun n =>
    (bytes.drop (n * pipeSize)).take pipeSize

def start (h : Host) (l : Launch) : Except AccessError (Finished × Host) :=
  match fault? h l with
  | some e => .error e
  | none =>
    match workplace h l.workingDir with
    | .error e => .error e
    | .ok inside =>
      match Shell.findProgram inside l.path l.argv with
      | .error e => .error (.os e l.path)
      | .ok invocation =>
        let state : Shell.State := { host := inside, input := l.stdin.getD [] }
        let (s, flow) := Shell.runProgram Shell.processFuel invocation state
        let status := match flow with
          | .signalled n => -(n : Int)
          | _ => s.status
        .ok ({ stdout := piped s.out.reverse, stderr := piped s.err.reverse, status },
          { s.host with cwd := h.cwd, environment := h.environment })

def launcher : Launcher Unit := fun l h state =>
  match start h l with
  | .error e => (.error e.message, h, state)
  | .ok (f, h) => (.ok f, h, state)

end Spawn
end FileSweep
