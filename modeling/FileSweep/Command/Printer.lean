import FileSweep.Command.Basic
import FileSweep.Command.Quoting

/-! Writing a command chain as one line. -/
namespace FileSweep

def discardName : String := "NUL"

/-- A word as it is written: control characters escaped, then quoted if need be. -/
def writtenWord (s : String) : String := Quoting.quoteIfNeeded (Quoting.escapeControls s)

namespace Redirection

def writtenTarget (r : Redirection) : String :=
  match r.target with
  | .unset => ""
  | .handle h => "&" ++ toString h.val
  | .file =>
    match r.path with
    | none => discardName
    | some p => writtenWord p

def written (r : Redirection) (source : Handle) : String :=
  if r.isSet then
    if source = Handle.input then " < " ++ r.writtenTarget
    else " " ++ toString source.val ++ (if r.append then ">>" else ">") ++ " " ++ r.writtenTarget
  else ""

end Redirection

namespace Step

def written (s : Step) : String :=
  let args := if s.args.isEmpty then "" else " " ++ Quoting.escapeControls s.args
  let slots := (List.finRange 10).map fun h => (s.slot h).written h
  let operator :=
    if s.continuation = .terminate then "" else " " ++ s.continuation.symbol ++ " "
  writtenWord s.path ++ args ++ String.join slots ++ operator

end Step

namespace Chain

/-- The chain as a command line, redirections in the order of their handles. -/
def render (c : Chain) : String := Text.trimEnd (String.join (c.steps.map Step.written))

end Chain
end FileSweep
