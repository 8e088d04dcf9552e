import FileSweep.Capture
import FileSweep.Host.Basic

/-! A process to be started, what it leaves, and the interface of whatever starts it. -/
namespace FileSweep

/-- A process to be started. An output without a sink stays with the console, and an
input without content is empty. -/
structure Launch where
  path : String
  argv : List String
  workingDir : Option String := none
  stdout : Option Sink := none
  stderr : Option Sink := none
  stdin : Option (List UInt8) := none
  deriving DecidableEq, Repr

/-- The outputs of a process and its exit status, which is negative for a signal. -/
structure Finished where
  stdout : Output := []
  stderr : Output := []
  status : Int := 0
  deriving DecidableEq, Repr

/-- What starts processes: it gives a finished process or the reason why there is none,
and may change the host and a state of its own. -/
abbrev Launcher (σ : Type) := Launch → Host → σ → Except String Finished × Host × σ

end FileSweep
