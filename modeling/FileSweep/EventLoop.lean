/-! The worker that runs submitted work one piece after another. Work can be submitted
only between its start and its stop. -/
namespace FileSweep

structure EventLoop where
  running : Bool := false
  deriving DecidableEq, Repr

namespace EventLoop

def start (_ : EventLoop) : EventLoop := { running := true }

def stop (_ : EventLoop) : EventLoop := { running := false }

def notRunning : String := "event loop thread is not running"

def submit? {α : Type} (l : EventLoop) (work : Unit → α) : Option α :=
  if l.running then some (work ()) else none

@[simp] theorem submit?_start {α : Type} (l : EventLoop) (work : Unit → α) :
    l.start.submit? work = some (work ()) := rfl
@[simp] theorem submit?_stop {α : Type} (l : EventLoop) (work : Unit → α) :
    l.stop.submit? work = none := rfl

end EventLoop
end FileSweep
