import FileSweep.App

/-! What the log does to the host. It writes files, makes the directories that lead to them and moves
older segments out of the way; the current directory stays what it is. On the standard output it
writes nothing. -/
namespace FileSweep

namespace Host

theorem cwd_makeDirsFrom (h : Host) (made : String) (names : List String) :
    (makeDirsFrom h made names).1.cwd = h.cwd := by
  induction names generalizing h made with
  | nil => rfl
  | cons name names ih =>
    unfold makeDirsFrom
    dsimp only
    split
    next => rfl
    next => rfl
    next =>
      split
      next => split <;> rfl
      next => exact (ih _ _).trans rfl
    next =>
      split
      next => exact ih _ _
      next => split <;> rfl

theorem cwd_makeDirs (h : Host) (path : String) : (h.makeDirs path).1.cwd = h.cwd :=
  cwd_makeDirsFrom h "/" (Path.components path)

theorem cwd_openWrite {h r : Host} {path : String} {mode : WriteMode} {names : List String}
    (hopen : h.openWrite path mode = .ok (r, names)) : r.cwd = h.cwd := by
  unfold openWrite at hopen
  grind [putEntry]

theorem cwd_appendAt (h : Host) (names : List String) (bytes : List UInt8) :
    (h.appendAt names bytes).cwd = h.cwd := by
  unfold appendAt
  split <;> rfl

theorem cwd_moveFile (h : Host) (source dest : String) : (h.moveFile source dest).cwd = h.cwd := by
  unfold moveFile
  split
  next =>
    split <;> rfl
  next => rfl

end Host

namespace LogFile

variable (f : LogFile) (h : Host)

theorem cwd_shiftSegments (n : Nat) : (f.shiftSegments n h).cwd = h.cwd := by
  induction n generalizing h with
  | zero => rfl
  | succ n ih =>
    rw [shiftSegments, ih]
    split
    next => exact h.cwd_moveFile _ _
    next => rfl

theorem cwd_rollOver : (f.rollOver h).cwd = h.cwd := by
  unfold rollOver
  split
  next => rw [Host.cwd_moveFile, cwd_shiftSegments]
  next => rfl

theorem cwd_write (line : String) : (f.write h line).cwd = h.cwd := by
  have hrolled : (if f.isFull h line then f.rollOver h else h).cwd = h.cwd := by
    split
    next => exact f.cwd_rollOver h
    next => rfl
  unfold write
  dsimp only
  split
  next hopen =>
    have hopened := (Host.cwd_openWrite hopen).trans hrolled
    split
    · exact hopened
    · rw [Host.cwd_appendAt, hopened]
  next => exact hrolled

end LogFile

theorem cwd_inTurn {α : Type} {write : α → Host → Host × String}
    (hwrite : ∀ a h, (write a h).1.cwd = h.cwd) (as : List α) (h : Host) :
    (inTurn write as h).1.cwd = h.cwd := by
  induction as generalizing h with
  | nil => rfl
  | cons a as ih => exact (ih _).trans (hwrite a h)

theorem Outlet.cwd_write (o : Outlet) (h : Host) (e : LogEntry) :
    (o.write h e).1.cwd = h.cwd := by
  unfold write
  split
  next =>
    split
    next => rfl
    next f _ => exact f.cwd_write h _
  next => rfl

namespace Diagnostics

theorem cwd_handle (d : Diagnostics) (e : LogEntry) (r : RootHandler) (h : Host) :
    (d.handle e r h).1.cwd = h.cwd := by
  unfold handle
  split
  next =>
    split
    next l _ =>
      split
      next => exact cwd_inTurn (fun o h => o.cwd_write h e) l.outlets h
      next => rfl
    next => rfl
  next => rfl

theorem cwd_emit (d : Diagnostics) (h : Host) (e : LogEntry) : (d.emit h e).1.cwd = h.cwd := by
  unfold emit
  split
  next => rfl
  next =>
    split
    next => rfl
    next => exact cwd_inTurn (d.cwd_handle e) d.handlers h

def FileOpening.host : FileOpening → Host
  | opened host _ => host
  | refused host _ => host
  | failed host _ => host

theorem cwd_openFile (h : Host) (name : String) : (openFile h name).host.cwd = h.cwd := by
  have hdirs := h.cwd_makeDirs (Path.dir (h.absolute name))
  unfold openFile
  dsimp only
  split
  next hmade => exact (congrArg (·.1.cwd) hmade).symm.trans hdirs
  next e _ hmade =>
    have hcwd := (congrArg (·.1.cwd) hmade).symm.trans hdirs
    cases e <;> exact hcwd
  next hmade =>
    have hcwd := (congrArg (·.1.cwd) hmade).symm.trans hdirs
    split
    next e _ => cases e <;> exact hcwd
    next hopen => exact (Host.cwd_openWrite hopen).trans hcwd

theorem cwd_openConsole (h : Host) (setup : LogSetup) :
    (openConsole h setup).host.cwd = h.cwd := by
  unfold openConsole
  split
  next => split <;> rfl
  next => rfl

theorem cwd_openLogFile (h : Host) (setup : LogSetup) :
    (openLogFile h setup).host.cwd = h.cwd := by
  unfold openLogFile
  split
  next => rfl
  next name _ =>
    split
    next => rfl
    next =>
      have hopened : ∀ o, openFile h name = o → o.host.cwd = h.cwd := by
        rintro o rfl
        exact cwd_openFile h name
      split
      next hopening => exact hopened _ hopening
      next hopening => exact hopened _ hopening
      next hopening => exact hopened _ hopening

theorem cwd_openOutlets (h : Host) (setup : LogSetup) :
    (openOutlets h setup).host.cwd = h.cwd := by
  unfold openOutlets
  dsimp only
  split
  next => exact cwd_openConsole h setup
  next => exact cwd_openLogFile h setup

theorem cwd_configure (d : Diagnostics) (h : Host) (setup : LogSetup) (force : Bool) :
    (d.configure h setup force).host.cwd = h.cwd := by
  unfold configure
  split
  next => rfl
  next => exact cwd_openOutlets h setup

end Diagnostics

namespace App.State

theorem cwd_configure (s : State) (setup : LogSetup) (force : Bool) :
    (s.configure setup force).1.host.cwd = s.host.cwd :=
  s.log.cwd_configure s.host setup force

theorem cwd_record (s : State) (r : Record) : (s.record r).host.cwd = s.host.cwd :=
  s.log.cwd_emit s.host _

theorem cwd_records (s : State) (rs : List Record) : (s.records rs).host.cwd = s.host.cwd := by
  induction rs generalizing s with
  | nil => rfl
  | cons r rs ih => exact (ih (s.record r)).trans (s.cwd_record r)

theorem stdout_configure (s : State) (setup : LogSetup) (force : Bool) :
    (s.configure setup force).1.stdout = s.stdout := rfl

theorem stdout_record (s : State) (r : Record) : (s.record r).stdout = s.stdout := rfl

theorem stdout_records (s : State) (rs : List Record) : (s.records rs).stdout = s.stdout := by
  induction rs generalizing s with
  | nil => rfl
  | cons r rs ih => exact (ih (s.record r)).trans (s.stdout_record r)

end App.State
end FileSweep
