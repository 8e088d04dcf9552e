import FileSweep.Settings.Validation

/-! Checks one after another. All checks of settings are of one kind: they come to a value with
warnings, or end in a complaint. The check of an object is a row of such checks, so what holds of
every check and is kept from one to the next holds of the whole. -/
namespace FileSweep
namespace Checked

variable {α β : Type}

/-- One check after another: the warnings of both, unless there is a complaint. -/
def andThen (a : Checked α) (f : α → Checked β) : Except Complaint (β × List String) := do
  let (x, warnings) ← (a : Except Complaint (α × List String))
  let (y, more) ← (f x : Except Complaint (β × List String))
  return (y, warnings ++ more)

@[simp] theorem andThen_error (c : Complaint) (f : α → Checked β) :
    andThen (.error c) f = .error c := rfl

theorem andThen_ok {f : α → Checked β} {x : α} {y : β} {more : List String}
    (hf : f x = .ok (y, more)) (warnings : List String) :
    andThen (.ok (x, warnings)) f = .ok (y, warnings ++ more) := by
  simp only [andThen, bind, Except.bind, hf]
  rfl

theorem andThen_ok_error {f : α → Checked β} {x : α} {c : Complaint} (hf : f x = .error c)
    (warnings : List String) : andThen (.ok (x, warnings)) f = .error c := by
  simp only [andThen, bind, Except.bind, hf]

@[simp] theorem andThen_silent (x : α) (f : α → Checked β) : andThen (.ok (x, [])) f = f x := by
  cases hf : f x with
  | error c => exact andThen_ok_error hf []
  | ok r => exact andThen_ok hf []

theorem andThen_eq {a : Checked α} {f : α → Checked β} {x : α} {r : Checked β}
    (ha : a = .ok (x, [])) (hf : f x = r) : a.andThen f = r := by
  rw [ha, andThen_silent, hf]

def Yields (a : Checked α) (P : α → Prop) : Prop := ∃ x warnings, a = .ok (x, warnings) ∧ P x

theorem Yields.andThen {a : Checked α} {f : α → Checked β} {P : α → Prop} {Q : β → Prop}
    (ha : Yields a P) (hf : ∀ x, P x → Yields (f x) Q) : Yields (a.andThen f) Q := by
  obtain ⟨x, warnings, rfl, hx⟩ := ha
  obtain ⟨y, more, hy, hQ⟩ := hf x hx
  exact ⟨y, warnings ++ more, andThen_ok hy warnings, hQ⟩

end Checked

namespace Settings

open Checked

theorem checkMembers_eq (policy : Policy) (h : Host) (members : List (String × Json.Value)) :
    let base := Settings.default h.cwd
    let merged := Json.insertAll base.members members
    let value (name : String) : Json.Value := (merged.lookup name).getD .null
    checkMembers policy h members =
      andThen (checkText policy "root_path" base.rootPath (value "root_path")) fun rootPath =>
      andThen (checkText policy "file_pattern" base.filePattern (value "file_pattern"))
        fun filePattern =>
      andThen (checkText policy "log_level" base.logLevel.name (value "log_level"))
        fun levelName =>
      andThen (checkFlag policy "recurse" base.recurse (value "recurse")) fun recurse =>
      andThen (checkFlag policy "report_file_name" base.reportFileName (value "report_file_name"))
        fun reportFileName =>
      andThen (checkFlag policy "verbose" base.verbose (value "verbose")) fun verbose =>
      andThen (checkFlag policy "collect_stdout" base.collectStdout (value "collect_stdout"))
        fun collectStdout =>
      andThen (checkFlag policy "collect_stderr" base.collectStderr (value "collect_stderr"))
        fun collectStderr =>
      andThen (checkInt policy "pass_code" base.passCode (value "pass_code")) fun passCode =>
      andThen (checkFreeText policy "working_directory" (value "working_directory")) fun working =>
      andThen (checkLevel policy levelName) fun logLevel =>
      andThen (checkWorkingDirectory policy h working) fun workingDirectory =>
        .ok ({ rootPath, filePattern, recurse, workingDirectory, passCode, reportFileName, verbose
               logLevel
               collectStdout := verbose || collectStdout
               collectStderr := verbose || collectStderr },
          (unknownNames merged).map unknownWarning) := by
  intro base merged value
  simp only [checkMembers, andThen, bind_assoc, pure_bind, List.append_assoc]
  rfl

end Settings
end FileSweep
