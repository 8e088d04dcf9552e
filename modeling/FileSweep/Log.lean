import FileSweep.Text.Blank
import FileSweep.Text.Letters

/-! Diagnostic records and their levels. -/
namespace FileSweep

inductive Level where
  | debug
  | info
  | warning
  | error
  | critical
  deriving DecidableEq, Repr

namespace Level

def all : List Level := [debug, info, warning, error, critical]

def name : Level → String
  | debug => "DEBUG"
  | info => "INFO"
  | warning => "WARNING"
  | error => "ERROR"
  | critical => "CRITICAL"

def rank : Level → Nat
  | debug => 10
  | info => 20
  | warning => 30
  | error => 40
  | critical => 50

def passes (l threshold : Level) : Bool := threshold.rank ≤ l.rank

/-- The level that a setting names, blanks and letter case aside. -/
def ofSetting? (s : String) : Option Level :=
  all.find? fun l => l.name == Text.upperWord (Text.trim s)

@[simp] theorem passes_self (l : Level) : l.passes l = true := by cases l <;> rfl

end Level

structure Record where
  level : Level
  message : String
  deriving DecidableEq, Repr

end FileSweep
