/-! Command chains: steps joined by operators, each step with a table of ten redirection
slots. -/
namespace FileSweep

/-- The numbered handles that a command line can name: 0 is the input, 1 the standard
output, 2 the standard error. -/
abbrev Handle := Fin 10

namespace Handle

def input : Handle := 0
def output : Handle := 1
def error : Handle := 2

/-- The handles that can carry standard output, in the order in which they are tried. -/
def outputOrder : List Handle := [1, 4, 5, 6, 7, 8, 9]

def errorOrder : List Handle := [2, 3]

def ofDigit? (c : Char) : Option Handle :=
  if h : c.toNat - 48 < 10 then
    if '0' ≤ c then some ⟨c.toNat - 48, h⟩ else none
  else none

def digit (h : Handle) : Char := Char.ofNat (48 + h.val)

@[simp] theorem ofDigit?_digit (h : Handle) : ofDigit? h.digit = some h := by
  revert h; decide

end Handle

inductive Target where
  | unset
  | handle (h : Handle)
  | file
  deriving DecidableEq, Repr

/-- One redirection slot. A slot for a file without a path discards its stream. -/
structure Redirection where
  target : Target := .unset
  path : Option String := none
  append : Bool := false
  deriving DecidableEq, Repr

namespace Redirection

def isSet (r : Redirection) : Bool := r.target != .unset

def isDiscard (r : Redirection) : Bool := r.target == .file && r.path.isNone

def isDuplicate (r : Redirection) : Bool := r.isSet && r.target != .file

@[simp] theorem isSet_default : isSet {} = false := rfl

end Redirection

inductive Continuation where
  | terminate
  | pipe
  | always
  | ifPass
  | ifFail
  deriving DecidableEq, Repr

namespace Continuation

def all : List Continuation := [terminate, pipe, always, ifPass, ifFail]

def symbol : Continuation → String
  | terminate => ""
  | pipe => "|"
  | always => "&"
  | ifPass => "&&"
  | ifFail => "||"

def ofSymbol? (s : String) : Option Continuation := all.find? fun c => c.symbol == s

end Continuation

abbrev Slots := Vector Redirection 10

namespace Slots

def empty : Slots := Vector.replicate 10 {}

def slot (slots : Slots) (h : Handle) : Redirection := slots[h]

def fill (slots : Slots) (h : Handle) (r : Redirection) : Slots := slots.set h r

@[simp] theorem slot_empty (h : Handle) : empty.slot h = {} := by simp [slot, empty]

@[simp] theorem slot_fill (slots : Slots) (h i : Handle) (r : Redirection) :
    (slots.fill h r).slot i = if i = h then r else slots.slot i := by
  unfold slot fill
  by_cases hi : i = h
  · subst hi
    rw [if_pos rfl]
    exact Vector.getElem_set_self i.isLt
  · have hne : (h : Nat) ≠ i := fun he => hi (Fin.ext he).symm
    rw [if_neg hi]
    exact Vector.getElem_set_ne h.isLt i.isLt hne

theorem ext {slots others : Slots} (h : ∀ i : Handle, slots.slot i = others.slot i) :
    slots = others :=
  Vector.ext fun i hi => h ⟨i, hi⟩

end Slots

/-- One program of a chain. The arguments are one text, quoted so that it can be split
again after markers are replaced in it. -/
structure Step where
  path : String
  args : String := ""
  continuation : Continuation := .terminate
  slots : Slots := Slots.empty
  deriving DecidableEq, Repr

namespace Step

def slot (s : Step) (h : Handle) : Redirection := s.slots.slot h

def firstSet? (s : Step) (order : List Handle) : Option Handle :=
  order.find? fun h => (s.slot h).isSet

end Step

/-- A parsed command. The empty chain is the absence of a command. -/
structure Chain where
  steps : List Step := []
  deriving DecidableEq, Repr

namespace Chain

def isEmpty (c : Chain) : Bool := c.steps.isEmpty

def length (c : Chain) : Nat := c.steps.length

end Chain
end FileSweep
