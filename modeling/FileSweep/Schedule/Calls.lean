import FileSweep.Gate

/-! The calls that reach a gate, one after another as its lock lets them through: of the thread
that publishes the total, and of those that count finished files. -/
namespace FileSweep
namespace Gate

inductive Call where
  | setTotal (total : Int)
  | mark
  deriving DecidableEq, Repr

def Call.total? : Call → Option Int
  | .setTotal total => some total
  | .mark => none

/-- A gate after a call, and whether the call opened it. A refused call has no answer. -/
def call (g : Gate) : Call → Gate × Option Bool
  | .setTotal total =>
    match g.setTotal? total with
    | none => (g, none)
    | some (after, opened) => (after, some opened)
  | .mark => (g.mark.1, some g.mark.2)

def after (g : Gate) (calls : List Call) : Gate := calls.foldl (fun g c => (g.call c).1) g

def answers : Gate → List Call → List (Option Bool)
  | _, [] => []
  | g, c :: calls => (g.call c).2 :: answers (g.call c).1 calls

/-- The total that a sequence of calls leaves published: the first one counts. -/
def published? (calls : List Call) : Option Int := calls.findSome? Call.total?

def counted (calls : List Call) : Nat := calls.count .mark

/-- Whether a sequence of calls publishes a total and counts as many files. -/
def Complete (calls : List Call) : Prop := published? calls = some (counted calls : Int)

@[simp] theorem after_nil (g : Gate) : g.after [] = g := rfl
@[simp] theorem after_concat (g : Gate) (calls : List Call) (c : Call) :
    g.after (calls ++ [c]) = ((g.after calls).call c).1 := by simp [after]
@[simp] theorem answers_concat (g : Gate) (calls : List Call) (c : Call) :
    g.answers (calls ++ [c]) = g.answers calls ++ [((g.after calls).call c).2] := by
  induction calls generalizing g with
  | nil => rfl
  | cons d calls ih => simp [answers, ih, after]
@[simp] theorem published?_concat (calls : List Call) (c : Call) :
    published? (calls ++ [c]) = (published? calls).or c.total? := by
  simp [published?, List.findSome?_append]
@[simp] theorem counted_mark (calls : List Call) :
    counted (calls ++ [.mark]) = counted calls + 1 := by simp [counted]
@[simp] theorem counted_setTotal (calls : List Call) (total : Int) :
    counted (calls ++ [.setTotal total]) = counted calls := by simp [counted]

end Gate
end FileSweep
