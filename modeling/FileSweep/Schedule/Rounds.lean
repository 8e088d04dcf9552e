import FileSweep.Execution

/-! Running a chain round by round: a step is run, and by how it came out the chain goes on with
the next step or ends. Between two rounds of a file others may be at work. -/
namespace FileSweep
namespace Execution

variable {σ : Type}

/-- How a chain goes on after a step: with the next one, or not at all. -/
inductive Verdict where
  | proceeds (t : Task)
  | ends (t : Task) (escaped : Option AccessError)
  deriving Repr

/-- What follows a step that a file has come to, by how the step came out. -/
def follow (step : Step) (isLast : Bool) (t : Task) :
    World σ × Except Abort Task → World σ × Verdict
  | (w, .error (.escaped e)) => (w, .ends t (some e))
  | (w, .error (.failed f)) => ((fail t f w).1, .ends (fail t f w).2 none)
  | (w, .ok u) =>
    match proceeds? step.continuation u.exitCode with
    | .error f => ((fail u f w).1, .ends (fail u f w).2 none)
    | .ok proceed =>
      if completes step.continuation isLast then (w, .ends { u with completed := true } none)
      else if !proceed || isLast then (w, .ends u none)
      else (w, .proceeds u)

def round (launcher : Launcher σ) (options : ExecutionOptions) (step : Step) (isLast : Bool)
    (t : Task) (w : World σ) : World σ × Verdict :=
  follow step isLast t (runStep launcher options step t w)

theorem runSteps_cons (launcher : Launcher σ) (options : ExecutionOptions) (step : Step)
    (rest : List Step) (t : Task) (w : World σ) :
    runSteps launcher options (step :: rest) t w =
      match round launcher options step rest.isEmpty t w with
      | (w, .ends t escaped) => (w, t, escaped)
      | (w, .proceeds t) => runSteps launcher options rest t w := by
  rw [runSteps, round]
  obtain ⟨w', outcome⟩ := runStep launcher options step t w
  cases outcome with
  | error a => cases a <;> rfl
  | ok u =>
    simp only [follow]
    cases proceeds? step.continuation u.exitCode with
    | error f => rfl
    | ok proceed =>
      cases completes step.continuation rest.isEmpty with
      | true => rfl
      | false => cases hstop : !proceed || rest.isEmpty <;> simp [hstop]

end Execution
end FileSweep
