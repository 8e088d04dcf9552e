import FileSweep.Proofs.Streams

/-! The processes that an execution starts, read off its trace. Only running a step starts
one; opening, closing, reporting and logging do not. -/
namespace FileSweep

/-- Two records of one file, whatever has been recorded of it. -/
def Task.SameFile (t u : Task) : Prop :=
  u.path = t.path ∧ u.relative = t.relative ∧ u.name = t.name

namespace Task.SameFile

variable {t u v : Task}

theorem refl (t : Task) : SameFile t t := ⟨rfl, rfl, rfl⟩

theorem trans (h : SameFile t u) (hnext : SameFile u v) : SameFile t v :=
  ⟨hnext.1.trans h.1, hnext.2.1.trans h.2.1, hnext.2.2.trans h.2.2⟩

theorem replace_eq (h : SameFile t u) (s : String) : Marker.replace u s = Marker.replace t s := by
  have hvalue : Variable.value u = Variable.value t := by
    funext v
    cases v <;> simp [Variable.value, h.1, h.2.1]
  rw [Marker.replace, hvalue]
  rfl

end Task.SameFile

def Event.launch? : Event → Option Launch
  | .launched launch _ => some launch
  | _ => none

namespace World

variable {σ : Type}

def launches (w : World σ) : List Launch := w.trace.filterMap Event.launch?

theorem launches_note (w : World σ) (events : List Event) :
    (w.note events).launches = w.launches ++ events.filterMap Event.launch? := by
  simp [launches, note]

@[simp] theorem launches_mk (w : World σ) (host : Host) (launcher : σ) (gate : Gate) :
    (World.mk host launcher gate w.trace).launches = w.launches := rfl

@[simp] theorem launches_log (w : World σ) (level : Level) (message : String) :
    (w.log level message).launches = w.launches := by
  simp [log, launches_note, Event.launch?]

@[simp] theorem launches_passGate (w : World σ) (call : Gate × Bool) :
    (w.passGate call).launches = w.launches := by
  unfold passGate
  simp only
  split <;> simp [launches_note, Event.launch?]

theorem Closes.launches {w w' : World σ} {names : List String} (h : w.Closes w' names) :
    w'.launches = w.launches := by
  rw [World.launches, h.trace]
  simp [World.launches, List.filterMap_map, Function.comp_def, Event.launch?]

end World

namespace Execution

variable {σ : Type}

@[simp] theorem launches_closeWith {α : Type} (w : World σ) (streams : Streams) (out err : String)
    (outcome : Except Abort α) :
    (closeWith w streams out err outcome).1.launches = w.launches := by
  obtain ⟨names, hcloses⟩ := closeWith_closes w streams out err outcome
  exact hcloses.launches

theorem launches_dropEvents (streams : Streams) (f : Finished) :
    (dropEvents streams.stdout f.stdout ++ dropEvents streams.stderr f.stderr).filterMap
      Event.launch? = [] := by
  refine List.filterMap_eq_nil_iff.mpr fun e he => ?_
  obtain ⟨record, rfl⟩ := logged_of_dropEvents he
  rfl

@[simp] theorem launches_tell (callback : Callback) (t : Task) (w : World σ) :
    (tell callback t w).launches = w.launches := by
  cases callback <;> simp [tell, World.launches_note, Event.launch?]

@[simp] theorem launches_report (callback : Callback) (t : Task) (w : World σ) :
    (report callback t w).launches = w.launches := by
  simp [report, World.launches_note, Event.launch?]

@[simp] theorem launches_fail (t : Task) (f : Failure) (w : World σ) :
    (fail t f w).1.launches = w.launches := by
  simp [fail]

theorem launches_run (launcher : Launcher σ) (chain : Chain) (options : ExecutionOptions)
    (callback : Callback) (t : Task) (w : World σ) :
    (run launcher chain options callback t w).1.launches =
      (runSteps launcher options chain.steps { t with completed := false }
        (w.log .debug ("EXEC: enter " ++ t.path))).1.launches := by
  unfold run attend runChain
  simp only
  split <;> simp

theorem openStreams_unredirected (options : ExecutionOptions) {step : Step}
    (hslots : ∀ h : Handle, step.slot h = {}) (t : Task) (workingDir : Option String)
    (w : World σ) :
    openStreams options step t workingDir w =
      (w, .ok
        { stdout := if options.collectStdout then some .buffer else none
          stderr := if options.collectStderr then some .buffer else none }) := by
  have hsink : ∀ (order : List Handle) (collect : Bool),
      openSink w.host t workingDir step order collect =
        .ok (w.host, if collect then some .buffer else none) := by
    intro order collect
    have hnone : step.firstSet? order = none := by
      simp [Step.firstSet?, hslots]
    rw [openSink, hnone]
  have hevents : ∀ collect : Bool,
      openEvents (if collect then some Sink.buffer else none) = [] := by
    intro collect; cases collect <;> rfl
  have hnote : ({ w with host := w.host } : World σ).note [] = w := by simp [World.note]
  have hinput : openInput w.host t workingDir step = .ok none := by
    simp [openInput, hslots]
  simp only [openStreams, hsink, hevents, hnote, hinput]

theorem launches_runStep {launcher : Launcher σ} {options : ExecutionOptions} {step : Step}
    {t : Task} {w opened : World σ} {streams : Streams}
    (hopen : openStreams options step t (workingDir? options t) w = (opened, .ok streams)) :
    (runStep launcher options step t w).1.launches =
      opened.launches ++ [launchOf step t (workingDir? options t) streams] := by
  unfold runStep
  simp only [hopen]
  split
  · simp [World.launches_note, Event.launch?]
  · rw [launches_closeWith, World.launches_note, launches_dropEvents]
    simp [World.launches_note, Event.launch?]

theorem launches_runSteps_single (launcher : Launcher σ) (options : ExecutionOptions)
    (step : Step) (t : Task) (w : World σ) :
    (runSteps launcher options [step] t w).1.launches =
      (runStep launcher options step t w).1.launches := by
  rw [runSteps]
  split
  next heq => rw [heq]
  next heq => rw [heq]; simp
  next heq =>
    rw [heq]
    split
    · simp
    · split
      · rfl
      · simp

/-- A chain of one unredirected step starts the process of that step and no other. -/
theorem launches_run_single (launcher : Launcher σ) (options : ExecutionOptions)
    (callback : Callback) (t : Task) (w : World σ) {step : Step}
    (hslots : ∀ h : Handle, step.slot h = {}) :
    ∃ l : Launch, (run launcher ⟨[step]⟩ options callback t w).1.launches = w.launches ++ [l] ∧
      l.path = Marker.replace t step.path ∧
      l.argv = Words.split (Marker.replace t step.args) := by
  let task : Task := { t with completed := false }
  let entered := w.log .debug ("EXEC: enter " ++ t.path)
  let streams : Streams :=
    { stdout := if options.collectStdout then some .buffer else none
      stderr := if options.collectStderr then some .buffer else none }
  have hopen := openStreams_unredirected options hslots task (workingDir? options task) entered
  have henter : entered.launches = w.launches := World.launches_log w _ _
  have hsame : t.SameFile task := ⟨rfl, rfl, rfl⟩
  refine ⟨launchOf step task (workingDir? options task) streams, ?_, hsame.replace_eq _, ?_⟩
  · rw [launches_run, launches_runSteps_single, launches_runStep hopen, henter]
  · exact congrArg Words.split (hsame.replace_eq step.args)

end Execution
end FileSweep
