import FileSweep.Proofs.Streams
import FileSweep.Schedule.Rounds

/-! What running a chain does not do. It opens, starts, closes and logs, but it reports no file and
leaves the gate alone; both are done once, after the chain has ended. -/
namespace FileSweep

namespace Event

/-- Whether an event is one of a chain at work, not of what is done with its file afterwards. -/
def ofChain : Event → Bool
  | .reported _ _ => false
  | .marked => false
  | _ => true

theorem report?_ofChain {e : Event} (h : e.ofChain = true) : e.report? = none := by
  cases e with
  | reported t released => cases h
  | _ => rfl

end Event

namespace World

variable {σ : Type} {w w' w'' : World σ}

def reports (w : World σ) : List Task := w.trace.filterMap Event.report?

@[simp] theorem gate_log (w : World σ) (level : Level) (message : String) :
    (w.log level message).gate = w.gate := rfl

@[simp] theorem gate_passGate (w : World σ) (call : Gate × Bool) :
    (w.passGate call).gate = call.1 := by
  unfold passGate
  simp only
  split <;> rfl

@[simp] theorem reports_note (w : World σ) (events : List Event) :
    (w.note events).reports = w.reports ++ events.filterMap Event.report? := by
  simp [reports, note]

@[simp] theorem reports_log (w : World σ) (level : Level) (message : String) :
    (w.log level message).reports = w.reports := by
  simp [log, Event.report?]

@[simp] theorem reports_passGate (w : World σ) (call : Gate × Bool) :
    (w.passGate call).reports = w.reports := by
  have hsame : ({ w with gate := call.1 } : World σ).reports = w.reports := rfl
  unfold passGate
  simp only
  split <;> simp [Event.report?, hsame]

/-- Between two moments only chains were at work. -/
structure Works (w w' : World σ) : Prop where
  gate : w'.gate = w.gate
  trace : ∃ events, w'.trace = w.trace ++ events ∧ ∀ e ∈ events, e.ofChain = true

namespace Works

theorem of_eq (hgate : w'.gate = w.gate) (htrace : w'.trace = w.trace) : Works w w' :=
  ⟨hgate, [], by simpa using htrace, by simp⟩

theorem refl (w : World σ) : Works w w := of_eq rfl rfl

theorem trans (h : Works w w') (hnext : Works w' w'') : Works w w'' := by
  obtain ⟨events, htrace, hall⟩ := h.trace
  obtain ⟨more, htrace', hall'⟩ := hnext.trace
  refine ⟨hnext.gate.trans h.gate, events ++ more, by rw [htrace', htrace, List.append_assoc], ?_⟩
  intro e he
  exact (List.mem_append.mp he).elim (hall e) (hall' e)

theorem note (w : World σ) {events : List Event} (h : ∀ e ∈ events, e.ofChain = true) :
    Works w (w.note events) := ⟨rfl, events, rfl, h⟩

theorem reports (h : Works w w') : w'.reports = w.reports := by
  obtain ⟨events, htrace, hall⟩ := h.trace
  have hnone : events.filterMap Event.report? = [] :=
    List.filterMap_eq_nil_iff.mpr fun e he => Event.report?_ofChain (hall e he)
  rw [World.reports, htrace, List.filterMap_append, hnone, List.append_nil]
  rfl

end Works

theorem Closes.works {names : List String} (h : w.Closes w' names) : Works w w' :=
  ⟨h.gate, names.map .closed, h.trace, by simp [Event.ofChain]⟩

end World

namespace Execution

open World

variable {σ : Type}

theorem works_closeWith {α : Type} (w : World σ) (streams : Streams) (out err : String)
    (outcome : Except Abort α) : w.Works (closeWith w streams out err outcome).1 := by
  obtain ⟨names, hcloses⟩ := closeWith_closes w streams out err outcome
  exact hcloses.works

theorem works_abandon (w : World σ) (streams : Streams) (e : AccessError) :
    w.Works (abandon w streams e : World σ × Except Abort Streams).1 := by
  obtain ⟨-, names, hcloses, -⟩ := @abandon_spec σ Streams w streams e
  exact hcloses.works

theorem works_openStreams (options : ExecutionOptions) (step : Step) (t : Task)
    (workingDir : Option String) (w : World σ) :
    w.Works (openStreams options step t workingDir w).1 := by
  have hopened : ∀ (host : Host) (v : World σ) (sink : Option Sink),
      v.Works (({ v with host } : World σ).note (openEvents sink)) := by
    intro host v sink
    refine ⟨rfl, openEvents sink, rfl, ?_⟩
    unfold openEvents
    split <;> simp [Event.ofChain]
  unfold openStreams
  split
  next => exact works_abandon _ _ _
  next host stdout _ =>
    have hout := hopened host w stdout
    simp only
    split
    next => exact hout.trans (works_abandon _ _ _)
    next host stderr _ =>
      have herr := hout.trans (hopened host _ stderr)
      split
      next => exact herr.trans (works_abandon _ _ _)
      next =>
        split
        · exact herr.trans (.note _ (by simp [Event.ofChain]))
        · exact herr

theorem works_launched (step : Step) (t : Task) (workingDir : Option String) (streams : Streams)
    (opened : World σ) (host : Host) (state : σ) :
    opened.Works (launched step t workingDir streams opened host state) :=
  ⟨rfl, _, rfl, by simp [Event.ofChain]⟩

theorem works_runStep (launcher : Launcher σ) (options : ExecutionOptions) (step : Step)
    (t : Task) (w : World σ) : w.Works (runStep launcher options step t w).1 := by
  have hopening := works_openStreams options step t (workingDir? options t) w
  have hstepped := runStep_stepped launcher options step t w
  generalize runStep launcher options step t w = result at hstepped ⊢
  cases hstepped with
  | unopened hopen =>
    rw [hopen] at hopening
    exact hopening
  | unstarted hopen hstart =>
    rw [hopen] at hopening
    exact (hopening.trans (works_launched ..)).trans (works_closeWith ..)
  | exited hopen hstart =>
    rw [hopen] at hopening
    refine ((hopening.trans (works_launched ..)).trans (.note _ fun e he => ?_)).trans
      (works_closeWith ..)
    obtain ⟨record, rfl⟩ := logged_of_dropEvents he
    rfl

theorem works_fail (t : Task) (f : Failure) (w : World σ) : w.Works (fail t f w).1 :=
  .note w (by simp [Event.ofChain])

theorem works_follow (step : Step) (isLast : Bool) (t : Task) (w : World σ)
    (outcome : Except Abort Task) : w.Works (follow step isLast t (w, outcome)).1 := by
  cases outcome with
  | error a =>
    cases a with
    | escaped e => exact .refl w
    | failed f => exact works_fail t f w
  | ok u =>
    simp only [follow]
    cases proceeds? step.continuation u.exitCode with
    | error f => exact works_fail u f w
    | ok proceed =>
      simp only
      split
      · exact .refl w
      · split <;> exact .refl w

theorem works_round (launcher : Launcher σ) (options : ExecutionOptions) (step : Step)
    (isLast : Bool) (t : Task) (w : World σ) :
    w.Works (round launcher options step isLast t w).1 :=
  (works_runStep launcher options step t w).trans (works_follow step isLast t _ _)

theorem works_runSteps (launcher : Launcher σ) (options : ExecutionOptions) (steps : List Step)
    (t : Task) (w : World σ) : w.Works (runSteps launcher options steps t w).1 := by
  induction steps generalizing t w with
  | nil => exact .refl w
  | cons step rest ih =>
    have hround := works_round launcher options step rest.isEmpty t w
    rw [runSteps_cons]
    generalize round launcher options step rest.isEmpty t w = result at hround ⊢
    obtain ⟨v, verdict⟩ := result
    cases verdict with
    | proceeds u => exact hround.trans (ih u v)
    | ends u escaped => exact hround

@[simp] theorem gate_tell (callback : Callback) (t : Task) (w : World σ) :
    (tell callback t w).gate = w.gate := by
  cases callback <;> rfl

@[simp] theorem gate_report (callback : Callback) (t : Task) (w : World σ) :
    (report callback t w).gate = w.gate.mark.1 := by
  simp [report]

theorem reports_report {callback : Callback} (h : callback ≠ .absent) (t : Task) (w : World σ) :
    (report callback t w).reports = w.reports ++ [t] := by
  cases callback with
  | absent => exact absurd rfl h
  | returning => simp [report, tell, Event.report?]
  | raising => simp [report, tell, Event.report?]

theorem works_runChain (launcher : Launcher σ) (chain : Chain) (options : ExecutionOptions)
    (t : Task) (w : World σ) : w.Works (runChain launcher chain options t w).1 :=
  works_runSteps launcher options chain.steps { t with completed := false } w

section attend

variable {ε : Type} {body : Body σ ε} (hbody : ∀ (t : Task) (w : World σ), w.Works (body t w).1)
include hbody

theorem gate_attend (callback : Callback) (t : Task) (w : World σ) :
    (attend body callback t w).1.gate = w.gate.mark.1 := by
  have hgate := (hbody t (w.log .debug ("EXEC: enter " ++ t.path))).gate
  unfold attend
  simp only
  split <;> simp [hgate]

theorem reports_attend {callback : Callback} (h : callback ≠ .absent) (t : Task) (w : World σ) :
    (attend body callback t w).1.reports =
      w.reports ++ [(attend body callback t w).2.1] := by
  have hreports := (hbody t (w.log .debug ("EXEC: enter " ++ t.path))).reports
  unfold attend
  simp only
  split <;> simp [hreports, reports_report h]

end attend

theorem gate_run (launcher : Launcher σ) (chain : Chain) (options : ExecutionOptions)
    (callback : Callback) (t : Task) (w : World σ) :
    (run launcher chain options callback t w).1.gate = w.gate.mark.1 :=
  gate_attend (works_runChain launcher chain options) callback t w

theorem reports_run (launcher : Launcher σ) (chain : Chain) (options : ExecutionOptions)
    {callback : Callback} (h : callback ≠ .absent) (t : Task) (w : World σ) :
    (run launcher chain options callback t w).1.reports =
      w.reports ++ [(run launcher chain options callback t w).2.1] :=
  reports_attend (works_runChain launcher chain options) h t w

end Execution
end FileSweep
