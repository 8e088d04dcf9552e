import FileSweep.Proofs.Launches
import FileSweep.Proofs.Parsing
import FileSweep.Schedule.Rounds
import Mathlib.Data.List.Forall2

/-! Which steps of a chain are run. A chain goes from step to step until one of them fails, has
an operator that ends it there, or is the last; the file then has the outcome of that step, or
the failure in its place. -/
namespace FileSweep

/-- Between two moments nothing was done but to record and to report: the host and the launcher
are as they were, and no process was started. -/
structure World.Quiet {σ : Type} (w w' : World σ) : Prop where
  host : w'.host = w.host
  launcher : w'.launcher = w.launcher
  launches : w'.launches = w.launches

namespace World.Quiet

variable {σ : Type} {w w' w'' : World σ}

theorem refl (w : World σ) : Quiet w w := ⟨rfl, rfl, rfl⟩

theorem trans (h : Quiet w w') (hnext : Quiet w' w'') : Quiet w w'' :=
  ⟨hnext.host.trans h.host, hnext.launcher.trans h.launcher, hnext.launches.trans h.launches⟩

theorem log (w : World σ) (level : Level) (message : String) : Quiet w (w.log level message) :=
  ⟨rfl, rfl, launches_log w level message⟩

theorem fail (t : Task) (f : Failure) (w : World σ) : Quiet w (Execution.fail t f w).1 :=
  log w _ _

theorem report (callback : Callback) (t : Task) (w : World σ) :
    Quiet w (Execution.report callback t w) := by
  have hsame : (Execution.report callback t w).host = w.host ∧
      (Execution.report callback t w).launcher = w.launcher := by
    unfold Execution.report passGate
    cases callback <;> (simp only; split <;> exact ⟨rfl, rfl⟩)
  exact ⟨hsame.1, hsame.2, Execution.launches_report callback t w⟩

end World.Quiet

/-- In a command as it is parsed only the last step can be without an operator. -/
theorem Chain.last_of_terminate {words : List String} {done rest : List Step} {step : Step}
    (hsteps : (Chain.parse words).steps = done ++ step :: rest)
    (hstep : step.continuation = .terminate) : rest = [] := by
  by_contra hrest
  have hmem : step ∈ (parse words).steps.dropLast := by
    rw [hsteps, List.dropLast_append_of_ne_nil (by simp), List.dropLast_cons_of_ne_nil hrest]
    simp
  rw [parse, ← List.map_dropLast] at hmem
  obtain ⟨o, ho, rfl⟩ := List.mem_map.mp hmem
  exact (spelled_outline words).operator o ho hstep

namespace Execution

variable {σ : Type} {launcher : Launcher σ} {options : ExecutionOptions} {step : Step}
  {t t' u : Task} {w w' : World σ} {isLast : Bool}

def Starts (t : Task) (step : Step) (l : Launch) : Prop :=
  l.path = Marker.replace t step.path ∧ l.argv = Words.split (Marker.replace t step.args)

theorem Starts.of_sameFile {l : Launch} (hl : Starts u step l) (h : t.SameFile u) :
    Starts t step l :=
  ⟨hl.1.trans (h.replace_eq _), hl.2.trans (congrArg Words.split (h.replace_eq _))⟩

/-- How running a step can come out: its streams cannot be opened, its process cannot be started, the
process ends and a file behind its streams refuses what was captured for it, or the process ends and
its exit code and captured outputs are recorded. -/
inductive Ran (launcher : Launcher σ) (options : ExecutionOptions) (step : Step) (t : Task)
    (w : World σ) : Except Abort Task → Prop
  | unopened {opened : World σ} {a : Abort}
      (hopen : openStreams options step t (workingDir? options t) w = (opened, .error a)) :
      Ran launcher options step t w (.error a)
  | unstarted {opened : World σ} {streams : Streams} {message : String}
      (hopen : openStreams options step t (workingDir? options t) w = (opened, .ok streams))
      (hstart : (launcher (launchOf step t (workingDir? options t) streams) opened.host
        opened.launcher).1 = .error message) :
      Ran launcher options step t w (.error (.failed (.launch message)))
  | unwritten {opened : World σ} {streams : Streams} {finished : Finished} {host : Host} {state : σ}
      {error : OsError}
      (hopen : openStreams options step t (workingDir? options t) w = (opened, .ok streams))
      (hstart : launcher (launchOf step t (workingDir? options t) streams) opened.host
        opened.launcher = (.ok finished, host, state))
      (hrefused : streams.refusal? host (Capture.captured finished.stdout)
        (Capture.captured finished.stderr) = some error) :
      Ran launcher options step t w (.error (.escaped (.unwritten error)))
  | exited {opened : World σ} {streams : Streams} {finished : Finished} {host : Host} {state : σ}
      (hopen : openStreams options step t (workingDir? options t) w = (opened, .ok streams))
      (hstart : launcher (launchOf step t (workingDir? options t) streams) opened.host
        opened.launcher = (.ok finished, host, state))
      (hkept : streams.refusal? host (Capture.captured finished.stdout)
        (Capture.captured finished.stderr) = none) :
      Ran launcher options step t w
        (.ok { t with
          stdout := recorded streams.stdout finished.stdout
          stderr := recorded streams.stderr finished.stderr
          exitCode := finished.status })

theorem runStep_ran (launcher : Launcher σ) (options : ExecutionOptions) (step : Step) (t : Task)
    (w : World σ) : Ran launcher options step t w (runStep launcher options step t w).2 := by
  have hstepped := runStep_stepped launcher options step t w
  generalize runStep launcher options step t w = result at hstepped ⊢
  cases hstepped with
  | unopened hopen => exact .unopened hopen
  | unstarted hopen hstart =>
    rw [(closeWith_empty _ _ _).1]
    exact .unstarted hopen (congrArg Prod.fst hstart)
  | exited hopen hstart =>
    rw [closeWith_eq]
    simp only
    split
    next hrefused => exact .unwritten hopen hstart hrefused
    next hkept => exact .exited hopen hstart hkept

theorem Ran.sameFile (h : Ran launcher options step t w (.ok u)) :
    t.SameFile u ∧ u.completed = t.completed := by
  cases h
  exact ⟨⟨rfl, rfl, rfl⟩, rfl⟩

theorem launches_openStreams (options : ExecutionOptions) (step : Step) (t : Task)
    (workingDir : Option String) (w : World σ) :
    (openStreams options step t workingDir w).1.launches = w.launches := by
  have hsink : ∀ (host : Host) (v : World σ) (sink : Option Sink),
      (({ v with host } : World σ).note (openEvents sink)).launches = v.launches := by
    intro host v sink
    have hnone : (openEvents sink).filterMap Event.launch? = [] := by
      unfold openEvents
      split <;> rfl
    rw [World.launches_note, hnone, World.launches_mk, List.append_nil]
  have habandon : ∀ (v : World σ) (streams : Streams) (e : AccessError),
      (abandon v streams e : World σ × Except Abort Streams).1.launches = v.launches := by
    intro v streams e
    obtain ⟨-, names, hcloses, -⟩ := @abandon_spec σ Streams v streams e
    exact hcloses.launches
  unfold openStreams
  split
  · exact habandon _ _ _
  · simp only
    split
    · simp only [habandon, hsink]
    · split
      · simp only [habandon, hsink]
      · split <;> simp [World.launches_note, Event.launch?, hsink]

theorem launches_attempt (launcher : Launcher σ) (options : ExecutionOptions) (step : Step)
    (t : Task) (w : World σ) :
    (∃ l, Starts t step l ∧ (runStep launcher options step t w).1.launches = w.launches ++ [l]) ∨
      (∃ a, (runStep launcher options step t w).2 = .error a) ∧
        (runStep launcher options step t w).1.launches = w.launches := by
  have hopening := launches_openStreams options step t (workingDir? options t) w
  cases hopen : openStreams options step t (workingDir? options t) w with
  | mk opened result =>
    rw [hopen] at hopening
    cases result with
    | error a =>
      refine Or.inr ⟨⟨a, ?_⟩, ?_⟩
      · simp only [runStep, hopen]
      · simpa only [runStep, hopen] using hopening
    | ok streams =>
      refine Or.inl ⟨launchOf step t (workingDir? options t) streams, ⟨rfl, rfl⟩, ?_⟩
      rw [launches_runStep hopen, hopening]

/-- What ends a chain at a step: the step failed, or its operator ends it. -/
def Stops (step : Step) (isLast : Bool) : Except Abort Task → Prop
  | .error _ => True
  | .ok u =>
    step.continuation = .pipe ∨ step.continuation = .terminate ∨ isLast = true ∨
      step.continuation = .ifPass ∧ u.exitCode = 0 ∨ step.continuation = .ifFail ∧ u.exitCode ≠ 0

/-- What a file is after the step that ends its chain: completed, with the outcome of the step,
or with a failure. -/
structure Settled (step : Step) (isLast : Bool) (outcome : Except Abort Task) (final : Task) :
    Prop where
  completed : final.completed = true ↔ (∃ u, outcome = .ok u) ∧
    (step.continuation = .terminate ∨ step.continuation = .always ∧ isLast = true)
  failed : ∀ f, outcome = .error (.failed f) →
    final.exitCode = -1 ∧ final.stderr = "error: " ++ f.message
  piped : (∃ u, outcome = .ok u) → step.continuation = .pipe →
    final.exitCode = -1 ∧ final.stderr = "error: " ++ Failure.pipe.message
  recorded : ∀ u, outcome = .ok u → step.continuation ≠ .pipe →
    final.exitCode = u.exitCode ∧ final.stdout = u.stdout ∧ final.stderr = u.stderr

theorem follow_of_not_stops (h : ¬ Stops step isLast (.ok u)) :
    follow step isLast t (w, .ok u) = (w, .proceeds u) := by
  simp only [Stops, not_or, not_and, Bool.not_eq_true] at h
  obtain ⟨hpipe, hterminate, hlast, hpass, hfail⟩ := h
  cases hk : step.continuation with
  | pipe => exact absurd hk hpipe
  | terminate => exact absurd hk hterminate
  | always => simp [follow, proceeds?, completes, hk, hlast]
  | ifPass => simp [follow, proceeds?, completes, hk, hlast, hpass hk]
  | ifFail => simp [follow, proceeds?, completes, hk, hlast, Decidable.not_not.mp (hfail hk)]

theorem follow_of_stops {outcome : Except Abort Task} (ht : t.completed = false)
    (hran : Ran launcher options step t w outcome) (h : Stops step isLast outcome) (v : World σ) :
    ∃ v' final escaped, follow step isLast t (v, outcome) = (v', .ends final escaped) ∧
      v.Quiet v' ∧ t.SameFile final ∧ Settled step isLast outcome final := by
  cases outcome with
  | error a =>
    cases a with
    | escaped e =>
      refine ⟨v, t, some e, rfl, .refl v, .refl t, ?_⟩
      exact ⟨by simp [ht], by simp, by simp, by simp⟩
    | failed f =>
      refine ⟨(fail t f v).1, (fail t f v).2, none, rfl, .fail t f v, ⟨rfl, rfl, rfl⟩, ?_⟩
      refine ⟨by simp [fail, ht], ?_, by simp, by simp⟩
      rintro g hg
      cases hg
      exact ⟨rfl, rfl⟩
  | ok u =>
    obtain ⟨hsame, hcompleted⟩ := hran.sameFile
    rw [ht] at hcompleted
    cases hk : step.continuation with
    | pipe =>
      refine ⟨(fail u .pipe v).1, (fail u .pipe v).2, none, by simp [follow, proceeds?, hk],
        .fail u .pipe v, hsame.trans ⟨rfl, rfl, rfl⟩, ?_⟩
      exact ⟨by simp [fail, hcompleted, hk], by simp, fun _ _ => ⟨rfl, rfl⟩, by simp [hk]⟩
    | terminate =>
      refine ⟨v, { u with completed := true }, none, by simp [follow, proceeds?, completes, hk],
        .refl v, hsame.trans ⟨rfl, rfl, rfl⟩, ?_⟩
      exact ⟨by simp [hk], by simp, by simp [hk], by simp [hk]⟩
    | always =>
      have hlast : isLast = true := by simpa [Stops, hk] using h
      refine ⟨v, { u with completed := true }, none,
        by simp [follow, proceeds?, completes, hk, hlast], .refl v, hsame.trans ⟨rfl, rfl, rfl⟩, ?_⟩
      exact ⟨by simp [hk, hlast], by simp, by simp [hk], by simp [hk]⟩
    | ifPass =>
      have hstop : u.exitCode = 0 ∨ isLast = true := by simpa [Stops, hk, or_comm] using h
      refine ⟨v, u, none, ?_, .refl v, hsame, ?_⟩
      · simp [follow, proceeds?, completes, hk, hstop]
      · exact ⟨by simp [hk, hcompleted], by simp, by simp [hk], by simp [hk]⟩
    | ifFail =>
      have hstop : u.exitCode ≠ 0 ∨ isLast = true := by simpa [Stops, hk, or_comm] using h
      refine ⟨v, u, none, ?_, .refl v, hsame, ?_⟩
      · simp [follow, proceeds?, completes, hk, hstop]
      · exact ⟨by simp [hk, hcompleted], by simp, by simp [hk], by simp [hk]⟩

/-- Steps run one after another, none of which ends the chain. -/
inductive Proceeds (launcher : Launcher σ) (options : ExecutionOptions) :
    List Step → Task → World σ → Task → World σ → Prop
  | nil (t : Task) (w : World σ) : Proceeds launcher options [] t w t w
  | cons {step : Step} {rest : List Step} {t t₁ t₂ : Task} {w w₁ w₂ : World σ}
      (hrun : runStep launcher options step t w = (w₁, .ok t₁))
      (hgo : ¬ Stops step false (.ok t₁)) (hrest : Proceeds launcher options rest t₁ w₁ t₂ w₂) :
      Proceeds launcher options (step :: rest) t w t₂ w₂

theorem Proceeds.spec {steps : List Step} (h : Proceeds launcher options steps t w t' w') :
    t.SameFile t' ∧ t'.completed = t.completed ∧
      ∃ ls, w'.launches = w.launches ++ ls ∧ List.Forall₂ (Starts t) steps ls := by
  induction h with
  | nil t w => exact ⟨.refl t, rfl, [], by simp, .nil⟩
  | @cons step rest t t₁ t₂ w w₁ w₂ hrun hgo hrest ih =>
    have hran := runStep_ran launcher options step t w
    have hlaunch := launches_attempt launcher options step t w
    rw [hrun] at hran hlaunch
    obtain ⟨hsame, hcompleted⟩ := hran.sameFile
    obtain ⟨l, hl, hfirst⟩ | ⟨⟨a, ha⟩, -⟩ := hlaunch
    · obtain ⟨hsame', hcompleted', ls, hls, hall⟩ := ih
      refine ⟨hsame.trans hsame', hcompleted'.trans hcompleted, l :: ls, ?_, .cons hl ?_⟩
      · rw [hls, hfirst, List.append_assoc, List.singleton_append]
      · exact hall.imp fun _ _ h => h.of_sameFile hsame
    · cases ha

/-- The steps of a chain that are run are those up to the first that ends it. -/
theorem runSteps_stops (launcher : Launcher σ) (options : ExecutionOptions) {steps : List Step}
    (hne : steps ≠ []) {t : Task} (ht : t.completed = false) (w : World σ) :
    ∃ done step rest t₁ w₁, steps = done ++ step :: rest ∧
      Proceeds launcher options done t w t₁ w₁ ∧
      Stops step rest.isEmpty (runStep launcher options step t₁ w₁).2 ∧
      ∃ w' final escaped, runSteps launcher options steps t w = (w', final, escaped) ∧
        (runStep launcher options step t₁ w₁).1.Quiet w' ∧ t.SameFile final ∧
        Settled step rest.isEmpty (runStep launcher options step t₁ w₁).2 final := by
  induction steps generalizing t w with
  | nil => exact absurd rfl hne
  | cons step rest ih =>
    have hran := runStep_ran launcher options step t w
    by_cases hstop : Stops step rest.isEmpty (runStep launcher options step t w).2
    · obtain ⟨w', final, escaped, hfollow, hquiet, hsame, hsettled⟩ :=
        follow_of_stops ht hran hstop (runStep launcher options step t w).1
      refine ⟨[], step, rest, t, w, rfl, .nil t w, hstop, w', final, escaped, ?_, hquiet, hsame,
        hsettled⟩
      rw [runSteps_cons, round, hfollow]
    · obtain ⟨w₁, outcome, hrun⟩ : ∃ w₁ outcome,
          runStep launcher options step t w = (w₁, outcome) := ⟨_, _, rfl⟩
      rw [hrun] at hran hstop
      cases outcome with
      | error a => exact absurd trivial hstop
      | ok u =>
        have hrest : rest.isEmpty = false := by
          simp only [Stops, not_or, Bool.not_eq_true] at hstop
          exact hstop.2.2.1
        obtain ⟨hsame, hcompleted⟩ := hran.sameFile
        obtain ⟨done, last, later, t₁, w₂, rfl, hproceeds, hlast, w', final, escaped, hsteps, hquiet,
          hfile, hsettled⟩ := ih (by simpa using hrest) (hcompleted.trans ht) w₁
        refine ⟨step :: done, last, later, t₁, w₂, rfl, .cons hrun (hrest ▸ hstop) hproceeds, hlast,
          w', final, escaped, ?_, hquiet, hsame.trans hfile, hsettled⟩
        rw [runSteps_cons, round, hrun, follow_of_not_stops hstop]
        exact hsteps

/-- The steps that were tried start their processes, but for the last when it could not be run. -/
theorem launches_tried {done : List Step} (hproceeds : Proceeds launcher options done t w t' w')
    (step : Step) :
    ∃ ls, (runStep launcher options step t' w').1.launches = w.launches ++ ls ∧
      (List.Forall₂ (Starts t) (done ++ [step]) ls ∨
        (∃ a, (runStep launcher options step t' w').2 = .error a) ∧
          List.Forall₂ (Starts t) done ls) := by
  obtain ⟨hsame, -, ls, hls, hall⟩ := hproceeds.spec
  obtain ⟨l, hl, hlast⟩ | ⟨hfailed, hnone⟩ := launches_attempt launcher options step t' w'
  · refine ⟨ls ++ [l], by rw [hlast, hls, List.append_assoc], Or.inl ?_⟩
    exact List.rel_append hall (.cons (hl.of_sameFile hsame) .nil)
  · exact ⟨ls, by rw [hnone, hls], Or.inr ⟨hfailed, hall⟩⟩

theorem run_quiet (launcher : Launcher σ) (chain : Chain) (options : ExecutionOptions)
    (callback : Callback) (t : Task) (w : World σ) {final : Task} {escaped : Option AccessError}
    (hsteps : runSteps launcher options chain.steps { t with completed := false }
      (w.log .debug ("EXEC: enter " ++ t.path)) = (w', final, escaped)) :
    w'.Quiet (run launcher chain options callback t w).1 ∧
      (run launcher chain options callback t w).2 = (final, escaped) := by
  have hreport := World.Quiet.report callback final w'
  unfold run attend runChain
  simp only [hsteps]
  cases escaped with
  | some e => exact ⟨hreport, rfl⟩
  | none => exact ⟨hreport.trans (.log _ _ _), rfl⟩

theorem sameFile_run (launcher : Launcher σ) (chain : Chain) (options : ExecutionOptions)
    (callback : Callback) (t : Task) (w : World σ) :
    t.SameFile (run launcher chain options callback t w).2.1 := by
  let begun : Task := { t with completed := false }
  have hbegun : t.SameFile begun := ⟨rfl, rfl, rfl⟩
  let entered := w.log .debug ("EXEC: enter " ++ t.path)
  by_cases hne : chain.steps = []
  · have hsteps : runSteps launcher options chain.steps begun entered = (entered, begun, none) := by
      rw [hne]
      rfl
    obtain ⟨-, hresult⟩ := run_quiet launcher chain options callback t w hsteps
    rw [hresult]
    exact hbegun
  · obtain ⟨_, _, _, _, _, -, -, -, w', final, escaped, hsteps, -, hsame, -⟩ :=
      runSteps_stops launcher options hne (show begun.completed = false from rfl) entered
    obtain ⟨-, hresult⟩ := run_quiet launcher chain options callback t w hsteps
    rw [hresult]
    exact hbegun.trans hsame

/-- The chain of a file is run as its operators say. The steps that are tried are those up to the
first that fails, that has an operator which ends the chain there, or that is the last, and the
file is left with what that step came to. A parsed command that completes has run every step. -/
theorem run_controls (launcher : Launcher σ) {chain : Chain} (hne : chain.steps ≠ [])
    (options : ExecutionOptions) (callback : Callback) (t : Task) (w : World σ) :
    let begun : Task := { t with completed := false }
    let entered := w.log .debug ("EXEC: enter " ++ t.path)
    let ended := run launcher chain options callback t w
    ∃ done step rest t₁ w₁, chain.steps = done ++ step :: rest ∧
      Proceeds launcher options done begun entered t₁ w₁ ∧
      Ran launcher options step t₁ w₁ (runStep launcher options step t₁ w₁).2 ∧
      Stops step rest.isEmpty (runStep launcher options step t₁ w₁).2 ∧
      Settled step rest.isEmpty (runStep launcher options step t₁ w₁).2 ended.2.1 ∧
      (runStep launcher options step t₁ w₁).1.Quiet ended.1 ∧
      ∃ ls, ended.1.launches = w.launches ++ ls ∧
        (List.Forall₂ (Starts t) (done ++ [step]) ls ∨
          (∃ a, (runStep launcher options step t₁ w₁).2 = .error a) ∧
            List.Forall₂ (Starts t) done ls) ∧
        ((∃ words, chain = Chain.parse words) → ended.2.1.completed = true →
          List.Forall₂ (Starts t) chain.steps ls) := by
  intro begun entered ended
  obtain ⟨done, step, rest, t₁, w₁, hsplit, hproceeds, hstops, w', final, escaped, hsteps, hquiet,
    -, hsettled⟩ := @runSteps_stops σ launcher options _ hne begun rfl entered
  obtain ⟨hafter, hresult⟩ := run_quiet launcher chain options callback t w hsteps
  have hfinal : ended.2.1 = final := congrArg Prod.fst hresult
  obtain ⟨ls, hls, htried⟩ := launches_tried hproceeds step
  have hlaunches : ended.1.launches = w.launches ++ ls := by
    rw [(hquiet.trans hafter).launches, hls, World.launches_log]
  have hfile : ∀ steps, List.Forall₂ (Starts begun) steps ls → List.Forall₂ (Starts t) steps ls :=
    fun steps h => h.imp fun _ _ hl => hl.of_sameFile ⟨rfl, rfl, rfl⟩
  refine ⟨done, step, rest, t₁, w₁, hsplit, hproceeds, runStep_ran launcher options step t₁ w₁,
    hstops, hfinal ▸ hsettled, hquiet.trans hafter, ls, hlaunches,
    htried.imp (hfile _) (And.imp_right (hfile _)), ?_⟩
  rintro ⟨words, rfl⟩ hcompleted
  obtain ⟨⟨u, hu⟩, hlast⟩ := (hfinal ▸ hsettled).completed.mp hcompleted
  have hrest : rest = [] := by
    rcases hlast with hterminate | ⟨-, hempty⟩
    · exact Chain.last_of_terminate hsplit hterminate
    · exact List.isEmpty_iff.mp hempty
  rw [hsplit, hrest]
  rcases htried with hall | ⟨⟨a, ha⟩, -⟩
  · exact hfile _ hall
  · rw [hu] at ha
    cases ha

/-- The first tool exits with 3, so the chain goes on; the second ends it. -/
theorem run_controls_two_tools :
    let chain := Chain.parse ["probe", "&&", "fix", "%DIRUN_FNAME%"]
    let t : Task := { path := "/d/f.txt", relative := "f.txt", name := "f.txt" }
    let w : World Unit :=
      { host := { root := .dir [], cwd := "/", environment := ⟨[], [], "/"⟩ }, launcher := () }
    let launcher : Launcher Unit := fun l host s =>
      (.ok { status := if l.path = "probe" then 3 else 0 }, host, s)
    let ended := run launcher chain {} .absent t w
    ended.2.1.completed = true ∧ ended.2.1.exitCode = 0 ∧
      List.Forall₂ (Starts t) chain.steps ended.1.launches := by
  intro chain t w launcher ended
  have hne : chain.steps ≠ [] := by decide +kernel
  have hcompleted : ended.2.1.completed = true := by decide +kernel
  obtain ⟨done, step, rest, t₁, w₁, -, -, -, -, -, -, ls, hls, -, hall⟩ :=
    run_controls launcher hne {} .absent t w
  have hlaunches : ended.1.launches = ls := hls
  refine ⟨hcompleted, by decide +kernel, ?_⟩
  rw [hlaunches]
  exact hall ⟨_, rfl⟩ hcompleted

end Execution
end FileSweep
