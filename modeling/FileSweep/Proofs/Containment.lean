import FileSweep.Proofs.Attendance
import FileSweep.Proofs.Closing

/-! A failure stays with its file. As long as the names of the files that a chain redirects to can be
passed to the system and those files take what is written to them, no error escapes from running it:
what cannot be opened, started or piped ends the chain of that file, which is left with exit code -1,
and everything opened for the step is closed again. An error about a name that cannot be passed on does
escape, and so does a write that is refused. -/
namespace FileSweep

theorem Callback.still_events (callback : Callback) (t : Task) (released : Bool) :
    ∀ e ∈ callback.events t released, e.opened? = none ∧ e.closed? = none := by
  cases callback <;> simp [Callback.events, Event.opened?, Event.closed?]

namespace Execution

variable {σ : Type} {launcher : Launcher σ} {options : ExecutionOptions} {step : Step} {t u : Task}
  {w : World σ}

theorem Nameable.of_sameFile {h : Host} (hnames : Nameable h options step t) (hsame : t.SameFile u) :
    Nameable h options step u := by
  have hreplace : Marker.replace u = Marker.replace t := funext hsame.replace_eq
  have hfiles : fileNames options step u = fileNames options step t := by
    simp only [fileNames, fileOf?, resolveTarget, workingDir?, hreplace]
  rw [Nameable, hfiles]
  exact hnames

/-- A step meets no error that nothing of the chain deals with: the names of its files can be passed to
the system, and the files take what is captured for them. -/
structure Unhindered (launcher : Launcher σ) (options : ExecutionOptions) (step : Step) (t : Task)
    (w : World σ) : Prop where
  names : Nameable w.host options step t
  writes : ∀ {opened : World σ} {streams : Streams} {finished : Finished} {host : Host} {state : σ},
    openStreams options step t (workingDir? options t) w = (opened, .ok streams) →
    launcher (launchOf step t (workingDir? options t) streams) opened.host opened.launcher =
      (.ok finished, host, state) →
    streams.refusal? host (Capture.captured finished.stdout) (Capture.captured finished.stderr) = none

theorem Unhindered.contains (h : Unhindered launcher options step t w) :
    w.Tidies (runStep launcher options step t w).1 ∧
      ∀ e, (runStep launcher options step t w).2 ≠ .error (.escaped e) := by
  have hcases := openStreams_cases w h.names
  have hstepped := runStep_stepped launcher options step t w
  generalize runStep launcher options step t w = result at hstepped ⊢
  -- Once they are open, the streams are closed after the process and its dropped lines.
  have hend : ∀ {opened : World σ} {streams : Streams} {v u : World σ} {more : List Event},
      openStreams options step t (workingDir? options t) w = (opened, .ok streams) →
      v.trace = opened.trace ++ more → (∀ e ∈ more, e.opened? = none ∧ e.closed? = none) →
      v.Closes u streams.names → w.Tidies u := by
    intro opened streams v u more hopen hv hstill hcloses
    simp only [hopen] at hcases
    rcases hcases with ⟨_, events, hok, htrace, hopened, hclosed⟩ | ⟨error, name, herror, -⟩
    · cases hok
      have hnone : more.filterMap Event.opened? = [] ∧ more.filterMap Event.closed? = [] :=
        ⟨List.filterMap_eq_nil_iff.mpr fun e he => (hstill e he).1,
          List.filterMap_eq_nil_iff.mpr fun e he => (hstill e he).2⟩
      refine ⟨events ++ more ++ streams.names.map Event.closed, ?_, .of_closing ?_ ?_⟩
      · rw [hcloses.trace, hv, htrace, List.append_assoc, List.append_assoc, List.append_assoc]
      · rw [List.filterMap_append, hopened, hnone.1, List.append_nil]
      · rw [List.filterMap_append, hclosed, hnone.2, List.append_nil]
    · cases herror
  cases hstepped with
  | unopened hopen =>
    simp only [hopen] at hcases
    rcases hcases with ⟨_, _, hok, -⟩ | ⟨error, name, herror, htidies⟩
    · cases hok
    · cases herror
      exact ⟨htidies, by simp⟩
  | unstarted hopen hstart =>
    obtain ⟨houtcome, hcloses⟩ := closeWith_empty (launched step t (workingDir? options t) _ _ _ _) _ _
    refine ⟨hend hopen rfl (by simp [Event.opened?, Event.closed?]) hcloses, ?_⟩
    rw [houtcome]
    simp
  | @exited opened streams finished host state hopen hstart =>
    have hkept := h.writes hopen hstart
    obtain ⟨names, hcloses, -, -, hall⟩ := closeStreams_spec
      ((launched step t (workingDir? options t) streams opened host state).note
        (dropEvents streams.stdout finished.stdout ++ dropEvents streams.stderr finished.stderr))
      streams (Capture.captured finished.stdout) (Capture.captured finished.stderr)
    rw [hall hkept] at hcloses
    rw [closeWith_eq]
    refine ⟨hend hopen (List.append_assoc _ _ _) ?_ hcloses, ?_⟩
    · intro e he
      rcases List.mem_append.mp he with he | he
      · obtain rfl := List.mem_singleton.mp he
        exact ⟨rfl, rfl⟩
      · obtain ⟨record, rfl⟩ := logged_of_dropEvents he
        exact ⟨rfl, rfl⟩
    · have hnone : streams.refusal?
          ((launched step t (workingDir? options t) streams opened host state).note
            (dropEvents streams.stdout finished.stdout ++
              dropEvents streams.stderr finished.stderr)).host
          (Capture.captured finished.stdout) (Capture.captured finished.stderr) = none := hkept
      rw [hnone]
      simp

def Verdict.escaped? : Verdict → Option AccessError
  | .proceeds _ => none
  | .ends _ escaped => escaped

theorem follow_contains {outcome : Except Abort Task} (step : Step) (isLast : Bool) (t : Task)
    (v : World σ) (hkept : ∀ e, outcome ≠ .error (.escaped e)) :
    v.Tidies (follow step isLast t (v, outcome)).1 ∧
      (follow step isLast t (v, outcome)).2.escaped? = none := by
  cases outcome with
  | error a =>
    cases a with
    | escaped e => exact absurd rfl (hkept e)
    | failed f => exact ⟨.log v _ _, rfl⟩
  | ok u =>
    simp only [follow]
    cases proceeds? step.continuation u.exitCode with
    | error f => exact ⟨.log v _ _, rfl⟩
    | ok proceed =>
      simp only
      split
      · exact ⟨.refl v, rfl⟩
      · split <;> exact ⟨.refl v, rfl⟩

theorem Unhindered.round (h : Unhindered launcher options step t w) (isLast : Bool) :
    w.Tidies (round launcher options step isLast t w).1 ∧
      (Execution.round launcher options step isLast t w).2.escaped? = none := by
  obtain ⟨htidies, hkept⟩ := h.contains
  obtain ⟨hafter, hnone⟩ := follow_contains step isLast t (runStep launcher options step t w).1 hkept
  exact ⟨htidies.trans hafter, hnone⟩

/-- Every step of a chain that is reached meets no error that nothing deals with. -/
def UnhinderedAlong (launcher : Launcher σ) (options : ExecutionOptions) (steps : List Step) (t : Task)
    (w : World σ) : Prop :=
  ∀ done step rest t₁ w₁, steps = done ++ step :: rest →
    Proceeds launcher options done t w t₁ w₁ → Unhindered launcher options step t₁ w₁

namespace UnhinderedAlong

variable {rest : List Step} {v : World σ}

theorem head (h : UnhinderedAlong launcher options (step :: rest) t w) :
    Unhindered launcher options step t w :=
  h [] step rest t w rfl (.nil t w)

theorem tail (h : UnhinderedAlong launcher options (step :: rest) t w)
    (hrun : runStep launcher options step t w = (v, .ok u)) (hgo : ¬ Stops step false (.ok u)) :
    UnhinderedAlong launcher options rest u v := by
  intro done later after t₁ w₁ hsplit hproceeds
  exact h (step :: done) later after t₁ w₁ (by rw [hsplit]; rfl) (.cons hrun hgo hproceeds)

end UnhinderedAlong

theorem runSteps_contains {steps : List Step} (ht : t.completed = false)
    (hfree : UnhinderedAlong launcher options steps t w) :
    w.Tidies (runSteps launcher options steps t w).1 ∧
      (runSteps launcher options steps t w).2.2 = none := by
  induction steps generalizing t w with
  | nil => exact ⟨.refl w, rfl⟩
  | cons step rest ih =>
    have hran := runStep_ran launcher options step t w
    obtain ⟨hround, hnone⟩ := hfree.head.round rest.isEmpty
    by_cases hstop : Stops step rest.isEmpty (runStep launcher options step t w).2
    · obtain ⟨v, final, escaped, hfollow, -⟩ :=
        follow_of_stops ht hran hstop (runStep launcher options step t w).1
      have hends : round launcher options step rest.isEmpty t w = (v, .ends final escaped) := hfollow
      rw [hends] at hround hnone
      rw [runSteps_cons, hends]
      exact ⟨hround, hnone⟩
    · obtain ⟨v, outcome, hrun⟩ : ∃ v outcome,
          runStep launcher options step t w = (v, outcome) := ⟨_, _, rfl⟩
      rw [hrun] at hran hstop
      cases outcome with
      | error a => exact absurd trivial hstop
      | ok u =>
        have hgoes : round launcher options step rest.isEmpty t w = (v, .proceeds u) := by
          rw [round, hrun, follow_of_not_stops hstop]
        have hlater : rest.isEmpty = false := by
          simp only [Stops, not_or, Bool.not_eq_true] at hstop
          exact hstop.2.2.1
        obtain ⟨htidies, hescaped⟩ := ih (hran.sameFile.2.trans ht)
          (hfree.tail hrun (hlater ▸ hstop))
        rw [hgoes] at hround
        rw [runSteps_cons, hgoes]
        exact ⟨hround.trans htidies, hescaped⟩

theorem run_contains {chain : Chain} (callback : Callback)
    (hfree : UnhinderedAlong launcher options chain.steps { t with completed := false }
      (w.log .debug ("EXEC: enter " ++ t.path))) :
    w.Tidies (run launcher chain options callback t w).1 ∧
      (run launcher chain options callback t w).2.2 = none := by
  let entered := w.log .debug ("EXEC: enter " ++ t.path)
  obtain ⟨htidies, hnone⟩ := runSteps_contains rfl hfree
  obtain ⟨work, rest, hleft, htrace, -, hrest⟩ :=
    trace_attend (runChain_proper launcher chain options) callback t w
  have hended : (run launcher chain options callback t w).1.trace =
      (runChain launcher chain options t entered).1.trace ++
        (callback.events (runChain launcher chain options t entered).2.1 w.gate.released ++
          .marked :: rest) := by
    rw [hleft, ← List.append_assoc]
    exact htrace
  refine ⟨((World.Tidies.log w _ _).trans htidies).trans (.of_still hended ?_),
    (congrArg Prod.snd (attend_result _ callback t w)).trans hnone⟩
  intro e he
  rcases List.mem_append.mp he with he | he
  · exact callback.still_events _ _ e he
  · rcases List.mem_cons.mp he with rfl | he
    · exact ⟨rfl, rfl⟩
    · obtain ⟨record, rfl⟩ := hrest e he
      exact ⟨rfl, rfl⟩

/-- The ways in which a step fails on a file: not all of its files can be opened, its process cannot
be started, or it ends in a pipe. -/
inductive Fails (launcher : Launcher σ) (options : ExecutionOptions) (step : Step) (t : Task)
    (w : World σ) : Prop
  | unopened {opened : World σ} {a : Abort}
      (hopen : openStreams options step t (workingDir? options t) w = (opened, .error a))
  | unstarted {opened : World σ} {streams : Streams} {message : String}
      (hopen : openStreams options step t (workingDir? options t) w = (opened, .ok streams))
      (hstart : (launcher (launchOf step t (workingDir? options t) streams) opened.host
        opened.launcher).1 = .error message)
  | piped (hpipe : step.continuation = .pipe)

namespace Fails

variable {isLast : Bool} {final : Task}

theorem outcome (h : Fails launcher options step t w) :
    (∃ a, (runStep launcher options step t w).2 = .error a) ∨ step.continuation = .pipe := by
  cases h with
  | @unopened opened a hopen => exact Or.inl ⟨a, by simp only [runStep, hopen]⟩
  | @unstarted opened streams message hopen hstart =>
    left
    obtain ⟨host, state, hlaunch⟩ : ∃ host state,
        launcher (launchOf step t (workingDir? options t) streams) opened.host opened.launcher =
          (.error message, host, state) := ⟨_, _, Prod.ext hstart rfl⟩
    refine ⟨.failed (.launch message), ?_⟩
    simp only [runStep, hopen, World.note]
    rw [hlaunch]
    exact (closeWith_empty _ _ _).1
  | piped hpipe => exact Or.inr hpipe

theorem stops (h : Fails launcher options step t w) (isLast : Bool) :
    Stops step isLast (runStep launcher options step t w).2 := by
  rcases h.outcome with ⟨a, ha⟩ | hpipe
  · rw [ha]
    exact trivial
  · cases (runStep launcher options step t w).2 with
    | error a => exact trivial
    | ok u => exact Or.inl hpipe

theorem settled (h : Fails launcher options step t w) (hfree : Unhindered launcher options step t w)
    (hsettled : Settled step isLast (runStep launcher options step t w).2 final) :
    final.exitCode = -1 ∧ final.completed = false ∧ ∃ message, final.stderr = "error: " ++ message := by
  have hkept := hfree.contains.2
  have hopen : final.completed = false := by
    rw [← Bool.not_eq_true, hsettled.completed]
    rintro ⟨⟨u, hu⟩, hlast⟩
    rcases h.outcome with ⟨a, ha⟩ | hpipe
    · rw [ha] at hu
      cases hu
    · simp [hpipe] at hlast
  cases hran : (runStep launcher options step t w).2 with
  | error a =>
    cases a with
    | escaped e => exact absurd hran (hkept e)
    | failed f =>
      obtain ⟨hcode, herror⟩ := hsettled.failed f hran
      exact ⟨hcode, hopen, f.message, herror⟩
  | ok u =>
    have hpipe : step.continuation = .pipe :=
      h.outcome.resolve_left fun ⟨a, ha⟩ => by rw [hran] at ha; cases ha
    obtain ⟨hcode, herror⟩ := hsettled.piped ⟨u, hran⟩ hpipe
    exact ⟨hcode, hopen, _, herror⟩

end Fails

theorem Proceeds.runSteps_append {done rest : List Step} {t₁ : Task} {w₁ : World σ}
    (h : Proceeds launcher options done t w t₁ w₁) (hrest : rest ≠ []) :
    runSteps launcher options (done ++ rest) t w = runSteps launcher options rest t₁ w₁ := by
  induction h with
  | nil t w => rfl
  | @cons step done t t₁ t₂ w w₁ w₂ hrun hgo _ ih =>
    have hlater : (done ++ rest).isEmpty = false := by simp [hrest]
    rw [List.cons_append, runSteps_cons, round, hrun, hlater, follow_of_not_stops hgo]
    exact ih

/-- The failures of a file stay with it. No error escapes from running a chain of which no step that is
reached meets a name that cannot be passed on or a write that is refused, and nothing that was opened
is left open. Wherever the chain comes to a step that cannot open its files, cannot start its process
or ends in a pipe, the file is left with exit code -1 and the error, not completed; nothing that was
opened for that step is left open, and no later step starts a process. -/
theorem run_contains_failures (launcher : Launcher σ) {chain : Chain} (callback : Callback)
    (w : World σ)
    (hfree : UnhinderedAlong launcher options chain.steps { t with completed := false }
      (w.log .debug ("EXEC: enter " ++ t.path))) :
    let begun : Task := { t with completed := false }
    let entered := w.log .debug ("EXEC: enter " ++ t.path)
    let ended := run launcher chain options callback t w
    ended.2.2 = none ∧ w.Tidies ended.1 ∧
      ∀ done step rest t₁ w₁, chain.steps = done ++ step :: rest →
        Proceeds launcher options done begun entered t₁ w₁ → Fails launcher options step t₁ w₁ →
        ended.2.1.exitCode = -1 ∧ ended.2.1.completed = false ∧
          (∃ message, ended.2.1.stderr = "error: " ++ message) ∧
          w₁.Tidies (runStep launcher options step t₁ w₁).1 ∧
          ended.1.launches = (runStep launcher options step t₁ w₁).1.launches := by
  intro begun entered ended
  obtain ⟨htidies, hnone⟩ := run_contains callback hfree
  refine ⟨hnone, htidies, ?_⟩
  intro done step rest t₁ w₁ hsplit hproceeds hfails
  obtain ⟨-, hcompleted, -⟩ := hproceeds.spec
  have hstep : Unhindered launcher options step t₁ w₁ := hfree done step rest t₁ w₁ hsplit hproceeds
  obtain ⟨w', final, escaped, hfollow, hquiet, -, hsettled⟩ :=
    follow_of_stops hcompleted (runStep_ran launcher options step t₁ w₁) (hfails.stops rest.isEmpty)
      (runStep launcher options step t₁ w₁).1
  have hsteps : runSteps launcher options chain.steps begun entered = (w', final, escaped) := by
    rw [hsplit, hproceeds.runSteps_append (by simp), runSteps_cons, round, hfollow]
  obtain ⟨hafter, hresult⟩ := run_quiet launcher chain options callback t w hsteps
  have hfinal : ended.2.1 = final := congrArg Prod.fst hresult
  obtain ⟨hcode, hopen, herror⟩ := hfails.settled hstep (hfinal ▸ hsettled)
  exact ⟨hcode, hopen, herror, hstep.contains.1, (hquiet.trans hafter).launches⟩

theorem devices_runStep (hkeeps : ∀ l (host : Host) state, host.SameDevices (launcher l host state).2.1)
    (options : ExecutionOptions) (step : Step) (t : Task) (w : World σ) :
    w.host.SameDevices (runStep launcher options step t w).1.host := by
  have hopening := devices_openStreams options step t (workingDir? options t) w
  have hstepped := runStep_stepped launcher options step t w
  generalize runStep launcher options step t w = result at hstepped ⊢
  have hend : ∀ {opened : World σ} {streams : Streams} {started : Except String Finished} {host : Host}
      {state : σ} {v : World σ} {names : List String} {u : World σ},
      openStreams options step t (workingDir? options t) w = (opened, .ok streams) →
      launcher (launchOf step t (workingDir? options t) streams) opened.host opened.launcher =
        (started, host, state) →
      v.host = host → v.Closes u names → w.host.SameDevices u.host := by
    intro opened streams started host state v names u hopen hstart hv hcloses
    have hlaunch := hkeeps (launchOf step t (workingDir? options t) streams) opened.host
      opened.launcher
    rw [hstart] at hlaunch
    rw [hopen] at hopening
    exact (hopening.trans hlaunch).trans (hv ▸ hcloses.devices)
  cases hstepped with
  | unopened hopen =>
    rw [hopen] at hopening
    exact hopening
  | unstarted hopen hstart =>
    obtain ⟨names, hcloses⟩ := closeWith_closes _ _ _ _ _
    exact hend hopen hstart rfl hcloses
  | exited hopen hstart =>
    obtain ⟨names, hcloses⟩ := closeWith_closes _ _ _ _ _
    exact hend hopen hstart rfl hcloses

/-- Where files take whatever is written, and starting a process leaves that and the encoding of names
as they are, it is enough that the names of all files can be passed on. -/
theorem UnhinderedAlong.of_nameable {steps : List Step}
    (hkeeps : ∀ l (host : Host) state, host.SameDevices (launcher l host state).2.1)
    (htakes : w.host.unwritable = [])
    (hnames : ∀ step ∈ steps, Nameable w.host options step t) :
    UnhinderedAlong launcher options steps t w := by
  have hdevices : ∀ {done : List Step} {t₁ : Task} {w₁ : World σ},
      Proceeds launcher options done t w t₁ w₁ → w.host.SameDevices w₁.host := by
    intro done t₁ w₁ hproceeds
    clear hnames
    induction hproceeds with
    | nil t w => exact .refl _
    | @cons step rest t t₁ t₂ w w₁ w₂ hrun hgo hrest ih =>
      have hstep := devices_runStep hkeeps options step t w
      rw [hrun] at hstep
      exact hstep.trans (ih (hstep.unwritable.trans htakes))
  intro done step rest t₁ w₁ hsplit hproceeds
  have hreached := hdevices hproceeds
  refine ⟨((hnames step (by simp [hsplit])).of_devices hreached).of_sameFile hproceeds.spec.1, ?_⟩
  intro opened streams finished host state hopen hstart
  have hopening := devices_openStreams options step t₁ (workingDir? options t₁) w₁
  have hlaunch := hkeeps (launchOf step t₁ (workingDir? options t₁) streams) opened.host opened.launcher
  rw [hopen] at hopening
  rw [hstart] at hlaunch
  exact refusal?_of_unwritable
    (((hreached.trans hopening).trans hlaunch).unwritable.trans htakes) streams _ _

/-- The second step of three opens its output and then cannot open its input. -/
theorem run_contains_failures_of_missing_input :
    let chain := Chain.parse ["probe", "&", "tool", ">", "/out", "<", "%DIRUN_FNAME%.in", "&", "last"]
    let t : Task := { path := "/d/f", relative := "f", name := "f" }
    let w : World Unit :=
      { host := { root := .dir [], cwd := "/", environment := ⟨[], [], "/"⟩ }, launcher := () }
    let launcher : Launcher Unit := fun _ host s => (.ok {}, host, s)
    let ended := run launcher chain {} .raising t w
    (∀ step ∈ chain.steps, Nameable w.host {} step t) ∧ ended.2.2 = none ∧ w.Tidies ended.1 ∧
      ended.2.1.exitCode = -1 ∧ ended.2.1.completed = false ∧
      ended.1.launches.map Launch.path = ["probe"] := by
  intro chain t w launcher ended
  let begun : Task := { t with completed := false }
  let entered := w.log .debug ("EXEC: enter " ++ t.path)
  have hnames : ∀ step ∈ chain.steps, Nameable w.host {} step t := by decide +kernel
  have hfree : UnhinderedAlong launcher {} chain.steps begun entered :=
    .of_nameable (fun _ host _ => .refl host) rfl hnames
  obtain ⟨hnone, htidies, hfailures⟩ := run_contains_failures launcher .raising w hfree
  let first := chain.steps.get ⟨0, by decide +kernel⟩
  let second := chain.steps.get ⟨1, by decide +kernel⟩
  let probed := (runStep launcher {} first begun entered).1
  have hprobe : runStep launcher {} first begun entered = (probed, .ok begun) :=
    Prod.ext rfl (by decide +kernel)
  have hproceeds : Proceeds launcher {} [first] begun entered begun probed :=
    .cons hprobe (by simp only [Stops]; decide +kernel) (.nil begun probed)
  have hopen : openStreams {} second begun none probed =
      ((openStreams {} second begun none probed).1,
        .error (.failed (.redirection .noEntry "f.in"))) := Prod.ext rfl (by decide +kernel)
  obtain ⟨hcode, hcompleted, -, -, hlaunches⟩ :=
    hfailures [first] second (chain.steps.drop 2) begun probed (by decide +kernel) hproceeds
      (.unopened hopen)
  have hended : ended = run launcher chain {} .raising t w := rfl
  rw [hended]
  refine ⟨hnames, hnone, htidies, hcode, hcompleted, ?_⟩
  rw [hlaunches]
  decide +kernel

/-- A name that cannot be passed to the system lets the error escape: the file is not failed, and the
output that was opened before stays open. -/
theorem run_lets_nul_escape :
    let chain := Chain.parse ["tool", ">", "/out", "2>", "err"]
    let options : ExecutionOptions := { workingDirectory := "%DIRUN_DPATH%\x00" }
    let t : Task := { path := "/d/f", relative := "f", name := "f" }
    let w : World Unit :=
      { host := { root := .dir [], cwd := "/", environment := ⟨[], [], "/"⟩ }, launcher := () }
    let ended := run (fun _ host s => (.ok {}, host, s)) chain options .returning t w
    ended.2 = (t, some .nulInName) ∧ ended.1.trace.filterMap Event.opened? = ["/out"] ∧
      ended.1.trace.filterMap Event.closed? = [] := by
  decide +kernel

-- So does a write that is refused: the error output that was opened behind it stays open.
example :
    let chain := Chain.parse ["tool", ">", "/full", "2>", "/err"]
    let t : Task := { path := "/d/f", relative := "f", name := "f" }
    let w : World Unit :=
      { host :=
          { root := .dir [("full", .file [] 0o666)], cwd := "/", environment := ⟨[], [], "/"⟩
            unwritable := [(["full"], .noSpace)] }
        launcher := () }
    let ended := run (fun _ host s => (.ok { stdout := [[0x68, 0x69, 10]] }, host, s)) chain {}
      .returning t w
    ended.2 = (t, some (.unwritten .noSpace)) ∧
      ended.1.trace.filterMap Event.opened? = ["/full", "/err"] ∧
      ended.1.trace.filterMap Event.closed? = ["/full"] := by
  decide +kernel

end Execution
end FileSweep
