import FileSweep.Proofs.Books
import FileSweep.Proofs.Outline
import FileSweep.Proofs.Validation
import FileSweep.Proofs.Works

/-! A sweep that scans, then runs the command on one file after another, then publishes the total
is one of the schedules: so the gate of the program that runs opens, and its books balance, like
those of all others. -/
namespace FileSweep

open Relation

namespace Execution

variable {σ : Type}

theorem round_last_ends (launcher : Launcher σ) (options : ExecutionOptions) (step : Step) (t : Task)
    (w : World σ) : ∃ w' u escaped, round launcher options step true t w = (w', .ends u escaped) := by
  unfold round
  generalize runStep launcher options step t w = result
  obtain ⟨v, outcome⟩ := result
  cases outcome with
  | error a => cases a <;> exact ⟨_, _, _, rfl⟩
  | ok u =>
    simp only [follow]
    cases proceeds? step.continuation u.exitCode with
    | error f => exact ⟨_, _, _, rfl⟩
    | ok proceed =>
      simp only [Bool.or_true, if_true]
      split <;> exact ⟨_, _, _, rfl⟩

end Execution

namespace SweepRun

variable {chain : Chain} {options : ExecutionOptions} {σ : Type} {launcher : Launcher σ}

def scanning (chain : Chain) (t : Traversal) : SweepRun :=
  { scan := t, jobs := t.dispatched.map (Job.start chain) }

theorem scan_reaches {t u : Traversal} (h : Traversal.Reaches (fun _ => false) t u) :
    Reaches chain options (scanning chain t) (scanning chain u) := by
  unfold Traversal.Reaches at h
  unfold Reaches
  refine ReflTransGen.lift (scanning chain) (fun a b hstep => ?_) _ _ h
  rcases hstep with ⟨action, visit, hvisit, rfl⟩ | rfl
  · have hscan := @Step.scan chain options (scanning chain a) action visit hvisit
    simpa [scanning, Function.onFun, Traversal.after] using hscan
  · exact .cancel

theorem runSteps_reaches {steps : List FileSweep.Step} (hne : steps ≠ []) {s : SweepRun}
    {before after : List Job} {job : Job} (hjobs : s.jobs = before ++ job :: after)
    (hstage : job.stage = .running steps) {w w' : World σ} {t : Task} {escaped : Option AccessError}
    (hrun : Execution.runSteps launcher options steps job.task w = (w', t, escaped)) :
    Reaches chain options s
      { s with
        jobs := before ++ { job with task := t, stage := .stopped, escaped } :: after } := by
  induction steps generalizing s job w with
  | nil => exact absurd rfl hne
  | cons step left ih =>
    rw [Execution.runSteps_cons] at hrun
    obtain ⟨v, verdict, hround⟩ : ∃ v verdict, Execution.round launcher options step left.isEmpty
      job.task w = (v, verdict) := ⟨_, _, rfl⟩
    rw [hround] at hrun
    have hfirst := @Step.round chain options s σ launcher w v before after job step left verdict
      hjobs hstage hround
    cases verdict with
    | ends u e =>
      obtain ⟨rfl, rfl, rfl⟩ : v = w' ∧ u = t ∧ e = escaped := by simpa using hrun
      exact ReflTransGen.single hfirst
    | proceeds u =>
      have hleft : left ≠ [] := by
        rintro rfl
        obtain ⟨w₁, u₁, e, hends⟩ := Execution.round_last_ends launcher options step job.task w
        rw [List.isEmpty_nil, hends] at hround
        cases hround
      have hrest := @ih hleft
        { s with jobs := before ++ job.next left (.proceeds u) :: after } (job.next left (.proceeds u))
        rfl rfl v hrun
      exact (ReflTransGen.single hfirst).trans hrest

/-- What has been done once the command is through with a file: the gate and the reports are those
of the world in which it was run. -/
theorem run_reaches (hchain : chain.steps ≠ []) {callback : Callback} (hcallback : callback ≠ .absent)
    (t : Task) (w : World σ) {s : SweepRun} {before after : List Job}
    (hjobs : s.jobs = before ++ Job.start chain t :: after) (hgate : s.gate = w.gate)
    (hreports : s.reports = w.reports) :
    let ended := Execution.run launcher chain options callback t w
    Reaches chain options s
      { s with
        jobs := before ++ { file := t, task := ended.2.1, stage := .marked, escaped := ended.2.2 } :: after
        gate := ended.1.gate
        reports := ended.1.reports } := by
  intro ended
  have hgate' : ended.1.gate = s.gate.mark.1 := by
    rw [hgate]
    exact Execution.gate_run launcher chain options callback t w
  have hreports' : ended.1.reports = s.reports ++ [ended.2.1] := by
    rw [hreports]
    exact Execution.reports_run launcher chain options hcallback t w
  rw [hgate', hreports']
  obtain ⟨w', final, escaped, hsteps⟩ : ∃ w' final escaped,
      Execution.runSteps launcher options chain.steps { t with completed := false }
        (w.log .debug ("EXEC: enter " ++ t.path)) = (w', final, escaped) := ⟨_, _, _, rfl⟩
  have hended : ended.2 = (final, escaped) :=
    (Execution.run_quiet launcher chain options callback t w hsteps).2
  rw [hended]
  let stopped : Job := { file := t, task := final, stage := .stopped, escaped }
  let reported : Job := { stopped with stage := .reported }
  have hstop : Reaches chain options s { s with jobs := before ++ stopped :: after } :=
    runSteps_reaches hchain hjobs rfl hsteps
  have hreport := @Step.report chain options { s with jobs := before ++ stopped :: after } before
    after stopped rfl rfl
  have hmark := @Step.mark chain options
    { s with jobs := before ++ reported :: after, reports := s.reports ++ [final] } before after
    reported rfl rfl
  exact (hstop.tail hreport).tail hmark

theorem executeAll_reaches (hchain : chain.steps ≠ []) {callback : Callback}
    (hcallback : callback ≠ .absent) (files : List Task) (w : World σ) {s : SweepRun}
    {before : List Job} (hjobs : s.jobs = before ++ files.map (Job.start chain))
    (hgate : s.gate = w.gate) (hreports : s.reports = w.reports) :
    let ended := Sweep.executeAll launcher chain options callback files w
    ∃ done : List Job, done.map Job.task = ended.2.1 ∧ (∀ j ∈ done, j.stage = .marked) ∧
      (ended.2.2 = none → ∀ j ∈ done, j.escaped = none) ∧
      Reaches chain options s
        { s with jobs := before ++ done, gate := ended.1.gate, reports := ended.1.reports } := by
  induction files generalizing w s before with
  | nil =>
    have hsame : before = s.jobs := by simpa using hjobs.symm
    refine ⟨[], rfl, by simp, by simp, ?_⟩
    simp only [Sweep.executeAll, List.append_nil, hsame, ← hgate, ← hreports]
    exact ReflTransGen.refl
  | cons t files ih =>
    rw [Sweep.executeAll]
    simp only
    let ended := Execution.run launcher chain options callback t w
    let first : Job := { file := t, task := ended.2.1, stage := .marked, escaped := ended.2.2 }
    have hfirst := @run_reaches chain options σ launcher hchain callback hcallback t w s before _
      hjobs hgate hreports
    obtain ⟨done, htasks, hmarked, hcontained, hrest⟩ := @ih ended.1
      { s with
        jobs := before ++ first :: files.map (Job.start chain)
        gate := ended.1.gate
        reports := ended.1.reports } (before ++ [first]) (by simp) rfl rfl
    refine ⟨first :: done, by rw [List.map_cons, htasks], ?_, ?_, ?_⟩
    · intro j hj
      rcases List.mem_cons.mp hj with rfl | hj
      · rfl
      · exact hmarked j hj
    · intro hnone j hj
      obtain ⟨hhere, hlater⟩ : ended.2.2 = none ∧ _ = none := by simpa using hnone
      rcases List.mem_cons.mp hj with rfl | hj
      · exact hhere
      · exact hcontained hlater j hj
    · rw [List.append_assoc] at hrest
      exact hfirst.trans hrest

end SweepRun

namespace Sweep

variable {σ : Type}

theorem total_executeAll (launcher : Launcher σ) (chain : Chain) (options : ExecutionOptions)
    (callback : Callback) (files : List Task) (w : World σ) :
    (executeAll launcher chain options callback files w).1.gate.total = w.gate.total := by
  induction files generalizing w with
  | nil => rfl
  | cons t files ih =>
    rw [executeAll]
    simp only
    rw [ih, Execution.gate_run, Gate.mark_total]

theorem gate_publishTotal (w : World σ) {total : Int} {call : Gate × Bool}
    (h : w.gate.setTotal? total = some call) : (publishTotal w total).gate = call.1 := by
  unfold publishTotal
  rw [h]
  exact World.gate_passGate w call

theorem reports_publishTotal (w : World σ) (total : Int) :
    (publishTotal w total).reports = w.reports := by
  unfold publishTotal
  split
  · rfl
  · exact World.reports_passGate w _

/-- The sweep that scans, then runs the command on one file after another, then publishes the
total is a schedule in which everything comes to its end. Its gate, which is open there, its
reports and what it records of the files are those of the world that is left. -/
theorem sequential_reaches (launcher : Launcher σ) {chain : Chain} (hchain : chain.steps ≠ [])
    (options : ExecutionOptions) {callback : Callback} (hcallback : callback ≠ .absent)
    (host : Host) (state : σ) {name : String} {survey : Survey} {cancelled : Bool} {t : Traversal}
    {node : DirNode}
    (hscan : Traversal.Reaches (fun _ => false) { visit := .waiting name survey, cancelled } t)
    (hvisit : t.visit = .returned node) :
    let ended := executeAll launcher chain options callback t.dispatched { host, launcher := state }
    let world := publishTotal ended.1 node.count
    ∃ s, SweepRun.Reaches chain options (.start name survey cancelled) s ∧
      s.gate = world.gate ∧ world.gate.released = true ∧ s.reports = world.reports ∧
      s.jobs.map Job.task = ended.2.1 ∧ (ended.2.2 = none → s.Returned node) := by
  intro ended world
  obtain ⟨done, htasks, hmarked, hcontained, hexecuted⟩ :=
    @SweepRun.executeAll_reaches chain options σ launcher hchain callback hcallback t.dispatched
      { host, launcher := state } (SweepRun.scanning chain t) [] rfl rfl rfl
  have htotal : ended.1.gate.total = none :=
    total_executeAll launcher chain options callback t.dispatched { host, launcher := state }
  obtain ⟨call, hcall⟩ : ∃ call, ended.1.gate.setTotal? node.count = some call := by
    unfold Gate.setTotal?
    rw [htotal]
    exact ⟨_, rfl⟩
  let last : SweepRun :=
    { scan := t, jobs := done, gate := call.1, reports := ended.1.reports }
  have hpublish : SweepRun.Step chain options
      { scan := t, jobs := done, gate := ended.1.gate, reports := ended.1.reports } last :=
    .publish hvisit hcall
  have hlast : SweepRun.Reaches chain options (.start name survey cancelled) last :=
    (SweepRun.scan_reaches hscan).trans (hexecuted.tail hpublish)
  have hgate : last.gate = world.gate := (gate_publishTotal ended.1 hcall).symm
  have hpublished : last.gate.total.isSome = true := by
    obtain ⟨-, hreleased⟩ := Gate.setTotal?_eq_some hcall
    simp [last, hreleased]
  have hopen : last.gate.released = true := SweepRun.released_of_reaches hlast hpublished hmarked
  exact ⟨last, hlast, hgate, hgate ▸ hopen, (reports_publishTotal ended.1 node.count).symm, htasks,
    fun hescaped => ⟨hvisit, hopen, hmarked, hcontained hescaped⟩⟩

def requestOf (h : Host) (s : Settings) : ScanRequest :=
  ⟨h.normalizeSetting (some s.rootPath) h.cwd, s.filePattern, s.recurse⟩

theorem runWith_of_scan {launcher : Launcher σ} {settings : Settings} {chain : Chain}
    {callback : Callback} {cancel : Option Bool} {h : Host} {state : σ} {node : DirNode}
    {scanned : ScanState} (hchain : chain.isEmpty = false)
    (hrun : Scan.run h (requestOf h settings) (fun _ => .go) (cancel.getD false) =
      .ok ⟨some node, scanned⟩) :
    let executed := executeAll launcher chain (executionOptions settings) callback
      scanned.dispatched { host := h, launcher := state }
    let report := runWith launcher settings chain callback cancel h state
    report.trace = (publishTotal executed.1 node.count).trace ∧
      report.result = match executed.2.2 with
        | some e => .error e
        | none => .ok (conclude settings chain (withOutcomes node executed.2.1)
            (cancel.getD false)) := by
  intro executed report
  have hreport : report = runWith launcher settings chain callback cancel h state := rfl
  unfold runWith at hreport
  extract_lets _ request cancelled _ at hreport
  have hrun' : Scan.run h request (fun _ => .go) cancelled = .ok ⟨some node, scanned⟩ := hrun
  rw [hrun'] at hreport
  simp only [hchain, Bool.false_eq_true, if_false, Option.getD_some] at hreport
  change report = match executed.2.2 with | some e => _ | none => _ at hreport
  cases hescaped : executed.2.2 with
  | some e => rw [hescaped] at hreport; exact ⟨hreport ▸ rfl, hreport ▸ rfl⟩
  | none => rw [hescaped] at hreport; exact ⟨hreport ▸ rfl, hreport ▸ rfl⟩

theorem runWith_reaches {launcher : Launcher σ} {settings : Settings} {chain : Chain}
    {callback : Callback} {cancel : Option Bool} {h : Host} {state : σ} {r : SweepResult}
    {children : List (String × Entry)} {glob : Glob} (hchain : chain.isEmpty = false)
    (hcallback : callback ≠ .absent)
    (hdir : h.entry? (h.absolute (requestOf h settings).root) = some (.dir children))
    (hglob : Glob.compile? settings.filePattern = some glob)
    (hresult : (runWith launcher settings chain callback cancel h state).result = .ok r) :
    let root := h.absolute (requestOf h settings).root
    let survey := Survey.ofEntry h ⟨root, glob, settings.recurse⟩ root (.dir children)
    ∃ node s, SweepRun.Reaches chain (executionOptions settings)
        (.start root survey (cancel.getD false)) s ∧ s.Returned node ∧
      r = s.result settings chain node (cancel.getD false) ∧
      (runWith launcher settings chain callback cancel h state).trace.filterMap Event.report? =
        s.reports := by
  intro root survey
  obtain ⟨node, scanned, t, hrun, hscan, hvisit, hdispatched⟩ :=
    @Scan.run_returns h (requestOf h settings) children glob (fun _ => .go) hdir hglob (by simp)
      (cancel.getD false)
  obtain ⟨htrace, hreport⟩ := @runWith_of_scan σ launcher settings chain callback cancel h state
    node scanned hchain hrun
  let executed := executeAll launcher chain (executionOptions settings) callback scanned.dispatched
    { host := h, launcher := state }
  have hescaped : executed.2.2 = none := by
    cases he : executed.2.2 with
    | none => rfl
    | some e =>
      simp only [executed] at he
      rw [hresult, he] at hreport
      cases hreport
  have hr : r = conclude settings chain (withOutcomes node executed.2.1) (cancel.getD false) := by
    simp only [executed] at hescaped
    rw [hresult, hescaped] at hreport
    exact Except.ok.inj hreport
  have hsteps : chain.steps ≠ [] := by
    intro hnil
    rw [Chain.isEmpty, hnil] at hchain
    cases hchain
  obtain ⟨s, hreaches, -, -, hreports, htasks, hreturned⟩ := sequential_reaches launcher hsteps
    (executionOptions settings) hcallback h state hscan hvisit
  rw [hdispatched] at hreports htasks hreturned
  refine ⟨node, s, hreaches, hreturned hescaped, ?_, ?_⟩
  · rw [hr, SweepRun.result, htasks]
  · rw [htrace, hreports]
    rfl

theorem runWith_of_empty {launcher : Launcher σ} {settings : Settings} {chain : Chain}
    {callback : Callback} {cancel : Option Bool} {h : Host} {state : σ} {r : SweepResult}
    (hchain : chain.isEmpty = true)
    (hresult : (runWith launcher settings chain callback cancel h state).result = .ok r) :
    r.numPassed = 0 ∧ r.numFailed = 0 ∧
      (runWith launcher settings chain callback cancel h state).trace = [] := by
  generalize hreport : runWith launcher settings chain callback cancel h state = report at hresult ⊢
  unfold runWith at hreport
  extract_lets _ request cancelled at hreport
  cases hscan : Scan.run h request (fun _ => .go) cancelled with
  | error e =>
    rw [hscan] at hreport
    subst hreport
    obtain rfl := Except.ok.inj hresult
    exact ⟨rfl, rfl, rfl⟩
  | ok outcome =>
    rw [hscan] at hreport
    simp only [hchain, if_true] at hreport
    subst hreport
    obtain rfl := Except.ok.inj hresult
    simp [conclude, hchain]

theorem run_eq_runWith (launcher : Launcher σ) (config : Json.Value) (chain : Chain)
    (callback : Callback) (cancel : Option Bool) (h : Host) (state : σ) :
    let report := runWith launcher (Settings.sanitize h config).1 chain callback cancel h state
    (run launcher config chain callback cancel h state).result = report.result ∧
      (run launcher config chain callback cancel h state).trace = report.trace := by
  unfold run
  generalize Settings.sanitize h config = checked
  obtain ⟨settings, warnings⟩ := checked
  simp only [and_self]

/-- The books of a sweep balance in every order in which files are scanned, executed and reported,
and wherever it is cancelled. The receiver of the reports judges by the settings as it has checked
them, and the totals by those settings checked once more. -/
theorem books_balance {h : Host} {reporter : Settings} (chain : Chain)
    {children : List (String × Entry)} {glob : Glob} (hcwd : Path.isAbsolute h.cwd = true)
    (hwell : (Entry.dir children).WellNamed) :
    let engine := (Settings.sanitize h reporter.toJson).1
    let root := h.absolute (requestOf h engine).root
    let survey := Survey.ofEntry h ⟨root, glob, engine.recurse⟩ root (.dir children)
    h.entry? root = some (.dir children) → Glob.compile? engine.filePattern = some glob →
    (chain.isEmpty = false →
      (∀ cancelled s node, SweepRun.Reaches chain (executionOptions engine)
          (.start root survey cancelled) s → s.Returned node →
        ∀ late, (s.result engine chain node late).Balanced reporter.passCode s.reports) ∧
      ∀ (launcher : Launcher σ) callback cancel state r, callback ≠ .absent →
        (run launcher reporter.toJson chain callback cancel h state).result = .ok r →
        r.ok = true ∧ r.Balanced reporter.passCode
          ((run launcher reporter.toJson chain callback cancel h state).trace.filterMap
            Event.report?)) ∧
    (chain.isEmpty = true →
      ∀ (launcher : Launcher σ) callback cancel state r,
        (run launcher reporter.toJson chain callback cancel h state).result = .ok r →
        r.numPassed = 0 ∧ r.numFailed = 0 ∧
          (run launcher reporter.toJson chain callback cancel h state).trace = []) := by
  intro engine root survey hdir hglob
  have hcode : engine.passCode = reporter.passCode := Settings.passCode_sanitize h reporter
  let full := Walk.tree h glob engine.recurse root [] root (.dir children)
  have htree : survey.tree root = full :=
    Scan.tree_survey hcwd glob engine.recurse (requestOf h engine).root hwell
  have hpaths : (full.allFiles.map Task.path).Nodup :=
    Scan.nodup_paths_tree hcwd glob engine.recurse (requestOf h engine).root hwell
  refine ⟨?_, ?_⟩
  · intro hchain
    have hbalanced : ∀ cancelled s node, SweepRun.Reaches chain (executionOptions engine)
        (.start root survey cancelled) s → s.Returned node →
        ∀ late, (s.result engine chain node late).Balanced reporter.passCode s.reports := by
      intro cancelled s node hreach hend late
      have hstart := SweepRun.kept_start root survey cancelled
      rw [htree] at hstart
      rw [← hcode]
      exact (hstart.reaches hreach).balanced hpaths hend engine hchain late
    refine ⟨hbalanced, ?_⟩
    intro launcher callback cancel state r hcallback hresult
    obtain ⟨hsame, htrace⟩ := run_eq_runWith launcher reporter.toJson chain callback cancel h state
    rw [hsame] at hresult
    obtain ⟨node, s, hreach, hend, rfl, hreports⟩ :=
      runWith_reaches hchain hcallback hdir hglob hresult
    rw [htrace, hreports]
    exact ⟨rfl, hbalanced _ s node hreach hend _⟩
  · intro hchain launcher callback cancel state r hresult
    obtain ⟨hsame, htrace⟩ := run_eq_runWith launcher reporter.toJson chain callback cancel h state
    rw [hsame] at hresult
    rw [htrace]
    exact runWith_of_empty hchain hresult

/-- Of two files one passes: both are reported, and one of the reports is of a pass. -/
theorem books_balance_of_two_files :
    let children : List (String × Entry) :=
      [("sub", .dir [("b.txt", .file [] 0)]), ("a.txt", .file [] 0)]
    let h : Host :=
      { root := .dir [("d", .dir children)], cwd := "/d", environment := ⟨[], [], "/"⟩ }
    let reporter : Settings := { rootPath := "/d", filePattern := "*.txt", passCode := 7 }
    let chain := Chain.parse ["tool", "%DIRUN_FNAME%"]
    let launcher : Launcher Unit := fun l host s =>
      (.ok { status := if l.argv = ["a"] then 7 else 0 }, host, s)
    let report := run launcher reporter.toJson chain .raising none h ()
    ∃ r, report.result = .ok r ∧ r.numPassed = 1 ∧ r.numFailed = 1 ∧
      r.Balanced 7 (report.trace.filterMap Event.report?) := by
  intro children h reporter chain launcher report
  have hengine : (Settings.sanitize h reporter.toJson).1 = reporter := by decide +kernel
  have hroot : h.absolute (requestOf h reporter).root = "/d" := by decide +kernel
  have hwell : (Entry.dir children).WellNamed := by
    simp [children, Entry.WellNamed, Entry.AllWellNamed]
    decide +kernel
  have hdir : h.entry? (h.absolute (requestOf h reporter).root) = some (.dir children) := by
    rw [hroot]
    rfl
  have hglob : Glob.compile? reporter.filePattern =
      some ⟨[.anyText, .char '.', .char 't', .char 'x', .char 't']⟩ := by decide +kernel
  have hbooks := @books_balance Unit h reporter chain children
    ⟨[.anyText, .char '.', .char 't', .char 'x', .char 't']⟩ (by decide +kernel) hwell
  simp only [hengine] at hbooks
  obtain ⟨r, hr⟩ : ∃ r, report.result = .ok r := by
    have hok : report.result.isOk = true := by decide +kernel
    cases hresult : report.result with
    | error e => rw [hresult] at hok; cases hok
    | ok r => exact ⟨r, rfl⟩
  obtain ⟨-, hbalanced⟩ := ((hbooks hdir hglob).1 (by decide +kernel)).2 launcher .raising none () r
    (by decide) hr
  refine ⟨r, hr, ?_, ?_, hbalanced⟩
  · have hpassed : report.result.toOption.map SweepResult.numPassed = some 1 := by decide +kernel
    rw [hr] at hpassed
    exact Option.some.inj hpassed
  · have hfailed : report.result.toOption.map SweepResult.numFailed = some 1 := by decide +kernel
    rw [hr] at hfailed
    exact Option.some.inj hfailed

end Sweep
end FileSweep
