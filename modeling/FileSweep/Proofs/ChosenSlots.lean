import FileSweep.Proofs.Normalization

/-! Which redirections of a step have an effect. Of the handles that can carry an output the first
that is redirected decides, and those behind it are not looked at: their files are not opened, and
nothing that is recorded hangs on them. So steps that agree on the slots looked at run alike, and
so do chains of such steps. -/
namespace FileSweep

namespace Step

/-- The redirection that is chosen for an output: the first of an order that is set. -/
def chosen? (s : Step) (order : List Handle) : Option Redirection := (s.firstSet? order).map s.slot

/-- The handles that are looked at for an output: up to the first whose slot is set. -/
def consulted (s : Step) : List Handle → List Handle
  | [] => []
  | h :: hs => if (s.slot h).isSet then [h] else h :: s.consulted hs

/-- Two steps with the same program, the same input and the same redirections chosen for their
outputs, whatever their other slots hold. -/
structure Alike (a b : Step) : Prop where
  path : a.path = b.path
  args : a.args = b.args
  continuation : a.continuation = b.continuation
  input : a.slot Handle.input = b.slot Handle.input
  output : a.chosen? Handle.outputOrder = b.chosen? Handle.outputOrder
  error : a.chosen? Handle.errorOrder = b.chosen? Handle.errorOrder

theorem chosen?_cons (s : Step) (h : Handle) (hs : List Handle) :
    s.chosen? (h :: hs) = if (s.slot h).isSet then some (s.slot h) else s.chosen? hs := by
  unfold chosen? firstSet?
  rw [List.find?_cons]
  cases hset : (s.slot h).isSet <;> simp

theorem chosen?_congr {a b : Step} {order : List Handle}
    (h : ∀ handle ∈ a.consulted order, b.slot handle = a.slot handle) :
    a.chosen? order = b.chosen? order := by
  induction order with
  | nil => rfl
  | cons handle order ih =>
    have hhead : b.slot handle = a.slot handle := by
      apply h
      rw [consulted]
      split <;> simp
    rw [chosen?_cons, chosen?_cons, hhead]
    by_cases hset : (a.slot handle).isSet = true
    · rw [if_pos hset, if_pos hset]
    · rw [if_neg hset, if_neg hset]
      apply ih
      intro g hg
      apply h
      rw [consulted, if_neg hset]
      exact List.mem_cons_of_mem handle hg

theorem alike_fill {s : Step} {handle : Handle} (hinput : handle ≠ Handle.input)
    (houtput : handle ∉ s.consulted Handle.outputOrder)
    (herror : handle ∉ s.consulted Handle.errorOrder) (r : Redirection) :
    s.Alike { s with slots := s.slots.fill handle r } := by
  have hother : ∀ g, g ≠ handle →
      ({ s with slots := s.slots.fill handle r } : Step).slot g = s.slot g := by
    intro g hg
    have hslot := Slots.slot_fill s.slots handle g r
    rwa [if_neg hg] at hslot
  refine ⟨rfl, rfl, rfl, (hother _ hinput.symm).symm, ?_, ?_⟩
  · apply chosen?_congr
    intro g hg
    exact hother g fun he => houtput (he ▸ hg)
  · apply chosen?_congr
    intro g hg
    exact hother g fun he => herror (he ▸ hg)

end Step

namespace Execution

variable {σ : Type} {launcher : Launcher σ} {options : ExecutionOptions} {a b step : Step} {t : Task}
  {w opened : World σ} {streams : Streams} {finished : Finished}

theorem openSink_eq (h : Host) (t : Task) (workingDir : Option String) (step : Step)
    (order : List Handle) (collect : Bool) :
    openSink h t workingDir step order collect =
      match step.chosen? order with
      | none => .ok (h, if collect then some .buffer else none)
      | some r => (openSlot h t workingDir r).map fun (h, k) => (h, some k) := by
  unfold openSink Step.chosen?
  cases step.firstSet? order <;> rfl

theorem openStreams_congr (h : a.Alike b) (options : ExecutionOptions) (t : Task)
    (workingDir : Option String) (w : World σ) :
    openStreams options a t workingDir w = openStreams options b t workingDir w := by
  have hout : ∀ host, openSink host t workingDir a Handle.outputOrder options.collectStdout =
      openSink host t workingDir b Handle.outputOrder options.collectStdout := by
    intro host
    rw [openSink_eq, openSink_eq, h.output]
  have herr : ∀ host, openSink host t workingDir a Handle.errorOrder options.collectStderr =
      openSink host t workingDir b Handle.errorOrder options.collectStderr := by
    intro host
    rw [openSink_eq, openSink_eq, h.error]
  have hin : ∀ host, openInput host t workingDir a = openInput host t workingDir b := by
    intro host
    rw [openInput, h.input, openInput]
  simp only [openStreams, hout, herr, hin]

theorem runStep_congr (h : a.Alike b) (launcher : Launcher σ) (options : ExecutionOptions)
    (t : Task) (w : World σ) :
    runStep launcher options a t w = runStep launcher options b t w := by
  have hlaunch : launchOf a t (workingDir? options t) = launchOf b t (workingDir? options t) := by
    funext streams
    rw [launchOf, h.path, h.args, launchOf]
  simp only [runStep, openStreams_congr h, hlaunch]

theorem runStep_fill {handle : Handle} (hinput : handle ≠ Handle.input)
    (houtput : handle ∉ step.consulted Handle.outputOrder)
    (herror : handle ∉ step.consulted Handle.errorOrder) (r : Redirection) (launcher : Launcher σ)
    (options : ExecutionOptions) (t : Task) (w : World σ) :
    runStep launcher options { step with slots := step.slots.fill handle r } t w =
      runStep launcher options step t w :=
  (runStep_congr (Step.alike_fill hinput houtput herror r) launcher options t w).symm

theorem runSteps_congr {as bs : List Step} (h : List.Forall₂ Step.Alike as bs)
    (launcher : Launcher σ) (options : ExecutionOptions) (t : Task) (w : World σ) :
    runSteps launcher options as t w = runSteps launcher options bs t w := by
  induction h generalizing t w with
  | nil => rfl
  | @cons a b as bs hab hrest ih =>
    have hempty : as.isEmpty = bs.isEmpty := by cases hrest <;> rfl
    simp only [runSteps, runStep_congr hab, hab.continuation, hempty, ih]

/-- Chains of such steps come to the same on every file: what is opened, started, closed, reported
and logged, and what is left of the file. -/
theorem run_congr {as bs : List Step} (h : List.Forall₂ Step.Alike as bs) (launcher : Launcher σ)
    (options : ExecutionOptions) (callback : Callback) (t : Task) (w : World σ) :
    run launcher ⟨as⟩ options callback t w = run launcher ⟨bs⟩ options callback t w := by
  simp only [run, attend, runChain, runSteps_congr h]

/-- How an output is recorded, by the redirection that is chosen for it: not at all if that leads to
a file or discards it, always if it leads to another handle. The flag decides on an output that is
not redirected. -/
structure RecordedBy (chosen : Option Redirection) (collect : Bool) (output : Output)
    (text : String) : Prop where
  written : ∀ r, chosen = some r → r.target = .file → text = ""
  duplicated : ∀ r, chosen = some r → r.isDuplicate = true →
    text = Capture.normalize (Capture.captured output)
  unredirected : chosen = none →
    text = if collect then Capture.normalize (Capture.captured output) else ""

theorem buffer_of_openSlot {h h' : Host} {workingDir : Option String} {r : Redirection} {sink : Sink}
    (hopen : openSlot h t workingDir r = .ok (h', sink)) : sink = .buffer ↔ r.target ≠ .file := by
  unfold openSlot at hopen
  split at hopen
  next htarget _ =>
    cases hopen
    simp [htarget]
  next target htarget _ =>
    simp only at hopen
    cases hwrite : h.openWrite (resolveTarget t workingDir target)
      (if r.append then .append else .truncate) with
    | error e => rw [hwrite] at hopen; cases hopen
    | ok opened =>
      rw [hwrite] at hopen
      cases hopen
      simp [htarget]
  next hnone hsome =>
    cases hopen
    refine ⟨fun _ htarget => ?_, fun _ => rfl⟩
    cases hpath : r.path with
    | none => exact hnone htarget hpath
    | some target => exact hsome target htarget hpath

theorem recordedBy_of_openSink {h h' : Host} {workingDir : Option String} {order : List Handle}
    {collect : Bool} {sink : Option Sink} (output : Output)
    (hopen : openSink h t workingDir step order collect = .ok (h', sink)) :
    RecordedBy (step.chosen? order) collect output (recorded sink output) := by
  rw [openSink_eq] at hopen
  cases hchosen : step.chosen? order with
  | none =>
    rw [hchosen] at hopen
    cases hopen
    refine ⟨fun r hr => (Option.some_ne_none r hr.symm).elim,
      fun r hr => (Option.some_ne_none r hr.symm).elim, fun _ => ?_⟩
    cases collect <;> rfl
  | some r =>
    cases hslot : openSlot h t workingDir r with
    | error e =>
      simp only [hchosen, hslot] at hopen
      cases hopen
    | ok connected =>
      obtain ⟨host, k⟩ := connected
      have hbuffer := buffer_of_openSlot hslot
      simp only [hchosen, hslot] at hopen
      cases hopen
      refine ⟨?_, ?_, fun hnone => (Option.some_ne_none r hnone).elim⟩
      · rintro r' hr hfile
        cases hr
        apply recorded_of_ne_buffer
        intro hk
        exact hbuffer.mp (Option.some.inj hk) hfile
      · rintro r' hr hduplicate
        cases hr
        have hother : r.target ≠ .file := by
          intro hfile
          simp [Redirection.isDuplicate, hfile] at hduplicate
        rw [hbuffer.mpr hother]
        rfl

theorem openSink_of_openStreams {workingDir : Option String}
    (hopen : openStreams options step t workingDir w = (opened, .ok streams)) :
    ∃ h h', openSink w.host t workingDir step Handle.outputOrder options.collectStdout =
        .ok (h, streams.stdout) ∧
      openSink h t workingDir step Handle.errorOrder options.collectStderr =
        .ok (h', streams.stderr) := by
  unfold openStreams at hopen
  split at hopen
  next => exact absurd hopen abandon_ne_ok
  next h stdout hout =>
    simp only at hopen
    split at hopen
    next => exact absurd hopen abandon_ne_ok
    next h' stderr herr =>
      split at hopen
      next => exact absurd hopen abandon_ne_ok
      next =>
        cases hopen
        exact ⟨h, h', hout, herr⟩

/-- Only the chosen slots of a step have an effect. Steps that agree on them run alike, in every world
and whatever the process does: the same files are opened, the same process is started, and the same
outcome or error is left. So do chains of such steps. And a step whose process ends records of each
output what the slot chosen for it says, unless the file of one refuses to be written to. -/
theorem run_by_chosen_slots (launcher : Launcher σ) (options : ExecutionOptions) :
    (∀ {a b : Step}, a.Alike b → ∀ (t : Task) (w : World σ),
      runStep launcher options a t w = runStep launcher options b t w) ∧
    (∀ {as bs : List Step}, List.Forall₂ Step.Alike as bs →
      ∀ (callback : Callback) (t : Task) (w : World σ),
        run launcher ⟨as⟩ options callback t w = run launcher ⟨bs⟩ options callback t w) ∧
    ∀ {step : Step} {t : Task} {w opened : World σ} {streams : Streams} {finished : Finished}
        {host : Host} {state : σ},
      openStreams options step t (workingDir? options t) w = (opened, .ok streams) →
      launcher (launchOf step t (workingDir? options t) streams) opened.host
        opened.launcher = (.ok finished, host, state) →
      let refusal? := streams.refusal? host (Capture.captured finished.stdout)
        (Capture.captured finished.stderr)
      (∀ error, refusal? = some error →
        (runStep launcher options step t w).2 = .error (.escaped (.unwritten error))) ∧
      (refusal? = none →
        ∃ u, (runStep launcher options step t w).2 = .ok u ∧ u.exitCode = finished.status ∧
          RecordedBy (step.chosen? Handle.outputOrder) options.collectStdout finished.stdout
            u.stdout ∧
          RecordedBy (step.chosen? Handle.errorOrder) options.collectStderr finished.stderr
            u.stderr) := by
  refine ⟨?_, ?_, ?_⟩
  · intro a b h t w
    exact runStep_congr h launcher options t w
  · intro as bs h callback t w
    exact run_congr h launcher options callback t w
  · intro step t w opened streams finished host state hopen hstart refusal?
    have hran := runStep_outcome hopen hstart
    refine ⟨fun error hrefused => ?_, fun hkept => ?_⟩
    · simp only [refusal?] at hrefused
      rw [hran, hrefused]
    · obtain ⟨h, h', hout, herr⟩ := openSink_of_openStreams hopen
      simp only [refusal?] at hkept
      rw [hkept] at hran
      exact ⟨_, hran, rfl, recordedBy_of_openSink _ hout, recordedBy_of_openSink _ herr⟩

/-- The first command names two files behind what it discards and duplicates; the second discards and
duplicates by other handles. -/
theorem run_by_chosen_slots_of_shadowed :
    let launcher : Launcher Unit := fun _ host s =>
      (.ok { stdout := [[0x6F, 10]], stderr := [[0x65, 13, 10]], status := 2 }, host, s)
    let options : ExecutionOptions := { collectStdout := true }
    let full := Chain.parse ["p", "1>nul", "4>b", "2>&1", "3>>c"]
    let bare := Chain.parse ["p", "6>nul", "3>&1"]
    let t : Task := { path := "/d/f", relative := "f", name := "f" }
    let w : World Unit :=
      { host := { root := .dir [], cwd := "/", environment := ⟨[], [], "/"⟩ }, launcher := () }
    run launcher full options .returning t w = run launcher bare options .returning t w ∧
      ∃ step u, full.steps = [step] ∧ (runStep launcher options step t w).2 = .ok u ∧
        u.stdout = "" ∧ u.stderr = "e" ∧ u.exitCode = 2 := by
  intro launcher options full bare t w
  let discard : Redirection := { target := .file }
  let duplicate : Redirection := { target := .handle 1 }
  let step : Step :=
    { path := "p"
      slots := (((Slots.empty.fill 1 discard).fill 4 { target := .file, path := some "b" }).fill 2
        duplicate).fill 3 { target := .file, path := some "c", append := true } }
  let other : Step := { path := "p", slots := (Slots.empty.fill 6 discard).fill 3 duplicate }
  have hfull : full = ⟨[step]⟩ := by decide +kernel
  have hbare : bare = ⟨[other]⟩ := by decide +kernel
  have halike : step.Alike other :=
    ⟨rfl, rfl, rfl, by decide +kernel, by decide +kernel, by decide +kernel⟩
  obtain ⟨-, hruns, hrecords⟩ := run_by_chosen_slots launcher options
  refine ⟨?_, step, ?_⟩
  · rw [hfull, hbare]
    exact hruns (.cons halike .nil) .returning t w
  · have hopen : openStreams options step t (workingDir? options t) w =
        (w, .ok { stdout := some .discard, stderr := some .buffer }) := rfl
    obtain ⟨u, hu, hcode, hout, herr⟩ := (hrecords hopen rfl).2 rfl
    have hdiscard : step.chosen? Handle.outputOrder = some discard := by decide +kernel
    have hduplicate : step.chosen? Handle.errorOrder = some duplicate := by decide +kernel
    refine ⟨u, congrArg Chain.steps hfull, hu, hout.written _ hdiscard rfl, ?_, hcode⟩
    exact (herr.duplicated _ hduplicate rfl).trans (by decide +kernel)

end Execution
end FileSweep
