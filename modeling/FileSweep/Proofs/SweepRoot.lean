import FileSweep.Options.Basic
import FileSweep.Proofs.Literals
import FileSweep.Proofs.Resolution
import FileSweep.Proofs.SequentialRun
import FileSweep.Settings.File

/-! The directory that is swept. A directory that is given as an argument is laid over the settings,
checked twice with them and made absolute, and the sweep scans what comes of it. -/
namespace FileSweep

namespace Settings

theorem nodup_load (h : Host) (path : String) : ((load h path).1.map Prod.fst).Nodup := by
  have hbase := (Settings.default h.cwd).nodup_members
  unfold load
  split
  · split
    · exact hbase
    · exact Json.nodup_insertAll hbase _
    · exact hbase
  · exact hbase

theorem mem_merge {base overrides : List (String × Json.Value)}
    (honce : (overrides.map Prod.fst).Nodup) {name : String} {value : Json.Value}
    (hmem : (name, value) ∈ overrides) (hvalue : value ≠ .null) :
    (name, value) ∈ merge base overrides := by
  have hlookup : (merge base overrides).lookup name = some value := by
    refine Json.lookup_insertAll (honce.sublist (List.filter_sublist.map Prod.fst)) ?_ base
    refine List.mem_filter.mpr ⟨hmem, ?_⟩
    cases value with
    | null => exact absurd rfl hvalue
    | _ => rfl
  obtain ⟨before, after, hsplit, -⟩ := List.lookup_eq_some_iff.mp hlookup
  simp [hsplit]

end Settings

namespace Arguments

/-- A directory that is given is there, and overrides the root. -/
theorem overrides_of_targets {a : Arguments} {h : Host} {dir : String} {pattern : Option String}
    (htargets : a.targets h = .ok (some dir, pattern)) :
    h.isDir dir = true ∧ ∃ overrides, a.overrides h = .ok overrides ∧
      (overrides.map Prod.fst).Nodup ∧ ("root_path", Json.Value.str dir) ∈ overrides := by
  have hdir : h.isDir dir = true := by
    unfold targets at htargets
    split at htargets
    · cases htargets
    next first second _ _ =>
      split at htargets
      next hfirst =>
        cases htargets
        exact hfirst
      next =>
        split at htargets <;> cases htargets
  refine ⟨hdir, _, by rw [overrides, htargets]; rfl, ?_, by simp [textOrNull]⟩
  cases a.norecurse <;> cases a.repfile <;> cases a.verbose <;> cases a.debug <;> simp

end Arguments

namespace Scan

theorem name_visitAll {recurse : Bool} {reply : Task → Reply} {subs : List Survey}
    {node visited : DirNode} {s s' : ScanState}
    (h : visitAll recurse reply node subs s = (some visited, s')) : visited.name = node.name := by
  induction subs generalizing node s with
  | nil =>
    obtain ⟨rfl, rfl⟩ : node = visited ∧ s = s' := by simpa [visitAll] using h
    rfl
  | cons sub subs ih =>
    rw [visitAll] at h
    split at h
    next => cases h
    next => exact (ih h : visited.name = (adopt node _).name)

theorem name_visit {recurse : Bool} {reply : Task → Reply} {name : String} {survey : Survey}
    {node : DirNode} {s s' : ScanState}
    (h : visit recurse reply name survey s = (some node, s')) : node.name = name := by
  obtain ⟨path, refused, files, subdirs⟩ := survey
  rw [visit] at h
  split at h
  next =>
    obtain ⟨hnode, -⟩ := Prod.mk.inj h
    rw [← Option.some.inj hnode]
  next =>
    dsimp only at h
    split at h
    next => cases h
    next =>
      split at h
      next => cases h
      next hall =>
        obtain ⟨hnode, -⟩ := Prod.mk.inj h
        rw [← Option.some.inj hnode]
        exact name_visitAll hall

theorem name_run {h : Host} {request : ScanRequest} {reply : Task → Reply} {cancelled : Bool}
    {outcome : Outcome} (htaken : ∀ t, reply t ≠ .interrupt)
    (hrun : run h request reply cancelled = .ok outcome) :
    ∃ node, outcome.tree = some node ∧ node.name = h.absolute request.root := by
  obtain ⟨children, glob, hdir, hglob⟩ : ∃ children glob,
      h.entry? (h.absolute request.root) = some (.dir children) ∧
        Glob.compile? request.pattern = some glob := by
    unfold run at hrun
    extract_lets root at hrun
    split at hrun
    next children hdir =>
      split at hrun
      next => cases hrun
      next glob hglob => exact ⟨children, glob, hdir, hglob⟩
    next => cases hrun
  obtain ⟨node, s, -, hreturns, -⟩ := run_returns hdir hglob htaken cancelled
  obtain rfl := Except.ok.inj (hrun.symm.trans hreturns)
  refine ⟨node, rfl, ?_⟩
  unfold run at hreturns
  simp only [hdir, hglob] at hreturns
  split at hreturns
  next => cases hreturns
  next visited _ hvisit =>
    obtain ⟨rfl, -⟩ : visited = node ∧ _ = s := by simpa using hreturns
    exact name_visit hvisit

end Scan

namespace Sweep

variable {σ : Type}

theorem name_withOutcomes (root : DirNode) (done : List Task) :
    (withOutcomes root done).name = root.name := by
  obtain ⟨name, files, dirs, count⟩ := root
  rfl

theorem rootPath_runWith {launcher : Launcher σ} {settings : Settings} {chain : Chain}
    {callback : Callback} {cancel : Option Bool} {h : Host} {state : σ} {r : SweepResult}
    (hcwd : Path.isAbsolute h.cwd = true)
    (hresult : (runWith launcher settings chain callback cancel h state).result = .ok r) :
    r.rootPath = (requestOf h settings).root := by
  have hroot : h.absolute (requestOf h settings).root = (requestOf h settings).root :=
    Path.absolute_absolute hcwd _
  cases hrun : Scan.run h (requestOf h settings) (fun _ => .go) (cancel.getD false) with
  | error e =>
    unfold runWith at hresult
    extract_lets rootPath request cancelled at hresult
    have hrun' : Scan.run h request (fun _ => .go) cancelled = .error e := hrun
    rw [hrun'] at hresult
    obtain rfl := Except.ok.inj hresult
    rfl
  | ok outcome =>
    obtain ⟨tree, scanned⟩ := outcome
    obtain ⟨node, rfl, hname⟩ := Scan.name_run (by simp) hrun
    rw [hroot] at hname
    cases hchain : chain.isEmpty with
    | true =>
      unfold runWith at hresult
      extract_lets rootPath request cancelled at hresult
      have hrun' : Scan.run h request (fun _ => .go) cancelled = .ok ⟨some node, scanned⟩ := hrun
      rw [hrun'] at hresult
      simp only [hchain, if_true] at hresult
      obtain rfl := Except.ok.inj hresult
      exact hname
    | false =>
      obtain ⟨-, hreport⟩ := @runWith_of_scan σ launcher settings chain callback cancel h state
        node scanned hchain hrun
      rw [hresult] at hreport
      split at hreport
      next => cases hreport
      next =>
        obtain rfl := Except.ok.inj hreport
        exact (name_withOutcomes node _).trans hname

/-- The directory that is given as an argument is the root of the sweep, whatever else is given and
set, unless something in it is trimmed or expanded. It is the directory that was found to be there
when the arguments were read, unless it has two dots behind a link. -/
theorem root_is_directory_given {a : Arguments} {h : Host} {dir : String} {pattern : Option String}
    (htargets : a.targets h = .ok (some dir, pattern)) (hliteral : Path.Literal h.environment dir)
    (hcwd : Path.isAbsolute h.cwd = true) (configFile : String) :
    ∃ overrides, a.overrides h = .ok overrides ∧
      let merged := Settings.merge (Settings.load h configFile).1 overrides
      let checked := (Settings.sanitize h (.obj merged)).1
      let engine := (Settings.sanitize h checked.toJson).1
      (requestOf h engine).root = h.absolute dir ∧
        (∀ (launcher : Launcher σ) chain callback cancel state r,
          (run launcher checked.toJson chain callback cancel h state).result = .ok r →
            r.rootPath = h.absolute dir) ∧
        (h.Seated → Host.Passable (h.absolute dir) → h.Straight dir →
          h.entry? (h.absolute dir) = h.entry? dir) := by
  obtain ⟨hdir, overrides, hoverrides, honce, hmem⟩ := Arguments.overrides_of_targets htargets
  have hne : dir ≠ "" := by
    obtain ⟨_, hentry⟩ := Host.isDir_iff.mp hdir
    exact (Host.entry?_eq_some.mp hentry).1.2
  refine ⟨overrides, hoverrides, ?_⟩
  intro merged checked engine
  have hproper : Text.IsProper dir := hliteral.trimmed.proper hne
  have hchecked : checked.rootPath = dir := by
    refine (Settings.keeps_sanitize h merged).rootPath dir ?_ hproper
    have hmerged : (merged.map Prod.fst).Nodup :=
      Json.nodup_insertAll (Settings.nodup_load h configFile) _
    exact Json.lookup_insertAll hmerged (Settings.mem_merge honce hmem (by simp)) _
  have hengine : engine.rootPath = dir :=
    (Settings.rootPath_sanitize h (hchecked ▸ hproper)).trans hchecked
  have hroot : (requestOf h engine).root = h.absolute dir := by
    rw [requestOf, hengine]
    exact Host.normalizeSetting_of_literal hliteral hne h.cwd
  refine ⟨hroot, ?_, fun hseated hpassable hstraight =>
    Host.entry?_absolute hseated hstraight hpassable hdir⟩
  intro launcher chain callback cancel state r hresult
  rw [(run_eq_runWith launcher checked.toJson chain callback cancel h state).1] at hresult
  exact (rootPath_runWith hcwd hresult).trans hroot

/-- A link beside the current directory, with a variable in its name that is not set. -/
theorem root_is_directory_given_through_link :
    let h : Host :=
      { root := .dir [("w", .dir []), ("v", .dir [("$no x", .link "../t")]),
          ("t", .dir [("a.txt", .file [] 0)])]
        cwd := "/w", environment := ⟨[("D", "/t")], [], "/"⟩ }
    let a : Arguments := { dir := some "../v/$no x", files := some "*" }
    a.targets h = .ok (some "../v/$no x", some "*") ∧
      Path.Literal h.environment "../v/$no x" ∧ Path.isAbsolute h.cwd = true ∧
      h.Seated ∧ Host.Passable (h.absolute "../v/$no x") ∧ h.Straight "../v/$no x" ∧
      ∃ overrides, a.overrides h = .ok overrides ∧
        let merged := Settings.merge (Settings.load h "/none").1 overrides
        let checked := (Settings.sanitize h (.obj merged)).1
        let engine := (Settings.sanitize h checked.toJson).1
        (requestOf h engine).root = "/v/$no x" ∧
          (h.entry? "/v/$no x").map (fun e => e.children.map Prod.fst) = some ["a.txt"] := by
  intro h a
  have htargets : a.targets h = .ok (some "../v/$no x", some "*") := by decide +kernel
  have hliteral : Path.Literal h.environment "../v/$no x" := by decide +kernel
  have hcwd : Path.isAbsolute h.cwd = true := by decide +kernel
  have habsolute : h.absolute "../v/$no x" = "/v/$no x" := by decide +kernel
  have hseated : h.Seated := ⟨hcwd, by decide +kernel, by decide +kernel⟩
  have hpassable : Host.Passable (h.absolute "../v/$no x") := by
    rw [habsolute]
    exact ⟨by decide +kernel, by decide +kernel⟩
  have hstraight : h.Straight "../v/$no x" :=
    ⟨["..", "v"], ["$no x"], ["v"], by decide +kernel, by decide, by decide +kernel⟩
  obtain ⟨overrides, hoverrides, hroot, -, hsame⟩ :=
    @root_is_directory_given Unit a h _ _ htargets hliteral hcwd "/none"
  have hentry := hsame hseated hpassable hstraight
  refine ⟨htargets, hliteral, hcwd, hseated, hpassable, hstraight, overrides, hoverrides, ?_, ?_⟩
  · rw [← habsolute]
    exact hroot
  · rw [← habsolute, hentry]
    decide +kernel

/-- What is trimmed from a directory that is given is trimmed after it was found to be there: with a
blank before it, another directory is swept. -/
theorem root_is_not_directory_given_with_blank :
    let h : Host :=
      { root := .dir [("w", .dir [(" d", .dir [("a.txt", .file [] 0)]),
          ("d", .dir [("b.txt", .file [] 0)])])]
        cwd := "/w", environment := ⟨[], [], "/"⟩ }
    let a : Arguments := { dir := some " d" }
    a.targets h = .ok (some " d", none) ∧ h.absolute " d" = "/w/ d" ∧
      ∃ overrides, a.overrides h = .ok overrides ∧
        let merged := Settings.merge (Settings.load h "/none").1 overrides
        let checked := (Settings.sanitize h (.obj merged)).1
        let engine := (Settings.sanitize h checked.toJson).1
        (requestOf h engine).root = "/w/d" := by
  intro h a
  have hroot : (a.overrides h).toOption.map (fun overrides =>
      let merged := Settings.merge (Settings.load h "/none").1 overrides
      let checked := (Settings.sanitize h (.obj merged)).1
      let engine := (Settings.sanitize h checked.toJson).1
      (requestOf h engine).root) = some "/w/d" := by decide +kernel
  refine ⟨by decide +kernel, by decide +kernel, ?_⟩
  cases hoverrides : a.overrides h with
  | error message =>
    rw [hoverrides] at hroot
    cases hroot
  | ok overrides =>
    rw [hoverrides] at hroot
    exact ⟨overrides, rfl, Option.some.inj hroot⟩

end Sweep
end FileSweep
