import FileSweep.Proofs.Encoding
import FileSweep.Proofs.JsonText
import FileSweep.Proofs.Logging
import FileSweep.Proofs.Schema

/-! The settings that a run is asked to print. The text is read back as the settings, and they pass
the check as they are: so a run that is given the text as its file works with the same settings. -/
namespace FileSweep

namespace Arguments

def HasShortCode (a : Arguments) : Prop := ∀ n ∈ a.passCode, Text.IsShort n

theorem HasShortCode.setFlag {a b : Arguments} {flag : Flag} (ha : a.HasShortCode)
    (h : setFlag a flag = .ok b) : b.HasShortCode := by
  cases flag <;> simp only [Arguments.setFlag, Except.ok.injEq, reduceCtorEq] at h <;> exact h ▸ ha

theorem HasShortCode.setValue {a b : Arguments} {flag : Flag} {value : String}
    (ha : a.HasShortCode) (h : setValue a flag value = .ok b) : b.HasShortCode := by
  unfold Arguments.setValue at h
  split at h
  next => exact Except.ok.inj h ▸ ha
  next => exact Except.ok.inj h ▸ ha
  next => exact Except.ok.inj h ▸ ha
  next =>
    split at h
    next n hread =>
      obtain rfl := Except.ok.inj h
      rintro m hm
      obtain rfl := Option.some.inj hm
      exact Text.isShort_of_readInt? hread
    next => cases h
  next => exact Except.ok.inj h ▸ ha

theorem HasShortCode.readOptions {a b : Arguments} {items : List (String × ArgumentKind)}
    {left : List String} (ha : a.HasShortCode) (h : readOptions a items = .ok (b, left)) :
    b.HasShortCode := by
  fun_induction Arguments.readOptions a items generalizing b left with
  | case1 => exact (Prod.mk.inj (Except.ok.inj h)).1 ▸ ha
  | case2 a text rest ih | case3 a text rest ih =>
    obtain ⟨⟨c, more⟩, hread, hc⟩ := exists_of_map_eq_ok h
    exact (Prod.mk.inj hc).1 ▸ ih ha hread
  | case6 a text flag value rest htakes c hset ih => exact ih (ha.setValue hset) h
  | case9 a text flag htakes value rest c hset ih => exact ih (ha.setValue hset) h
  | case12 a text flag rest htakes c hset ih => exact ih (ha.setFlag hset) h
  | _ => cases h

theorem passCode_readPositionals (a : Arguments) (items : List (String × ArgumentKind)) :
    (readPositionals a items).1.passCode = a.passCode := by
  unfold readPositionals
  dsimp only
  split
  next => rfl
  next => split <;> rfl

theorem hasShortCode_of_parse {args : List String} {a : Arguments} (h : parse args = .ok a) :
    a.HasShortCode := by
  unfold parse at h
  split at h
  next => cases h
  next =>
    split at h
    next => cases h
    next b left hread =>
      have hb : b.HasShortCode := HasShortCode.readOptions (fun _ hn => by cases hn) hread
      split at h
      next => cases h
      next items _ =>
        have hsame := passCode_readPositionals b items
        split at h
        next c hpositionals =>
          obtain rfl := Except.ok.inj h
          rw [hpositionals] at hsame
          intro n hn
          exact hb n (hsame ▸ hn)
        next => cases h

theorem isShort_textOrNull (text : Option String) : (textOrNull text).IsShort := by
  cases text with
  | none => exact .null
  | some s => exact .str s

theorem isShort_overrides {a : Arguments} (ha : a.HasShortCode) {h : Host}
    {overrides : List (String × Json.Value)} (hoverrides : a.overrides h = .ok overrides) :
    ∀ m ∈ overrides, m.2.IsShort := by
  obtain ⟨⟨root, pattern⟩, -, rfl⟩ := exists_of_map_eq_ok hoverrides
  have hcode : ((a.passCode.map Json.Value.int).getD .null).IsShort := by
    cases hgiven : a.passCode with
    | none => exact .null
    | some n => exact .int (ha n hgiven)
  have hgiven : ∀ (asked : Bool) (name : String) {value : Json.Value}, value.IsShort →
      ∀ m ∈ (if asked then [(name, value)] else []), m.2.IsShort := by
    intro asked name value hvalue
    cases asked with
    | true => exact List.forall_mem_singleton.mpr hvalue
    | false => simp
  simp only [List.forall_mem_append, List.forall_mem_cons]
  exact ⟨⟨⟨⟨⟨isShort_textOrNull root, isShort_textOrNull pattern, isShort_textOrNull _, hcode,
    by simp⟩, hgiven _ _ (.bool _)⟩, hgiven _ _ (.bool _)⟩, hgiven _ _ (.bool _)⟩, hgiven _ _ (.str _)⟩

end Arguments

namespace Settings

theorem isShort_load (h : Host) (path : String) : ∀ m ∈ (load h path).1, m.2.IsShort := by
  have hbase := isShort_members (s := Settings.default h.cwd) Text.isShort_zero
  unfold load
  split
  next =>
    split
    next => exact hbase
    next members hread =>
      refine Json.forall_insertAll hbase (Json.isShort_of_mem ?_)
      unfold readJson at hread
      split at hread
      next => cases hread
      next =>
        split at hread
        next => cases hread
        next hparse => exact Except.ok.inj hread ▸ Json.isShort_of_parse hparse
    next => exact hbase
  next => exact hbase

theorem isShort_merge {base overrides : List (String × Json.Value)}
    (hbase : ∀ m ∈ base, m.2.IsShort) (hoverrides : ∀ m ∈ overrides, m.2.IsShort) :
    ∀ m ∈ merge base overrides, m.2.IsShort :=
  Json.forall_insertAll hbase fun m hm => hoverrides m (List.mem_of_mem_filter hm)

theorem legible_toJson {s : Settings} (h : Text.IsShort s.passCode) : s.toJson.Legible := by
  refine .obj s.nodup_members ?_
  simp only [members, List.forall_mem_cons, List.not_mem_nil, false_implies, implies_true, and_true]
  exact ⟨.str _, .str _, .bool _, .str _, .int h, .bool _, .bool _, .bool _, .bool _, .str _⟩

theorem sanitize_merged {h g : Host} (hcwd : h.cwd ≠ "") (htrimmed : Text.IsTrimmed h.cwd)
    (path : String) {own : List String} {a : Arguments} (hparse : Arguments.parse own = .ok a)
    {overrides : List (String × Json.Value)} (hoverrides : a.overrides g = .ok overrides) :
    let c := (sanitize h (.obj (merge (load g path).1 overrides))).1
    Clean h c ∧ Text.IsShort c.passCode := by
  obtain ⟨c, warnings, hcheck, hclean, -, hshort⟩ :=
    yields_checkMembers h (merge (load g path).1 overrides)
  have hgiven := isShort_merge (isShort_load g path)
    (Arguments.isShort_overrides (Arguments.hasShortCode_of_parse hparse) hoverrides)
  intro c'
  have hc : c' = c := by
    simp only [c', sanitize, validate, hcheck]
  exact hc ▸ ⟨hclean (htrimmed.proper hcwd), hshort hgiven⟩

/-- What is loaded from a file with the text of settings is the settings. -/
theorem load_of_dump {h : Host} {path : String} {s : Settings} (hshort : Text.IsShort s.passCode)
    (hbytes : h.readBytes path = .ok (Text.encode (Json.printIndented s.toJson ++ "\n"))) :
    load h path = (s.members, [⟨.debug, "Configuration loaded from " ++ path⟩]) := by
  have hlegible := legible_toJson hshort
  have hthere : h.pathExists path = true := by
    refine Host.pathExists_of_readBytes hbytes (Text.encode_ne_nil fun hempty => ?_)
    have hchars := congrArg String.toList hempty
    rw [Json.toList_printIndented] at hchars
    simp at hchars
  have htext := Host.readText_of_encode hbytes (Json.return_not_mem_printIndented hlegible)
  have hread : readJson h path = .ok s.toJson := by
    rw [readJson, htext]
    simp only [Json.parse_printIndented hlegible]
  rw [load, if_pos hthere, hread]
  simp only [toJson, insertAll_members]

theorem Clean.of_isDir {h g : Host} {s : Settings} (hs : Clean h s)
    (hdir : h.isDir s.workingDirectory = true → g.isDir s.workingDirectory = true) : Clean g s where
  rootPath := hs.rootPath
  filePattern := hs.filePattern
  working := hs.working.imp_right fun ⟨htrimmed, hthere⟩ => ⟨htrimmed, hthere.imp_left hdir⟩
  verbose := hs.verbose

end Settings

namespace App

def logged (a : Arguments) (h : Host) : State :=
  (({ host := h } : State).configure (logSetup a (if a.debug then .debug else .warning)) false).1

def begun (s : State) : State :=
  s.record ⟨.debug, "CLI execution initiated. Resolving configuration hierarchy..."⟩

def settingsFile (a : Arguments) (configFile : String) : String :=
  if (a.configFile.getD "").isEmpty then configFile else a.configFile.getD ""

/-- The state in which the settings are checked: the log tells how the file was loaded. -/
def loaded (a : Arguments) (configFile : String) (s : State) : State :=
  (begun s).records (Settings.load (begun s).host (settingsFile a configFile)).2

/-- The settings that the file and the arguments come to. -/
def gathered (a : Arguments) (configFile : String) (s : State)
    (overrides : List (String × Json.Value)) : Settings :=
  (Settings.sanitize (loaded a configFile s).host
    (.obj (Settings.merge (Settings.load (begun s).host (settingsFile a configFile)).1 overrides))).1

theorem cwd_loaded (a : Arguments) (configFile : String) (s : State) :
    (loaded a configFile s).host.cwd = s.host.cwd := by
  rw [loaded, State.cwd_records, begun, State.cwd_record]

theorem stdout_loaded (a : Arguments) (configFile : String) (s : State) :
    (loaded a configFile s).stdout = s.stdout := by
  rw [loaded, State.stdout_records, begun, State.stdout_record]

theorem work_of_dump {a : Arguments} (hdump : a.dumpConfig = true) (settings : Settings)
    (command : List String) (interrupted : Bool) (s : State) :
    work a settings command interrupted s =
      (s.out (Json.printIndented settings.toJson ++ "\n"), .exit 0) := by
  rw [work, if_pos hdump]

/-- A run that prints the settings and ends well has written nothing else. -/
theorem runLogged_of_dump {a : Arguments} (hdump : a.dumpConfig = true) {command : List String}
    {configFile : String} {interrupted : Bool} {s s' : State}
    (h : runLogged a command configFile interrupted s = (s', .exit 0)) :
    ∃ overrides, a.overrides (begun s).host = .ok overrides ∧ s'.stdout =
      s.stdout ++ (Json.printIndented (gathered a configFile s overrides).toJson ++ "\n") := by
  unfold runLogged at h
  rw [← begun] at h
  dsimp only at h
  split at h
  next => cases h
  next overrides hoverrides =>
    refine ⟨overrides, hoverrides, ?_⟩
    split at h
    next => cases h
    next =>
      rw [← settingsFile, ← loaded] at h
      have hstdout := stdout_loaded a configFile s
      split at h
      next =>
        split at h
        next => cases h
        next s₁ hconfigure =>
          have hsame : s₁.stdout = s.stdout := by
            rw [← congrArg (fun r => r.1.stdout) hconfigure, State.stdout_configure,
              State.stdout_records, hstdout]
          rw [work_of_dump hdump] at h
          obtain ⟨rfl, -⟩ := Prod.mk.inj h
          simp only [State.out, hsame]
          rfl
      next =>
        rw [work_of_dump hdump] at h
        obtain ⟨rfl, -⟩ := Prod.mk.inj h
        simp only [State.out, State.stdout_records, hstdout]
        rfl

theorem stdout_run_of_dump {args : List String} {a : Arguments}
    (hparse : Arguments.parse (Arguments.splitCommand args).1 = .ok a) (hdump : a.dumpConfig = true)
    {configFile : String} {interrupted : Bool} {h : Host}
    (hexit : (run args configFile interrupted h).exit = 0) :
    ∃ overrides, a.overrides (begun (logged a h)).host = .ok overrides ∧
      (run args configFile interrupted h).stdout =
        Json.printIndented (gathered a configFile (logged a h) overrides).toJson ++ "\n" := by
  unfold run at hexit ⊢
  dsimp only at hexit ⊢
  split at hexit
  next => cases hexit
  next hargs =>
    rw [hparse] at hexit ⊢
    rw [if_neg hargs]
    dsimp only at hexit ⊢
    split at hexit
    next => cases hexit
    next s hlog =>
      obtain rfl : logged a h = s := congrArg Prod.fst hlog
      split at hexit
      next s' status hrun =>
        obtain rfl : status = 0 := hexit
        obtain ⟨overrides, hoverrides, hstdout⟩ := runLogged_of_dump hdump hrun
        have hsilent : (logged a h).stdout = "" := State.stdout_configure _ _ _
        rw [hsilent, String.empty_append] at hstdout
        exact ⟨overrides, hoverrides, hstdout⟩
      next => cases hexit

/-- The text that a run prints when it is asked for its settings is those settings: loaded from a file
that holds it and checked, it gives them without a warning, if the working directory, unless a marker
leaves it open, is still a directory. -/
theorem run_dump_loads_back {args : List String} {a : Arguments} {h : Host}
    (hparse : Arguments.parse (Arguments.splitCommand args).1 = .ok a) (hdump : a.dumpConfig = true)
    (hcwd : h.cwd ≠ "") (htrimmed : Text.IsTrimmed h.cwd) (configFile : String) (interrupted : Bool)
    (hexit : (run args configFile interrupted h).exit = 0) :
    ∃ overrides, a.overrides (begun (logged a h)).host = .ok overrides ∧
      let c := gathered a configFile (logged a h) overrides
      let dump := (run args configFile interrupted h).stdout
      dump = Json.printIndented c.toJson ++ "\n" ∧
        ∀ (g : Host) (path : String), g.readBytes path = .ok (Text.encode dump) →
          ((loaded a configFile (logged a h)).host.isDir c.workingDirectory = true →
            g.isDir c.workingDirectory = true) →
          Settings.validate .lenient g (.obj (Settings.load g path).1) = .ok (c, []) ∧
            (Settings.load g path).2 = [⟨.debug, "Configuration loaded from " ++ path⟩] := by
  obtain ⟨overrides, hoverrides, hdumped⟩ := stdout_run_of_dump hparse hdump hexit
  refine ⟨overrides, hoverrides, ?_⟩
  intro c dump
  have hhere : (loaded a configFile (logged a h)).host.cwd = h.cwd := by
    rw [cwd_loaded, logged, State.cwd_configure]
  obtain ⟨hclean, hshort⟩ : Settings.Clean (loaded a configFile (logged a h)).host c ∧
      Text.IsShort c.passCode :=
    Settings.sanitize_merged (hhere ▸ hcwd) (hhere ▸ htrimmed) _ hparse hoverrides
  refine ⟨hdumped, fun g path hbytes hdir => ?_⟩
  have htext : g.readBytes path = .ok (Text.encode (Json.printIndented c.toJson ++ "\n")) := by
    rw [← hdumped]
    exact hbytes
  rw [Settings.load_of_dump hshort htext]
  exact ⟨(hclean.of_isDir hdir).validate .lenient, rfl⟩

/-- A root that is written with an escape, a code in words and a working directory with a blank
behind it. -/
theorem run_dump_loads_back_of_odd_file :
    let file := Text.encode
      "\x7b\"root_path\": \"\\u0001é\", \"working_directory\": \"s \", \"pass_code\": \"-1\"\x7d"
    let h : Host :=
      { root := .dir [("w", .dir [("s", .dir []), ("f", .file file 0)])]
        cwd := "/w", environment := ⟨[], [], "/"⟩ }
    let a : Arguments := { dumpConfig := true }
    let c : Settings := { rootPath := "\x01é", workingDirectory := "s", passCode := -1 }
    let dump := Json.printIndented c.toJson ++ "\n"
    let g : Host :=
      { root := .dir [("w", .dir [("s", .dir []), ("d", .file (Text.encode dump) 0)])]
        cwd := "/w", environment := ⟨[], [], "/"⟩ }
    Arguments.parse (Arguments.splitCommand ["--dump-config"]).1 = .ok a ∧ a.dumpConfig = true ∧
      h.cwd ≠ "" ∧ Text.IsTrimmed h.cwd ∧ (run ["--dump-config"] "f" false h).exit = 0 ∧
      (run ["--dump-config"] "f" false h).stdout = dump ∧
      g.readBytes "d" = .ok (Text.encode dump) ∧
      Settings.validate .lenient g (.obj (Settings.load g "d").1) = .ok (c, []) := by
  intro file h a c dump g
  have hparse : Arguments.parse (Arguments.splitCommand ["--dump-config"]).1 = .ok a := by
    decide +kernel
  have hcwd : h.cwd ≠ "" := by decide
  have htrimmed : Text.IsTrimmed h.cwd := by decide
  have hexit : (run ["--dump-config"] "f" false h).exit = 0 := by decide +kernel
  have hbytes : g.readBytes "d" = .ok (Text.encode dump) := by
    have hfault : g.nameFault? "d" = none := by decide +kernel
    have hplace : g.locate "d" = .ok (.taken ["w", "d"]) := by decide +kernel
    rw [Host.readBytes, hfault, hplace]
    rfl
  have hdir : g.isDir "s" = true := by decide +kernel
  have hgathered : (a.overrides (begun (logged a h)).host).toOption.map
      (gathered a "f" (logged a h)) = some c := by
    decide +kernel
  obtain ⟨overrides, hoverrides, hdumped, hback⟩ :=
    run_dump_loads_back hparse rfl hcwd htrimmed "f" false hexit
  rw [hoverrides] at hgathered
  have hc : gathered a "f" (logged a h) overrides = c := Option.some.inj hgathered
  rw [hc] at hdumped hback
  have hloaded := hback g "d" (by rw [hdumped]; exact hbytes) fun _ => hdir
  exact ⟨hparse, rfl, hcwd, htrimmed, hexit, hdumped, hbytes, hloaded.1⟩

end App
end FileSweep
