import FileSweep.Proofs.Validation

/-! The object that checked settings are. The lenient check lands in a schema, whatever it is given,
and settings in the schema are a fixed point of both policies: so a second check changes nothing and
has nothing to say. -/
namespace FileSweep
namespace Settings

open Checked

/-- The members that checked settings have, and what can stand under each of them. -/
structure Conforms (h : Host) (members : List (String × Json.Value)) : Prop where
  names : members.map Prod.fst = names
  texts : ∀ name ∈ ["root_path", "file_pattern"],
    ∃ s, members.lookup name = some (.str s) ∧ Text.IsProper s
  flags : ∀ name ∈ ["recurse", "report_file_name", "verbose", "collect_stdout", "collect_stderr"],
    ∃ b, members.lookup name = some (.bool b)
  passCode : ∃ n, members.lookup "pass_code" = some (.int n)
  logLevel : ∃ name ∈ ["DEBUG", "INFO", "WARNING", "ERROR", "CRITICAL"],
    members.lookup "log_level" = some (.str name)
  working : ∃ dir, members.lookup "working_directory" = some (.str dir) ∧
    (dir = "" ∨ Text.IsTrimmed dir ∧ (h.isDir dir = true ∨ Marker.occurs dir = true))
  verbose : members.lookup "verbose" = some (.bool true) →
    members.lookup "collect_stdout" = some (.bool true) ∧
      members.lookup "collect_stderr" = some (.bool true)

theorem Clean.conforms {h : Host} {s : Settings} (hs : Clean h s) : Conforms h s.members where
  names := members_names s
  texts := by
    intro name hname
    simp only [List.mem_cons, List.not_mem_nil, or_false] at hname
    rcases hname with rfl | rfl
    · exact ⟨s.rootPath, rfl, hs.rootPath⟩
    · exact ⟨s.filePattern, rfl, hs.filePattern⟩
  flags := by
    intro name hname
    simp only [List.mem_cons, List.not_mem_nil, or_false] at hname
    rcases hname with rfl | rfl | rfl | rfl | rfl <;> exact ⟨_, rfl⟩
  passCode := ⟨s.passCode, rfl⟩
  logLevel := ⟨s.logLevel.name, by cases s.logLevel <;> decide, rfl⟩
  working := ⟨s.workingDirectory, rfl, hs.working⟩
  verbose := by
    intro hverbose
    have hlookup : s.members.lookup "verbose" = some (.bool s.verbose) := rfl
    have hv : s.verbose = true := by simpa [hlookup] using hverbose
    obtain ⟨hstdout, hstderr⟩ := hs.verbose hv
    exact ⟨congrArg (some <| Json.Value.bool ·) hstdout, congrArg (some <| Json.Value.bool ·) hstderr⟩

theorem insertAll_members (s t : Settings) : Json.insertAll s.members t.members = t.members := rfl

theorem unknownNames_members (s : Settings) : unknownNames s.members = [] := by
  have hknown : names.filter (fun n => !names.contains n) = [] := by decide
  rw [unknownNames, members_names, hknown, List.mergeSort_nil]

theorem checkText_proper (policy : Policy) (field fallback : String) {s : String}
    (hs : Text.IsProper s) : checkText policy field fallback (.str s) = .ok (s, []) := by
  have hempty : s.isEmpty = false := by simpa using hs.ne_empty
  rw [checkText, Text.trim_eq_self hs.trimmed, hempty]
  rfl

theorem checkLevel_name (policy : Policy) (level : Level) :
    checkLevel policy level.name = .ok (level, []) := by
  cases level <;> rfl

theorem Clean.trim_working {h : Host} {s : Settings} (hs : Clean h s) :
    Text.trim s.workingDirectory = s.workingDirectory := by
  rcases hs.working with hempty | ⟨htrimmed, -⟩
  · rw [hempty]
    rfl
  · exact Text.trim_eq_self htrimmed

theorem Clean.checkWorkingDirectory {h : Host} {s : Settings} (hs : Clean h s) (policy : Policy) :
    checkWorkingDirectory policy h s.workingDirectory = .ok (s.workingDirectory, []) := by
  have hkept : (s.workingDirectory.isEmpty || Marker.occurs s.workingDirectory ||
      h.isDir s.workingDirectory) = true := by
    rcases hs.working with hempty | ⟨-, hdir | hmarker⟩
    · simp [hempty]
    · simp [hdir]
    · simp [hmarker]
  rw [Settings.checkWorkingDirectory, if_pos hkept]

/-- Clean settings are a fixed point of the check, under either policy. -/
theorem Clean.validate {h : Host} {s : Settings} (hs : Clean h s) (policy : Policy) :
    validate policy h s.toJson = .ok (s, []) := by
  have hfree : checkFreeText policy "working_directory" (.str s.workingDirectory) =
      .ok (s.workingDirectory, []) := by
    rw [checkFreeText, hs.trim_working]
  have hlevel : Text.IsProper s.logLevel.name := by cases s.logLevel <;> decide
  rw [toJson, Settings.validate, checkMembers_eq, insertAll_members]
  refine andThen_eq (checkText_proper policy _ _ hs.rootPath) ?_
  refine andThen_eq (checkText_proper policy _ _ hs.filePattern) ?_
  refine andThen_eq (checkText_proper policy _ _ hlevel) ?_
  refine andThen_eq (x := s.recurse) rfl ?_
  refine andThen_eq (x := s.reportFileName) rfl ?_
  refine andThen_eq (x := s.verbose) rfl ?_
  refine andThen_eq (x := s.collectStdout) rfl ?_
  refine andThen_eq (x := s.collectStderr) rfl ?_
  refine andThen_eq (x := s.passCode) rfl ?_
  refine andThen_eq hfree ?_
  refine andThen_eq (checkLevel_name policy s.logLevel) ?_
  refine andThen_eq (hs.checkWorkingDirectory policy) ?_
  have hstdout : (s.verbose || s.collectStdout) = s.collectStdout := by
    cases hv : s.verbose with
    | false => rfl
    | true => simp [(hs.verbose hv).1]
  have hstderr : (s.verbose || s.collectStderr) = s.collectStderr := by
    cases hv : s.verbose with
    | false => rfl
    | true => simp [(hs.verbose hv).2]
  rw [unknownNames_members, hstdout, hstderr]
  rfl

/-- The lenient check gives settings of the schema for any value, and checking these again gives the
same settings without a warning. -/
theorem validate_settles {h : Host} (hcwd : h.cwd ≠ "") (htrimmed : Text.IsTrimmed h.cwd)
    (config : Json.Value) :
    ∃ s warnings, validate .lenient h config = .ok (s, warnings) ∧ Conforms h s.members ∧
      validate .lenient h s.toJson = .ok (s, []) := by
  have hproper : Text.IsProper h.cwd := htrimmed.proper hcwd
  have hclean : Yields (validate .lenient h config) (Clean h) := by
    unfold Settings.validate
    split
    next members =>
      obtain ⟨s, warnings, hcheck, hs, -⟩ := yields_checkMembers h members
      exact ⟨s, warnings, hcheck, hs hproper⟩
    next =>
      exact ⟨_, _, rfl, hproper, (by decide : Text.IsProper "*.*"), Or.inl rfl,
        fun hv => absurd hv Bool.false_ne_true⟩
  obtain ⟨s, warnings, hvalidate, hs⟩ := hclean
  exact ⟨s, warnings, hvalidate, hs.conforms, hs.validate .lenient⟩

/-- A blank root, a flag and a code in words, a marker in the working directory and a member too
many. -/
theorem validate_settles_of_odd_values :
    let h : Host := { root := .dir [], cwd := "/d", environment := ⟨[], [], "/"⟩ }
    let config : Json.Value := .obj [("root_path", .str " "), ("verbose", .str "Yes"),
      ("pass_code", .str " 1_0"), ("log_level", .str "ınfo"), ("collect_stdout", .null),
      ("working_directory", .str " %dirun_ "), ("colour", .arr [])]
    let settled : Settings :=
      { rootPath := "/d", verbose := true, passCode := 10, logLevel := .info, collectStdout := true
        collectStderr := true, workingDirectory := "%dirun_" }
    h.cwd ≠ "" ∧ Text.IsTrimmed h.cwd ∧
      ∃ s warnings, validate .lenient h config = .ok (s, warnings) ∧ Conforms h s.members ∧
        validate .lenient h s.toJson = .ok (s, []) ∧ s = settled ∧ warnings.length = 3 := by
  intro h config settled
  have hcwd : h.cwd ≠ "" := by decide
  have htrimmed : Text.IsTrimmed h.cwd := by decide
  obtain ⟨s, warnings, hvalidate, hconforms, hsame⟩ := validate_settles hcwd htrimmed config
  have hresult : (validate .lenient h config).toOption.map (fun r => (r.1, r.2.length)) =
      some (settled, 3) := by decide +kernel
  rw [hvalidate] at hresult
  obtain ⟨hs, hlength⟩ := Prod.mk.inj (Option.some.inj hresult)
  exact ⟨hcwd, htrimmed, s, warnings, hvalidate, hconforms, hsame, hs, hlength⟩

end Settings
end FileSweep
