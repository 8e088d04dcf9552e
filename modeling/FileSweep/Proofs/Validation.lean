import FileSweep.Proofs.Checks
import FileSweep.Proofs.Numbers
import FileSweep.Proofs.Trimming

/-! The lenient check of settings. It never ends in a complaint, whatever it is given, and it keeps a
number that it is given as the pass code and a text without blanks at its ends that it is given as
the root: so settings that were checked before have the same pass code and the same root after
another check, on whatever host. -/
namespace FileSweep

namespace Json

theorem lookup_insertMember_of_ne (members : List (String × Value)) {name other : String}
    (h : other ≠ name) (value : Value) :
    (insertMember members name value).lookup other = members.lookup other := by
  induction members with
  | nil => simp [insertMember, h]
  | cons m rest ih =>
    obtain ⟨n, v⟩ := m
    by_cases hn : n = name
    · have hother : (other == name) = false := by simpa using h
      simp [insertMember, hn, List.lookup_cons, hother]
    · simp [insertMember, hn, List.lookup_cons, ih]

theorem lookup_insertAll_of_not_mem {updates : List (String × Value)} {name : String}
    (h : name ∉ updates.map Prod.fst) (members : List (String × Value)) :
    (insertAll members updates).lookup name = members.lookup name := by
  induction updates generalizing members with
  | nil => rfl
  | cons u updates ih =>
    rw [List.map_cons, List.mem_cons, not_or] at h
    rw [insertAll, List.foldl_cons, ← insertAll, ih h.2, lookup_insertMember_of_ne members h.1]

theorem lookup_insertAll {updates : List (String × Value)} (honce : (updates.map Prod.fst).Nodup)
    {name : String} {value : Value} (h : (name, value) ∈ updates)
    (members : List (String × Value)) : (insertAll members updates).lookup name = some value := by
  induction updates generalizing members with
  | nil => cases h
  | cons u updates ih =>
    obtain ⟨hnot, hrest⟩ := List.nodup_cons.mp honce
    rcases List.mem_cons.mp h with rfl | hlater
    · rw [insertAll, List.foldl_cons, ← insertAll, lookup_insertAll_of_not_mem hnot]
      exact lookup_insertMember members name value
    · exact ih hrest hlater _

theorem map_fst_insertMember (members : List (String × Value)) (name : String) (value : Value) :
    (insertMember members name value).map Prod.fst =
      if name ∈ members.map Prod.fst then members.map Prod.fst
      else members.map Prod.fst ++ [name] := by
  induction members with
  | nil => simp [insertMember]
  | cons m members ih =>
    obtain ⟨n, v⟩ := m
    by_cases h : n = name
    · simp [insertMember, h]
    · simp only [insertMember, if_neg h, List.map_cons, ih, List.mem_cons, Ne.symm h, false_or]
      split <;> rfl

theorem nodup_insertAll {members : List (String × Value)} (h : (members.map Prod.fst).Nodup)
    (updates : List (String × Value)) : ((insertAll members updates).map Prod.fst).Nodup := by
  induction updates generalizing members with
  | nil => exact h
  | cons u updates ih =>
    refine @ih (insertMember members u.1 u.2) ?_
    rw [map_fst_insertMember]
    split
    next => exact h
    next hnew =>
      have hother : ∀ n ∈ members.map Prod.fst, ∀ m ∈ [u.1], n ≠ m := by
        intro n hn m hm hsame
        rw [List.mem_singleton.mp hm] at hsame
        exact hnew (hsame ▸ hn)
      exact List.nodup_append.mpr ⟨h, by simp, hother⟩

end Json

namespace Settings

open Checked

theorem yields_checkText (field fallback : String) (v : Json.Value) :
    Yields (checkText .lenient field fallback v) fun s =>
      (Text.IsProper fallback → Text.IsProper s) ∧
        ∀ t, v = .str t → Text.IsProper t → s = t := by
  cases v with
  | str s =>
    refine ⟨_, _, rfl, fun hfallback => ?_, fun t ht hproper => ?_⟩
    · split
      next => exact hfallback
      next hnonblank => exact (Text.isTrimmed_trim s).proper (by simpa using hnonblank)
    · obtain rfl := Json.Value.str.inj ht
      rw [Text.trim_eq_self hproper.trimmed, if_neg (by simpa using hproper.ne_empty)]
  | _ => exact ⟨_, _, rfl, id, fun t ht => by cases ht⟩

theorem yields_checkFlag (field : String) (fallback : Bool) (v : Json.Value) :
    Yields (checkFlag .lenient field fallback v) fun _ => True := by
  unfold checkFlag
  split
  · exact ⟨_, _, rfl, trivial⟩
  · exact ⟨_, _, rfl, trivial⟩
  · split
    · exact ⟨_, _, rfl, trivial⟩
    · exact ⟨_, _, rfl, trivial⟩

theorem yields_checkInt (field : String) (fallback : Int) (v : Json.Value) :
    Yields (checkInt .lenient field fallback v) fun n => (∀ m, v = .int m → n = m) ∧
      (v.IsShort → Text.IsShort fallback → Text.IsShort n) := by
  unfold checkInt
  split
  next n => exact ⟨_, _, rfl, fun m hm => Json.Value.int.inj hm, fun h _ => Json.isShort_int h⟩
  next => exact ⟨_, _, rfl, fun m hm => (by cases hm), fun _ h => h⟩
  next hnumber hnull =>
    split
    next n warning hconvert =>
      refine ⟨_, _, rfl, fun m hm => absurd hm (hnumber m), fun _ _ => ?_⟩
      unfold convertInt? at hconvert
      split at hconvert
      next s =>
        obtain ⟨k, hread, hk⟩ := Option.map_eq_some_iff.mp hconvert
        exact (Prod.mk.inj hk).1 ▸ Text.isShort_of_readInt? hread
      next => cases hconvert
    next => exact ⟨_, _, rfl, fun m hm => absurd hm (hnumber m), fun _ h => h⟩

theorem yields_checkFreeText (field : String) (v : Json.Value) :
    Yields (checkFreeText .lenient field v) Text.IsTrimmed := by
  cases v with
  | str s => exact ⟨_, _, rfl, Text.isTrimmed_trim s⟩
  | _ => exact ⟨_, _, rfl, by decide⟩

theorem yields_checkLevel (name : String) :
    Yields (checkLevel .lenient name) fun _ => True := by
  unfold checkLevel
  split <;> exact ⟨_, _, rfl, trivial⟩

theorem yields_checkWorkingDirectory (h : Host) (path : String) :
    Yields (checkWorkingDirectory .lenient h path) fun dir =>
      dir = "" ∨ dir = path ∧ (h.isDir path = true ∨ Marker.occurs path = true) := by
  unfold checkWorkingDirectory
  split
  next hkept =>
    refine ⟨path, [], rfl, ?_⟩
    simp only [Bool.or_eq_true] at hkept
    rcases hkept with (hempty | hmarker) | hdir
    · exact Or.inl (String.isEmpty_iff.mp hempty)
    · exact Or.inr ⟨rfl, Or.inr hmarker⟩
    · exact Or.inr ⟨rfl, Or.inl hdir⟩
  next => exact ⟨"", _, rfl, Or.inl rfl⟩

/-- What the check makes sure of, the types of the settings aside. -/
structure Clean (h : Host) (s : Settings) : Prop where
  rootPath : Text.IsProper s.rootPath
  filePattern : Text.IsProper s.filePattern
  working : s.workingDirectory = "" ∨ Text.IsTrimmed s.workingDirectory ∧
    (h.isDir s.workingDirectory = true ∨ Marker.occurs s.workingDirectory = true)
  verbose : s.verbose = true → s.collectStdout = true ∧ s.collectStderr = true

/-- What the check keeps of the members as they are given. -/
structure Keeps (members : List (String × Json.Value)) (s : Settings) : Prop where
  rootPath : ∀ root, members.lookup "root_path" = some (.str root) → Text.IsProper root →
    s.rootPath = root
  passCode : ∀ code, members.lookup "pass_code" = some (.int code) → s.passCode = code

theorem isShort_members {s : Settings} (h : Text.IsShort s.passCode) :
    ∀ m ∈ s.members, m.2.IsShort := by
  simp only [members, List.forall_mem_cons, List.not_mem_nil, false_implies, implies_true, and_true]
  exact ⟨.str _, .str _, .bool _, .str _, .int h, .bool _, .bool _, .bool _, .bool _, .str _⟩

theorem isShort_lookup {members : List (String × Json.Value)} (h : ∀ m ∈ members, m.2.IsShort)
    (name : String) : ((members.lookup name).getD .null).IsShort := by
  cases hvalue : members.lookup name with
  | none => exact .null
  | some v =>
    obtain ⟨before, after, hsplit, -⟩ := List.lookup_eq_some_iff.mp hvalue
    exact h (name, v) (by simp [hsplit])

/-- The lenient check of an object comes to clean settings, if the current directory can stand for
the root, keeps a proper root and a pass code that is a number, and comes to no number with more
digits than are read, unless it is given one. -/
theorem yields_checkMembers (h : Host) (members : List (String × Json.Value)) :
    Yields (checkMembers .lenient h members) fun s =>
      (Text.IsProper h.cwd → Clean h s) ∧
        Keeps (Json.insertAll (Settings.default h.cwd).members members) s ∧
        ((∀ m ∈ members, m.2.IsShort) → Text.IsShort s.passCode) := by
  rw [checkMembers_eq]
  refine (yields_checkText ..).andThen fun rootPath hroot => ?_
  refine (yields_checkText ..).andThen fun filePattern hpattern => ?_
  refine (yields_checkText ..).andThen fun levelName _ => ?_
  refine (yields_checkFlag ..).andThen fun recurse _ => ?_
  refine (yields_checkFlag ..).andThen fun reportFileName _ => ?_
  refine (yields_checkFlag ..).andThen fun verbose _ => ?_
  refine (yields_checkFlag ..).andThen fun collectStdout _ => ?_
  refine (yields_checkFlag ..).andThen fun collectStderr _ => ?_
  refine (yields_checkInt ..).andThen fun passCode hcode => ?_
  refine (yields_checkFreeText ..).andThen fun working htrimmed => ?_
  refine (yields_checkLevel levelName).andThen fun logLevel _ => ?_
  refine (yields_checkWorkingDirectory h working).andThen fun workingDirectory hworking => ?_
  have hdefault : Text.IsProper (Settings.default h.cwd).filePattern :=
    (by decide : Text.IsProper "*.*")
  refine ⟨_, _, rfl, fun hcwd => ⟨hroot.1 hcwd, hpattern.1 hdefault, ?_, ?_⟩, ⟨?_, ?_⟩, ?_⟩
  · exact hworking.imp_right fun ⟨hsame, hthere⟩ => hsame ▸ ⟨htrimmed, hthere⟩
  · intro hverbose
    have hv : verbose = true := hverbose
    simp [hv]
  · intro root hgiven
    exact hroot.2 root (by simp only [hgiven, Option.getD_some])
  · intro code hgiven
    exact hcode.1 code (by simp only [hgiven, Option.getD_some])
  · intro hshort
    have hbase := isShort_members (s := Settings.default h.cwd) Text.isShort_zero
    exact hcode.2 (isShort_lookup (Json.forall_insertAll hbase hshort) "pass_code")
      Text.isShort_zero

theorem keeps_sanitize (h : Host) (members : List (String × Json.Value)) :
    Keeps (Json.insertAll (Settings.default h.cwd).members members)
      (sanitize h (.obj members)).1 := by
  obtain ⟨checked, warnings, hcheck, -, hkeeps, -⟩ := yields_checkMembers h members
  rw [sanitize, validate, hcheck]
  exact hkeeps

theorem nodup_members (s : Settings) : (s.members.map Prod.fst).Nodup := by
  rw [members_names]
  decide

theorem passCode_sanitize (h : Host) (s : Settings) :
    (sanitize h s.toJson).1.passCode = s.passCode := by
  have hmem : ("pass_code", Json.Value.int s.passCode) ∈ s.members := by simp [members]
  rw [toJson]
  exact (keeps_sanitize h s.members).passCode _
    (Json.lookup_insertAll s.nodup_members hmem (Settings.default h.cwd).members)

theorem rootPath_sanitize (h : Host) {s : Settings} (hroot : Text.IsProper s.rootPath) :
    (sanitize h s.toJson).1.rootPath = s.rootPath := by
  have hmem : ("root_path", Json.Value.str s.rootPath) ∈ s.members := by simp [members]
  rw [toJson]
  exact (keeps_sanitize h s.members).rootPath _
    (Json.lookup_insertAll s.nodup_members hmem (Settings.default h.cwd).members) hroot

end Settings
end FileSweep
