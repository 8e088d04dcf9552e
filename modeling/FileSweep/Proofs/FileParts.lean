import FileSweep.Proofs.Places
import Mathlib.Data.List.TakeWhile

/-! The parts of a file's path as text: its directory and its last component, and the stem and the
extension of the latter. The extension begins where it begins in the last component alone, and each
pair of parts makes up the whole again. -/
namespace FileSweep
namespace Path

theorem slash_not_mem_baseChars (p : List Char) : '/' ∉ baseChars p := by
  intro h
  simpa using List.mem_takeWhile_imp (List.mem_reverse.mp h)

theorem headChars_of_slash {name : List Char} (h : '/' ∉ name) (prior : List Char) :
    headChars (prior ++ '/' :: name) = prior ++ ['/'] := by
  have hsplit := headChars_append_baseChars (prior ++ '/' :: name)
  rw [baseChars_of_slash h, List.append_cons] at hsplit
  rw [List.append_cons]
  exact List.append_cancel_right hsplit

theorem baseChars_of_not_mem {name : List Char} (h : '/' ∉ name) : baseChars name = name := by
  have hall : ∀ c ∈ name.reverse, (c != '/') = true := by
    intro c hc
    have hne : c ≠ '/' := by
      rintro rfl
      exact h (List.mem_reverse.mp hc)
    simpa using hne
  rw [baseChars, List.takeWhile_eq_self_iff.mpr hall, List.reverse_reverse]

theorem headChars_of_not_mem {name : List Char} (h : '/' ∉ name) : headChars name = [] := by
  have hsplit := headChars_append_baseChars name
  rw [baseChars_of_not_mem h] at hsplit
  exact List.append_left_eq_self.mp hsplit

theorem splitExtensionChars_eq (p : List Char) :
    splitExtensionChars p =
      (headChars p ++ (splitExtensionChars (baseChars p)).1,
        (splitExtensionChars (baseChars p)).2) := by
  have hbase := baseChars_of_not_mem (slash_not_mem_baseChars p)
  have hhead := headChars_of_not_mem (slash_not_mem_baseChars p)
  have hwhole := headChars_append_baseChars p
  unfold splitExtensionChars
  simp only [hbase, hhead]
  split
  · simp [hwhole]
  · split
    · simp [hwhole]
    · simp

/-- What a name is split into: the name alone, or a stem that is not all dots and an extension, the
last dot between them. -/
theorem splitExtensionChars_cases {name : List Char} (h : '/' ∉ name) :
    splitExtensionChars name = (name, []) ∨
      ∃ stem suffix, splitExtensionChars name = (stem, '.' :: suffix) ∧ stem ≠ [] ∧ '.' ∉ suffix := by
  unfold splitExtensionChars
  simp only [baseChars_of_not_mem h, headChars_of_not_mem h]
  split
  · exact Or.inl rfl
  next dot stem hdrop =>
    split
    · exact Or.inl rfl
    next hdots =>
      refine Or.inr ⟨stem.reverse, _, rfl, ?_, ?_⟩
      · intro hnil
        rw [List.reverse_eq_nil_iff] at hnil
        simp [hnil] at hdots
      · intro hmem
        simpa using List.mem_takeWhile_imp (List.mem_reverse.mp hmem)

/-- How the name of a file is made of its stem and its extension. -/
structure IsMadeOf (name stem extension : String) : Prop where
  extended : extension ≠ "" → name = stem ++ "." ++ extension
  unextended : extension = "" → name = stem ∨ name = stem ++ "."
  stem_ne : stem ≠ ""
  dot_not_mem : '.' ∉ extension.toList
  slash_not_mem : '/' ∉ extension.toList

theorem IsMadeOf.alone {name : String} (h : name ≠ "") : IsMadeOf name name "" :=
  ⟨fun hsome => absurd rfl hsome, fun _ => Or.inl rfl, h, by simp, by simp⟩

theorem IsMadeOf.dotted {stem extension : String} (hstem : stem ≠ "")
    (hdot : '.' ∉ extension.toList) (hslash : '/' ∉ extension.toList) :
    IsMadeOf (stem ++ "." ++ extension) stem extension := by
  refine ⟨fun _ => rfl, fun hnone => Or.inr ?_, hstem, hdot, hslash⟩
  rw [hnone, String.append_empty]

/-- The last component of a path is made of the stem, which is read off it, and the extension, which
is read off the whole path. -/
theorem base_isMadeOf {p : String} (h : base p ≠ "") : IsMadeOf (base p) (stem p) (extension p) := by
  have hname := slash_not_mem_baseChars p.toList
  have hwhole := splitExtensionChars_append (baseChars p.toList)
  have hextension : extension p =
      String.ofList ((splitExtensionChars (baseChars p.toList)).2.drop 1) := by
    rw [extension, splitExtensionChars_eq]
  rw [hextension, stem]
  rcases splitExtensionChars_cases hname with hsplit | ⟨front, suffix, hsplit, hfront, hsuffix⟩
  · rw [hsplit]
    exact IsMadeOf.alone h
  · rw [hsplit] at hwhole ⊢
    have hslash : '/' ∉ suffix := by
      intro hmem
      rw [← hwhole] at hname
      exact hname (by simp [hmem])
    have hbase : base p = String.ofList front ++ "." ++ String.ofList suffix := by
      rw [base, ← hwhole, ← String.toList_inj]
      simp
    rw [hbase]
    exact IsMadeOf.dotted (by simpa using hfront) (by simpa using hsuffix) (by simpa using hslash)

theorem dropSlashes_of_all {cs : List Char} (h : ∀ c ∈ cs, c = '/') : dropSlashes cs = cs := by
  rw [dropSlashes, if_pos (List.all_eq_true.mpr fun c hc => by simpa using h c hc)]

theorem dropSlashes_concat {front : List Char} (hne : front ≠ [])
    (hlast : front.getLast? ≠ some '/') : dropSlashes (front ++ ['/']) = front := by
  obtain ⟨before, c, rfl⟩ := (List.eq_nil_or_concat front).resolve_left hne
  rw [List.concat_eq_append] at hlast ⊢
  have hc : c ≠ '/' := by simpa using hlast
  have hsome : ((before ++ [c] ++ ['/']).all fun d => d == '/') = false := by simp [hc]
  rw [dropSlashes, hsome]
  simp [hc]

/-- Whether a text can stand before a name without more slashes than it needs: it has nothing but
slashes, or does not end with one. -/
def IsSeat (dir : String) : Prop :=
  (∀ c ∈ dir.toList, c = '/') ∨ dir.toList.getLast? ≠ some '/'

theorem dir_join {dir name : String} (hdir : IsSeat dir) (hname : IsName name) :
    Path.dir (join dir name) = dir := by
  have hslash : '/' ∉ name.toList := hname.2.1
  rw [← String.toList_inj, Path.dir, String.toList_ofList, dirChars]
  by_cases hempty : dir = ""
  · rw [hempty, empty_join, headChars_of_not_mem hslash]
    rfl
  rw [toList_join hempty hname.isAbsolute_eq_false]
  by_cases hlast : dir.toList.getLast? = some '/'
  · obtain ⟨front, hfront⟩ := List.getLast?_eq_some_iff.mp hlast
    rw [if_pos hlast, List.nil_append, hfront, List.append_assoc, List.singleton_append,
      headChars_of_slash hslash, ← hfront, dropSlashes_of_all (hdir.resolve_right (not_not.mpr hlast))]
  · rw [if_neg hlast, List.singleton_append, headChars_of_slash hslash,
      dropSlashes_concat (by simpa using hempty) hlast]

end Path
end FileSweep
