import FileSweep.Proofs.Checks

/-! The two policies. A check that the strict policy ends with a complaint is one that the lenient
policy answers with a warning, and where neither has anything to say they come to the same value.
Names that are no settings are noticed by both and held against no one. -/
namespace FileSweep
namespace Settings

open Checked

variable {α β : Type}

/-- A warning that only notices a name that is no setting. -/
def IsNotice (warning : String) : Prop := "Unknown config key".toList <+: warning.toList

instance isNoticeDecidable (warning : String) : Decidable (IsNotice warning) := by
  unfold IsNotice; infer_instance

theorem isNotice_append {start : String} (h : IsNotice start) (rest : String) :
    IsNotice (start ++ rest) := by
  rw [IsNotice, String.toList_append]
  exact List.IsPrefix.trans h (List.prefix_append _ _)

theorem isNotice_unknownWarning (name : String) : IsNotice (unknownWarning name) :=
  isNotice_append (@isNotice_append "Unknown config key '" (by decide +kernel) name) _

theorem head_append {start : String} {c : Char} (h : start.toList.head? = some c) (rest : String) :
    (start ++ rest).toList.head? = some c := by
  rw [String.toList_append, List.head?_append, h, Option.some_or]

theorem not_isNotice {warning : String} {c : Char} (h : warning.toList.head? = some c)
    (hc : c ≠ 'U') : ¬ IsNotice warning := by
  have hnotice : "Unknown config key".toList.head? = some 'U' := by decide +kernel
  rintro ⟨more, hmore⟩
  have hhead := congrArg List.head? hmore
  rw [List.head?_append, h, hnotice] at hhead
  exact hc (Option.some.inj hhead).symm

theorem head_message (c : Complaint) :
    c.message.toList.head? = some 'I' ∨ c.message.toList.head? = some 'i' := by
  cases c with
  | notAnObject received => exact Or.inl (head_append (head_append (by decide +kernel) _) _)
  | wrongType field expected received =>
    refine Or.inl (head_append (head_append (head_append ?_ _) _) _)
    exact head_append (head_append (head_append (by decide +kernel) _) _) _
  | badLevel name => exact Or.inl (head_append (head_append (by decide +kernel) _) _)
  | badWorkingDirectory path => exact Or.inr (head_append (by decide +kernel) _)

theorem not_isNotice_warning (c : Complaint) : ¬ IsNotice c.warning := by
  rcases head_message c with h | h
  · exact not_isNotice (head_append h _) (by decide)
  · exact not_isNotice (head_append h _) (by decide)

/-- Both policies come to the same value and have no more than notices to give, or the strict one
ends in a complaint and the lenient one warns. -/
def Agree (strict lenient : Checked α) : Prop :=
  ∃ x warnings, lenient = .ok (x, warnings) ∧
    ((strict = .ok (x, warnings) ∧ ∀ w ∈ warnings, IsNotice w) ∨
      ((∃ c, strict = .error c) ∧ ∃ w ∈ warnings, ¬ IsNotice w))

namespace Agree

theorem of_notices (x : α) {warnings : List String} (h : ∀ w ∈ warnings, IsNotice w) :
    Agree (.ok (x, warnings)) (.ok (x, warnings)) :=
  ⟨x, warnings, rfl, Or.inl ⟨rfl, h⟩⟩

theorem silent (x : α) : Agree (.ok (x, [])) (.ok (x, [])) :=
  of_notices x fun _ hw => absurd hw List.not_mem_nil

/-- What the lenient policy warns of, the strict one complains about. -/
theorem of_warning (c : Complaint) (x : α) {warning : String} (h : ¬ IsNotice warning) :
    Agree (.error c) (.ok (x, [warning])) :=
  ⟨x, [warning], rfl, Or.inr ⟨⟨c, rfl⟩, warning, List.mem_singleton_self warning, h⟩⟩

theorem complain (c : Complaint) (x : α) :
    Agree (complain .strict c x) (complain .lenient c x) :=
  of_warning c x (not_isNotice_warning c)

theorem andThen {a b : Checked α} {f g : α → Checked β} (h : Agree a b)
    (hrest : ∀ x, Agree (f x) (g x)) : Agree (a.andThen f) (b.andThen g) := by
  obtain ⟨x, warnings, rfl, hfirst⟩ := h
  obtain ⟨y, more, hlenient, hsecond⟩ := hrest x
  refine ⟨y, warnings ++ more, andThen_ok hlenient warnings, ?_⟩
  rcases hfirst with ⟨rfl, hnotices⟩ | ⟨⟨c, rfl⟩, w, hw, hwarns⟩
  · rcases hsecond with ⟨hstrict, hmore⟩ | ⟨⟨c, hstrict⟩, w, hw, hwarns⟩
    · exact Or.inl ⟨andThen_ok hstrict warnings, List.forall_mem_append.mpr ⟨hnotices, hmore⟩⟩
    · exact Or.inr ⟨⟨c, andThen_ok_error hstrict warnings⟩, w, List.mem_append_right warnings hw,
        hwarns⟩
  · exact Or.inr ⟨⟨c, rfl⟩, w, List.mem_append_left more hw, hwarns⟩

end Agree

theorem agree_checkText (field fallback : String) (v : Json.Value) :
    Agree (checkText .strict field fallback v) (checkText .lenient field fallback v) := by
  cases v with
  | null => exact Agree.silent fallback
  | str s => exact Agree.silent _
  | _ => exact Agree.complain _ fallback

theorem not_isNotice_field (rest : String) : ¬ IsNotice ("Field '" ++ rest) :=
  not_isNotice (c := 'F') (head_append (by decide +kernel) rest) (by decide)

theorem not_isNotice_convertFlag {field : String} {v : Json.Value} {b : Bool} {warning : String}
    (h : convertFlag? field v = some (b, warning)) : ¬ IsNotice warning := by
  unfold convertFlag? at h
  split at h
  next number text hnumber =>
    obtain ⟨-, rfl⟩ := Prod.mk.inj (Option.some.inj h)
    simp only [String.append_assoc]
    exact not_isNotice_field _
  next =>
    split at h
    next s =>
      obtain ⟨word, -, hword⟩ := Option.map_eq_some_iff.mp h
      obtain ⟨-, rfl⟩ := Prod.mk.inj hword
      simp only [String.append_assoc]
      exact not_isNotice_field _
    next => cases h

theorem agree_checkFlag (field : String) (fallback : Bool) (v : Json.Value) :
    Agree (checkFlag .strict field fallback v) (checkFlag .lenient field fallback v) := by
  unfold checkFlag
  split
  · exact Agree.silent _
  · exact Agree.silent fallback
  · cases hconvert : convertFlag? field v with
    | none => exact Agree.complain _ fallback
    | some r => exact Agree.of_warning _ r.1 (not_isNotice_convertFlag hconvert)

theorem not_isNotice_convertInt {field : String} {v : Json.Value} {n : Int} {warning : String}
    (h : convertInt? field v = some (n, warning)) : ¬ IsNotice warning := by
  unfold convertInt? at h
  split at h
  next s =>
    obtain ⟨m, -, hm⟩ := Option.map_eq_some_iff.mp h
    obtain ⟨-, rfl⟩ := Prod.mk.inj hm
    simp only [String.append_assoc]
    exact not_isNotice_field _
  next => cases h

theorem agree_checkInt (field : String) (fallback : Int) (v : Json.Value) :
    Agree (checkInt .strict field fallback v) (checkInt .lenient field fallback v) := by
  unfold checkInt
  split
  · exact Agree.silent _
  · exact Agree.silent fallback
  · cases hconvert : convertInt? field v with
    | none => exact Agree.complain _ fallback
    | some r => exact Agree.of_warning _ r.1 (not_isNotice_convertInt hconvert)

theorem agree_checkFreeText (field : String) (v : Json.Value) :
    Agree (checkFreeText .strict field v) (checkFreeText .lenient field v) := by
  cases v with
  | null => exact Agree.silent ""
  | str s => exact Agree.silent _
  | _ => exact Agree.complain _ ""

theorem agree_checkLevel (name : String) :
    Agree (checkLevel .strict name) (checkLevel .lenient name) := by
  unfold checkLevel
  split
  · exact Agree.silent _
  · exact Agree.complain _ Level.warning

theorem agree_checkWorkingDirectory (h : Host) (path : String) :
    Agree (checkWorkingDirectory .strict h path) (checkWorkingDirectory .lenient h path) := by
  unfold checkWorkingDirectory
  split
  · exact Agree.silent path
  · exact Agree.complain _ ""

theorem agree_checkMembers (h : Host) (members : List (String × Json.Value)) :
    Agree (checkMembers .strict h members) (checkMembers .lenient h members) := by
  rw [checkMembers_eq, checkMembers_eq]
  refine (agree_checkText ..).andThen fun _ => ?_
  refine (agree_checkText ..).andThen fun _ => ?_
  refine (agree_checkText ..).andThen fun levelName => ?_
  refine (agree_checkFlag ..).andThen fun _ => ?_
  refine (agree_checkFlag ..).andThen fun _ => ?_
  refine (agree_checkFlag ..).andThen fun _ => ?_
  refine (agree_checkFlag ..).andThen fun _ => ?_
  refine (agree_checkFlag ..).andThen fun _ => ?_
  refine (agree_checkInt ..).andThen fun _ => ?_
  refine (agree_checkFreeText ..).andThen fun working => ?_
  refine (agree_checkLevel levelName).andThen fun _ => ?_
  refine (agree_checkWorkingDirectory h working).andThen fun _ => ?_
  refine Agree.of_notices _ fun w hw => ?_
  obtain ⟨name, -, rfl⟩ := List.mem_map.mp hw
  exact isNotice_unknownWarning name

/-- The strict check ends in a complaint exactly where the lenient one has more to say than which
names it does not know, and where it does not, the two come to the same settings and warnings. -/
theorem strict_agrees_lenient (h : Host) (config : Json.Value) :
    ∃ s warnings, validate .lenient h config = .ok (s, warnings) ∧
      ((∃ c, validate .strict h config = .error c) ↔ ∃ w ∈ warnings, ¬ IsNotice w) ∧
      ((∃ c, validate .strict h config = .error c) ∨
        validate .strict h config = .ok (s, warnings)) := by
  have hagree : Agree (validate .strict h config) (validate .lenient h config) := by
    unfold validate
    split
    · exact agree_checkMembers h _
    · exact Agree.complain _ (Settings.default h.cwd)
  obtain ⟨s, warnings, hlenient, ⟨hstrict, hnotices⟩ | ⟨hstrict, hwarns⟩⟩ := hagree
  · refine ⟨s, warnings, hlenient, ⟨?_, ?_⟩, Or.inr hstrict⟩
    · rintro ⟨c, hc⟩
      rw [hstrict] at hc
      cases hc
    · rintro ⟨w, hw, hwarns⟩
      exact absurd (hnotices w hw) hwarns
  · exact ⟨s, warnings, hlenient, ⟨fun _ => hwarns, fun _ => hstrict⟩, Or.inl hstrict⟩

end Settings
end FileSweep
