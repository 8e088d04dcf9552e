import FileSweep.Text.Blank
import Mathlib.Data.List.DropRight

/-! Texts without blanks at their ends. Trimming gives such a text, and leaves such a text alone. -/
namespace FileSweep
namespace Text

structure IsTrimmed (s : String) : Prop where
  first : ∀ c ∈ s.toList.head?, isBlank c = false
  last : ∀ c ∈ s.toList.getLast?, isBlank c = false

theorem isTrimmed_iff {s : String} : IsTrimmed s ↔
    s.toList.head?.any isBlank = false ∧ s.toList.getLast?.any isBlank = false := by
  have hany : ∀ o : Option Char, (∀ c ∈ o, isBlank c = false) ↔ o.any isBlank = false := by
    intro o
    cases o <;> simp
  rw [← hany, ← hany]
  exact ⟨fun h => ⟨h.first, h.last⟩, fun h => ⟨h.1, h.2⟩⟩

-- Not by deciding the quantifiers: that would go through all characters where these are a finite type.
instance isTrimmedDecidable (s : String) : Decidable (IsTrimmed s) :=
  decidable_of_iff _ isTrimmed_iff.symm

theorem trimEndChars_eq_rdropWhile (cs : List Char) : trimEndChars cs = cs.rdropWhile isBlank := rfl

theorem trim_eq_self {s : String} (h : IsTrimmed s) : trim s = s := by
  have hfirst : s.toList.dropWhile isBlank = s.toList := by
    cases hs : s.toList with
    | nil => rfl
    | cons c cs =>
      have hc : isBlank c = false := h.first c (by simp [hs])
      rw [List.dropWhile_cons_of_neg (by simp [hc])]
  have hlast : s.toList.rdropWhile isBlank = s.toList := by
    rw [List.rdropWhile_eq_self_iff]
    intro hne
    have hc : isBlank (s.toList.getLast hne) = false := h.last _ (List.getLast_mem_getLast? hne)
    simp [hc]
  rw [trim, trimChars, hfirst, trimEndChars_eq_rdropWhile, hlast, String.ofList_toList]

theorem isTrimmed_trim (s : String) : IsTrimmed (trim s) := by
  let front := s.toList.dropWhile isBlank
  have htrim : (trim s).toList = front.rdropWhile isBlank := by
    rw [trim, String.toList_ofList, trimChars, trimEndChars_eq_rdropWhile]
  constructor
  · intro c hc
    -- The first character is one of the front, unless all of that is dropped from the end.
    obtain ⟨rest, hrest⟩ := List.rdropWhile_prefix isBlank front
    have hhead : front.head? = some c := by
      rw [← hrest, List.head?_append, ← htrim, Option.mem_def.mp hc, Option.some_or]
    have hfront := List.head?_dropWhile_not isBlank s.toList
    rw [hhead] at hfront
    simpa using hfront
  · intro c hc
    rw [htrim] at hc
    have hne : front.rdropWhile isBlank ≠ [] := List.ne_nil_of_mem (List.mem_of_getLast? hc)
    have hlast := List.rdropWhile_last_not isBlank front hne
    rw [List.getLast?_eq_some_getLast hne, Option.mem_some_iff] at hc
    simpa [hc] using hlast

/-- A text that says something, without blanks at its ends. -/
structure IsProper (s : String) : Prop where
  trimmed : IsTrimmed s
  nonblank : isBlankText s = false

instance isProperDecidable (s : String) : Decidable (IsProper s) :=
  decidable_of_iff (IsTrimmed s ∧ isBlankText s = false) ⟨fun h => ⟨h.1, h.2⟩, fun h => ⟨h.1, h.2⟩⟩

theorem IsTrimmed.proper {s : String} (h : IsTrimmed s) (hne : s ≠ "") : IsProper s := by
  refine ⟨h, ?_⟩
  cases hs : s.toList with
  | nil => exact absurd (String.toList_eq_nil_iff.mp hs) hne
  | cons c cs =>
    have hc : isBlank c = false := h.first c (by simp [hs])
    simp [isBlankText, hs, hc]

theorem IsProper.ne_empty {s : String} (h : IsProper s) : s ≠ "" := by
  rintro rfl
  exact absurd h.nonblank (by decide)

end Text
end FileSweep
