import FileSweep.Proofs.Substitution
import Mathlib.Data.List.Chain
import Mathlib.Data.List.Forall2

/-! What replacing markers makes of a text, piece by piece. A text falls into literals, in which no
marker begins, and complete markers, and may end with a marker that is left open. Literals and the
open end stay as they are, and a marker is replaced by its value or, where its name means nothing,
kept; a value is put in as it is, whatever it holds. -/
namespace FileSweep

namespace Variable

theorem ofName?_eq_some_iff {name : String} {v : Variable} :
    ofName? name = some v ↔ Text.upperWord name = v.name := by
  rw [ofName?]
  generalize Text.upperWord name = upper
  constructor
  · intro h
    have hfound := List.find?_some h
    exact (beq_iff_eq.mp hfound).symm
  · rintro rfl
    cases v <;> decide

theorem ofName?_eq_none_iff {name : String} :
    ofName? name = none ↔ ∀ v : Variable, Text.upperWord name ≠ v.name := by
  rw [Option.eq_none_iff_forall_ne_some]
  exact forall_congr' fun v => not_congr ofName?_eq_some_iff

def resolve? (t : Task) (name : String) : Option String := (ofName? name).map (Variable.value t)

end Variable

namespace Marker

variable {value : String → Option String} {c : Char} {cs rest : List Char}

theorem eq_percent_of_matchesLetter (h : Text.matchesLetter '%' c = true) : c = '%' := by
  have hupper : c.toUpper = '%' := by simpa [Text.matchesLetter] using h
  unfold Char.toUpper at hupper
  split at hupper
  next hlower =>
    -- The upper case of a letter is a letter.
    have hlow : 97 ≤ c.toNat := hlower.1
    have hhigh : c.toNat ≤ 122 := hlower.2
    have hval : (c.toNat + 4294967264) % 4294967296 = 37 := by
      simpa using congrArg (fun d : Char => d.val.toNat) hupper
    omega
  next => exact hupper

theorem eq_percent_of_afterOpening? (h : (afterOpening? (c :: cs)).isSome) : c = '%' := by
  rw [afterOpening?, opening, afterLetters?] at h
  split at h
  next hc => exact eq_percent_of_matchesLetter hc
  next => cases h

theorem afterLetters?_append {letters : List Char} (h : afterLetters? letters cs = some rest)
    (more : List Char) : afterLetters? letters (cs ++ more) = some (rest ++ more) := by
  induction letters generalizing cs with
  | nil => simpa [afterLetters?] using h
  | cons letter letters ih =>
    cases cs with
    | nil => cases h
    | cons c cs =>
      rw [afterLetters?] at h
      rw [List.cons_append, afterLetters?]
      split at h
      next hc => rw [if_pos hc]; exact ih h
      next => cases h

theorem afterLetters?_of_append {letters front : List Char} (hlength : front.length = letters.length)
    (h : afterLetters? letters (front ++ cs) = some rest) :
    afterLetters? letters front = some [] ∧ rest = cs := by
  induction letters generalizing front with
  | nil =>
    obtain rfl : front = [] := List.eq_nil_of_length_eq_zero hlength
    exact ⟨rfl, (Option.some.inj h).symm⟩
  | cons letter letters ih =>
    cases front with
    | nil => cases hlength
    | cons c front =>
      rw [List.cons_append, afterLetters?] at h
      rw [afterLetters?]
      split at h
      next hc => rw [if_pos hc]; exact ih (by simpa using hlength) h
      next => cases h

/-- No opening reaches across a percent sign. -/
theorem afterOpening?_percent (c : Char) (cs rest : List Char) :
    afterOpening? (c :: cs ++ '%' :: rest) =
      (afterOpening? (c :: cs)).map fun after => after ++ '%' :: rest := by
  have hletters : ∀ letter ∈ ['D', 'I', 'R', 'U', 'N', '_'], Text.matchesLetter letter '%' = false := by
    simp [Text.matchesLetter]
  rw [List.cons_append, afterOpening?, afterOpening?, opening, afterLetters?, afterLetters?]
  split
  next => exact afterLetters?_foreign _ hletters cs rest
  next => rfl

theorem occursChars_of_no_percent (h : '%' ∉ cs) : occursChars cs = false := by
  induction cs with
  | nil => rfl
  | cons c cs ih =>
    rw [List.mem_cons, not_or] at h
    have hnone : afterOpening? (c :: cs) = none := by
      by_contra hsome
      exact h.1 (eq_percent_of_afterOpening? (Option.isSome_iff_ne_none.mpr hsome)).symm
    rw [occursChars, hnone, ih h.2]
    rfl

theorem replaceFrom_literal (hplain : occursChars cs = false) (rest : List Char) :
    replaceFrom value 0 (cs ++ '%' :: rest) = cs ++ replaceFrom value 0 ('%' :: rest) := by
  induction cs with
  | nil => rfl
  | cons c cs ih =>
    rw [occursChars, Bool.or_eq_false_iff, Option.isSome_eq_false_iff, Option.isNone_iff_eq_none]
      at hplain
    have hname : nameAt? (c :: (cs ++ '%' :: rest)) = none := by
      rw [nameAt?, ← List.cons_append, afterOpening?_percent, hplain.1]
      rfl
    rw [List.cons_append, replaceFrom, hname]
    exact congrArg (c :: ·) (ih hplain.2)

/-- A marker that is left open at the end of a text. -/
structure LeftOpen (cs : List Char) : Prop where
  opens : (afterOpening? cs).isSome
  unclosed : '%' ∉ cs.tail

theorem LeftOpen.exists_percent (h : LeftOpen cs) : ∃ more, cs = '%' :: more := by
  cases cs with
  | nil => exact absurd h.opens (by decide)
  | cons c cs => exact ⟨cs, by rw [eq_percent_of_afterOpening? h.opens]⟩

theorem LeftOpen.replaceFrom_eq (h : LeftOpen cs) : replaceFrom value 0 cs = cs := by
  cases cs with
  | nil => rfl
  | cons c cs =>
    have hrest : '%' ∉ cs := h.unclosed
    have hname : nameAt? (c :: cs) = none := by
      by_contra hsome
      obtain ⟨name, hname⟩ := Option.ne_none_iff_exists'.mp hsome
      obtain ⟨front, rest, hcs, hlength, -⟩ := exists_of_nameAt? hname
      cases front with
      | nil => cases hlength
      | cons d front =>
        obtain ⟨-, rfl⟩ := List.cons.inj hcs
        simp at hrest
    rw [replaceFrom, hname]
    exact congrArg (c :: ·) (replaceFrom_of_no_marker value (occursChars_of_no_percent hrest))

inductive Segment where
  /-- Text in which no marker begins. -/
  | literal (text : List Char) (plain : occursChars text = false)
  /-- A complete marker, with its opening in any letter case. -/
  | marker (front name : List Char) (opens : afterOpening? front = some []) (unbroken : '%' ∉ name)

namespace Segment

def isLiteral : Segment → Bool
  | literal _ _ => true
  | marker _ _ _ _ => false

/-- Two literals do not stand side by side. -/
def Apart (s next : Segment) : Prop := s.isLiteral = true → next.isLiteral = false

def chars : Segment → List Char
  | literal text _ => text
  | marker front name _ _ => front ++ (name ++ ['%'])

/-- What a segment becomes for a file. -/
inductive Becomes (t : Task) : Segment → List Char → Prop
  | literal {text : List Char} {plain : occursChars text = false} : Becomes t (.literal text plain) text
  | value {front name : List Char} {opens : afterOpening? front = some []} {unbroken : '%' ∉ name}
      {v : Variable} (hname : Text.upperWord (String.ofList name) = v.name) :
      Becomes t (.marker front name opens unbroken) (v.value t).toList
  | kept {front name : List Char} {opens : afterOpening? front = some []} {unbroken : '%' ∉ name}
      (hname : ∀ v : Variable, Text.upperWord (String.ofList name) ≠ v.name) :
      Becomes t (.marker front name opens unbroken) (front ++ (name ++ ['%']))

theorem exists_percent {s : Segment} (h : s.isLiteral = false) : ∃ more, s.chars = '%' :: more := by
  cases s with
  | literal => cases h
  | marker front name opens unbroken =>
    cases front with
    | nil => cases opens
    | cons c front =>
      obtain rfl : c = '%' := eq_percent_of_afterOpening? (Option.isSome_of_eq_some opens)
      exact ⟨front ++ (name ++ ['%']), rfl⟩

theorem exists_becomes_marker (t : Task) {s : Segment} (h : s.isLiteral = false) :
    ∃ shown, s.Becomes t shown ∧ ∀ rest,
      replaceFrom (Variable.resolve? t) 0 (s.chars ++ rest) =
        shown ++ replaceFrom (Variable.resolve? t) 0 rest := by
  cases s with
  | literal => cases h
  | marker front name opens unbroken =>
    have hlength : front.length = opening.length := by
      obtain ⟨front', hfront, hlength, -⟩ := afterLetters?_eq_some opens
      rw [hfront, List.append_nil, hlength]
    have hname : ∀ rest, nameAt? (front ++ (name ++ '%' :: rest)) = some name := fun rest =>
      nameAt?_eq_some_iff.mpr ⟨unbroken, rest, afterLetters?_append opens _⟩
    have hmarker := fun rest =>
      @replaceFrom_marker (Variable.resolve? t) front name rest hlength (hname rest)
    simp only [Variable.resolve?] at hmarker
    cases hv : Variable.ofName? (String.ofList name) with
    | none =>
      refine ⟨_, .kept (Variable.ofName?_eq_none_iff.mp hv), fun rest => ?_⟩
      rw [hv] at hmarker
      simpa [chars] using hmarker rest
    | some v =>
      refine ⟨_, .value (Variable.ofName?_eq_some_iff.mp hv), fun rest => ?_⟩
      rw [hv] at hmarker
      simpa [chars] using hmarker rest

end Segment

/-- A text cut into its segments, with the marker that may be left open at its end. -/
structure Layout where
  segments : List Segment
  apart : segments.IsChain Segment.Apart
  ending : List Char
  settled : ending = [] ∨ LeftOpen ending

namespace Layout

def chars (l : Layout) : List Char := l.segments.flatMap Segment.chars ++ l.ending

def text (l : Layout) : String := String.ofList l.chars

theorem percent_behind_literal {s : Segment} {segments : List Segment} {ending : List Char}
    (hs : s.isLiteral = true) (hapart : (s :: segments).IsChain Segment.Apart)
    (hending : ending = [] ∨ LeftOpen ending) :
    segments.flatMap Segment.chars ++ ending = [] ∨
      ∃ more, segments.flatMap Segment.chars ++ ending = '%' :: more := by
  cases segments with
  | nil => exact hending.imp_right LeftOpen.exists_percent
  | cons next segments =>
    have hnext : next.isLiteral = false := (List.isChain_cons_cons.mp hapart).1 hs
    obtain ⟨more, hmore⟩ := Segment.exists_percent hnext
    exact Or.inr ⟨more ++ (segments.flatMap Segment.chars ++ ending), by simp [hmore]⟩

/-- Markers are replaced in a text segment by segment. -/
theorem exists_becomes (t : Task) {segments : List Segment} {ending : List Char}
    (hapart : segments.IsChain Segment.Apart) (hending : ending = [] ∨ LeftOpen ending) :
    ∃ shown, List.Forall₂ (Segment.Becomes t) segments shown ∧
      replaceFrom (Variable.resolve? t) 0 (segments.flatMap Segment.chars ++ ending) =
        shown.flatten ++ ending := by
  induction segments with
  | nil =>
    refine ⟨[], .nil, ?_⟩
    rcases hending with rfl | hopen
    · rfl
    · exact hopen.replaceFrom_eq
  | cons s segments ih =>
    obtain ⟨shown, hshown, hrest⟩ := ih hapart.tail
    rw [List.flatMap_cons, List.append_assoc]
    cases s with
    | marker front name opens unbroken =>
      obtain ⟨chars, hbecomes, hmarker⟩ :=
        Segment.exists_becomes_marker t (s := .marker front name opens unbroken) rfl
      refine ⟨chars :: shown, .cons hbecomes hshown, ?_⟩
      rw [hmarker, hrest, List.flatten_cons, List.append_assoc]
    | literal text plain =>
      refine ⟨text :: shown, .cons .literal hshown, ?_⟩
      rw [List.flatten_cons, List.append_assoc, ← hrest, Segment.chars]
      rcases percent_behind_literal rfl hapart hending with hnone | ⟨more, hmore⟩
      · rw [hnone, List.append_nil, replaceFrom_of_no_marker _ plain]
        exact (List.append_nil text).symm
      · rw [hmore, replaceFrom_literal plain]

theorem exists_cons {c : Char} (hnone : afterOpening? (c :: cs) = none) {l : Layout}
    (hl : l.chars = cs) : ∃ l' : Layout, l'.chars = c :: cs := by
  have hplain : ∀ text more, text ++ more = cs → occursChars text = false →
      occursChars (c :: text) = false := by
    rintro text more rfl htext
    have hnone' : afterOpening? (c :: text) = none := by
      cases hopens : afterOpening? (c :: text) with
      | none => rfl
      | some rest =>
        have hmore := afterLetters?_append hopens more
        rw [List.cons_append, ← afterOpening?, hnone] at hmore
        cases hmore
    rw [occursChars, hnone', htext]
    rfl
  obtain ⟨segments, apart, ending, settled⟩ := l
  rw [chars] at hl
  cases segments with
  | nil => exact ⟨⟨[.literal [c] (hplain [] cs rfl rfl)], .singleton _, ending, settled⟩,
      congrArg (c :: ·) hl⟩
  | cons segment segments =>
    cases segment with
    | literal text plain =>
      rw [List.flatMap_cons, List.append_assoc] at hl
      obtain ⟨hnext, hrest⟩ := List.isChain_cons.mp apart
      exact ⟨⟨.literal (c :: text) (hplain _ _ hl plain) :: segments,
        List.isChain_cons.mpr ⟨fun next hm _ => hnext next hm rfl, hrest⟩, ending, settled⟩,
        congrArg (c :: ·) ((List.append_assoc _ _ _).trans hl)⟩
    | marker front name opens unbroken =>
      exact ⟨⟨.literal [c] (hplain [] cs rfl rfl) :: .marker front name opens unbroken :: segments,
        List.isChain_cons_cons.mpr ⟨fun _ => rfl, apart⟩, ending, settled⟩, congrArg (c :: ·) hl⟩

/-- Every text is laid out. -/
theorem exists_text_eq (s : String) : ∃ l : Layout, l.text = s := by
  have hchars : ∀ cs, ∃ l : Layout, l.chars = cs := by
    intro cs
    induction cut cs with
    | nil => exact ⟨⟨[], .nil, [], Or.inl rfl⟩, rfl⟩
    | @char c cs hname _ ih =>
      cases hopens : afterOpening? (c :: cs) with
      | none =>
        obtain ⟨l, hl⟩ := ih
        exact exists_cons hopens hl
      | some rest =>
        have hopen : LeftOpen (c :: cs) :=
          ⟨Option.isSome_of_eq_some hopens, percent_not_mem hopens hname⟩
        exact ⟨⟨[], .nil, c :: cs, Or.inr hopen⟩, rfl⟩
    | @marker front name rest hname hlength _ _ ih =>
      obtain ⟨l, rfl⟩ := ih
      obtain ⟨unbroken, after, hafter⟩ := nameAt?_eq_some_iff.mp hname
      obtain ⟨opens, -⟩ := afterLetters?_of_append hlength hafter
      have apart : (Segment.marker front name opens unbroken :: l.segments).IsChain Segment.Apart :=
        List.isChain_cons.mpr ⟨fun _ _ h => Bool.noConfusion h, l.apart⟩
      exact ⟨⟨_, apart, l.ending, l.settled⟩, by simp [chars, Segment.chars]⟩
  obtain ⟨l, hl⟩ := hchars s.toList
  exact ⟨l, by rw [text, hl, String.ofList_toList]⟩

end Layout

/-- Replacing markers is one pass over the segments of a text. -/
theorem replace_layout (t : Task) (l : Layout) :
    ∃ shown, List.Forall₂ (Segment.Becomes t) l.segments shown ∧
      replace t l.text = String.ofList (shown.flatten ++ l.ending) := by
  obtain ⟨shown, hshown, hreplace⟩ := Layout.exists_becomes t l.apart l.settled
  refine ⟨shown, hshown, ?_⟩
  rw [replace, Layout.text, String.toList_ofList]
  exact congrArg String.ofList hreplace

/-- A value that looks like a marker is put in as it is, and a name that is no variable's is kept
with the percent sign that closes it. -/
example :
    replace { path := "/d/%DIRUN_FEXT%.c", relative := "", name := "" }
      "%dirun_fname%DIRUN_FEXT%%DIRUN_X%DIRUN_FEXT%" =
        "%DIRUN_FEXT%DIRUN_FEXT%%DIRUN_X%DIRUN_FEXT%" := by
  decide +kernel

end Marker
end FileSweep
