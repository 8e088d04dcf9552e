import FileSweep.Proofs.Words

/-! A single word, written and read back. It is read as one word whatever it holds, for what the
splitter takes for a quoted run and what quoting takes for one are the same; and it is read as
itself unless it holds quotes and is written without new ones around it. -/
namespace FileSweep
namespace Quoting

def afterQuote? : List Char → Option (List Char)
  | [] => none
  | c :: cs => if c = '"' then some cs else afterQuote? cs

theorem length_of_afterQuote? {cs rest : List Char} (h : afterQuote? cs = some rest) :
    rest.length < cs.length := by
  induction cs with
  | nil => cases h
  | cons c cs ih =>
    rw [afterQuote?] at h
    split at h
    next => cases h; simp
    next => exact Nat.lt_succ_of_lt (ih h)

/-- Whether a blank stands outside the quoted runs, looked for by leaping from the quote that opens
a run to the one that closes it. A run that nothing closes goes on to the end. -/
def leapsToBlank : List Char → Bool
  | [] => false
  | c :: cs =>
    if c = '"' then
      match _h : afterQuote? cs with
      | none => false
      | some rest => leapsToBlank rest
    else Text.isBlank c || leapsToBlank cs
  termination_by cs => cs.length
  decreasing_by
    · exact Nat.lt_succ_of_lt (length_of_afterQuote? ‹afterQuote? cs = some rest›)
    · exact Nat.lt_succ_self cs.length

theorem blankOutside_inRun (cs : List Char) :
    blankOutside true cs = (afterQuote? cs).any (blankOutside false) := by
  induction cs with
  | nil => rfl
  | cons c cs ih =>
    by_cases hc : c = '"'
    · simp [blankOutside, afterQuote?, hc]
    · simp [blankOutside, afterQuote?, hc, ih]

/-- Going through a text with a note on whether a run is open finds the same blanks as leaping. -/
theorem blankOutside_eq_leapsToBlank (cs : List Char) : blankOutside false cs = leapsToBlank cs := by
  fun_induction leapsToBlank cs with
  | case1 => rfl
  | case2 cs hnone =>
    rw [blankOutside, if_pos rfl, Bool.not_false, blankOutside_inRun, hnone]
    rfl
  | case3 cs rest hrest ih =>
    rw [blankOutside, if_pos rfl, Bool.not_false, blankOutside_inRun, hrest]
    exact ih
  | case4 c cs hc ih => rw [blankOutside, if_neg hc, Bool.not_false, Bool.true_and, ih]

/-- The word in quotes, with its own quotes doubled. -/
def enclose (w : String) : String := String.ofList ('"' :: doubleQuotes w.toList ++ ['"'])

theorem length_doubleQuotes (cs : List Char) : cs.length ≤ (doubleQuotes cs).length := by
  induction cs with
  | nil => simp
  | cons c cs ih =>
    rw [doubleQuotes] at ih ⊢
    rw [List.flatMap_cons, List.length_append, List.length_cons]
    split <;> simp only [List.length_cons, List.length_nil] <;> omega

theorem quoteIfNeeded_eq_enclose_iff (w : String) :
    quoteIfNeeded w = enclose w ↔ needsQuotes w.toList = true := by
  have hother : w.toList ≠ '"' :: doubleQuotes w.toList ++ ['"'] := by
    intro h
    have hlength := congrArg List.length h
    have hdoubled := length_doubleQuotes w.toList
    simp only [List.cons_append, List.length_cons, List.length_append, List.length_nil] at hlength
    omega
  rw [quoteIfNeeded, enclose, String.ofList_inj, quoteChars]
  by_cases hneeds : needsQuotes w.toList = true
  · rw [if_pos hneeds]
    exact iff_of_true rfl hneeds
  · rw [if_neg hneeds]
    exact iff_of_false hother hneeds

end Quoting

namespace Words

open Quoting

/-- A word by itself is read as one word, for a run that it leaves open ends with the line. -/
theorem splitChars_quoteChars {cs : List Char} (hne : cs ≠ []) :
    splitChars (quoteChars cs) = [reread cs] := by
  by_cases hq : needsQuotes cs = true
  · have hread := readAs_quoted cs [] (by simp)
    rw [List.append_nil] at hread
    rw [splitChars, quoteChars, reread, if_pos hq, if_pos hq, hread, splitFrom_nil]
    rfl
  · have hread := splitFrom_unquoted [] hne (Bool.not_eq_true _ ▸ hq) (by simp)
    rw [List.append_nil] at hread
    rw [splitChars, reread, if_neg hq, hread, splitFrom_nil]
    rfl

/-- A word that is written by itself is read as one word. That is the word itself exactly when it
holds no quote or has been put in quotes, and it has been put in quotes exactly when a marker begins
in it or a blank stands outside its quoted runs. -/
theorem split_quoteIfNeeded {w : String} (hne : w ≠ "") :
    ∃ word, split (quoteIfNeeded w) = [word] ∧
      (word = w ↔ '"' ∉ w.toList ∨ quoteIfNeeded w = enclose w) ∧
      (quoteIfNeeded w = enclose w ↔ Marker.occurs w = true ∨ leapsToBlank w.toList = true) := by
  have hchars : splitChars (quoteChars w.toList) = [reread w.toList] :=
    splitChars_quoteChars (by simpa using hne)
  refine ⟨String.ofList (reread w.toList), ?_, ?_, ?_⟩
  · rw [split, quoteIfNeeded, String.toList_ofList, hchars]
    rfl
  · have htext : String.ofList (reread w.toList) = w ↔ reread w.toList = w.toList := by
      rw [← String.ofList_inj, String.ofList_toList]
    rw [htext, reread_eq_self_iff, quoteIfNeeded_eq_enclose_iff, KeepsQuotes]
    exact Decidable.imp_iff_not_or
  · rw [quoteIfNeeded_eq_enclose_iff, needsQuotes, blankOutside_eq_leapsToBlank, Bool.or_eq_true]
    rfl

/-- A quoted run, right behind it one that is left open, and blanks in both: the word is written as
it is and comes back with other quotes. -/
theorem split_quoteIfNeeded_of_open_run :
    ∃ word, split (quoteIfNeeded "\"a \"\"b c") = [word] ∧ word ≠ "\"a \"\"b c" := by
  obtain ⟨word, hword, hself, -⟩ := split_quoteIfNeeded (show "\"a \"\"b c" ≠ "" by decide)
  refine ⟨word, hword, fun h => ?_⟩
  have hkept := hself.mp h
  revert hkept
  decide

end Words
end FileSweep
