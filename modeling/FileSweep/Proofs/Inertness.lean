import FileSweep.Proofs.LookBack
import Mathlib.Data.List.Infix

/-! Escaped text is inert. A scanner that comes upon it while it is at whatever place of a command
takes one character after the other for text: a caret that escapes is dropped, every other one stays,
and nothing that is seen ahead or behind makes an operator or a handle of what stands there. -/
namespace FileSweep

open Quoting

namespace LookBack

/-- The readings of a scan, one for each place at which it stands, up to the first that goes wrong. -/
def readings : Nat → List Char → List Char → List Char → ParseState →
    List (Except ScanFault Reading)
  | _, _, _, [], _ => []
  | skip + 1, before, text, c :: cs, st => readings skip (before ++ [c]) text cs st
  | 0, before, text, c :: cs, st =>
    match read st before text c cs with
    | .error e => [.error e]
    | .ok r => .ok r :: readings r.used (before ++ [c]) r.text cs r.state

/-- A reading that takes a character for text, behind the text collected before. -/
def asText (text : List Char) (st : ParseState) (c : Char) : Reading :=
  ⟨if isControl c then 1 else 0, text ++ [c], st⟩

variable (st : ParseState) (before text : List Char)

theorem read_escaped {c : Char} (hc : isControl c = true) (rest : List Char) :
    read st before text '^' (c :: rest) = .ok (asText text st c) := by
  simp [read, asText, hc]

/-- In front of escaped text a caret escapes nothing. -/
theorem read_plain {c : Char} (hc : isControl c = false) (cs : List Char) :
    read st before text c (escapeChars cs) = .ok (asText text st c) := by
  have hcaret : ¬(c = '^' ∧ (escapeChars cs).head?.any isControl) := by
    rintro ⟨-, hany⟩
    cases hhead : (escapeChars cs).head? with
    | none => simp [hhead] at hany
    | some d => simp [hhead, ParseState.head_escapeChars hhead] at hany
  simp only [read, if_neg hcaret, hc]
  simp [asText, hc]

theorem scanFrom_escaped_cons (c : Char) (cs : List Char) :
    ∃ seen, scanFrom 0 before text (escapeChars (c :: cs)) st =
        scanFrom 0 seen (text ++ [c]) (escapeChars cs) st ∧
      readings 0 before text (escapeChars (c :: cs)) st =
        .ok (asText text st c) :: readings 0 seen (text ++ [c]) (escapeChars cs) st := by
  cases hc : isControl c with
  | true =>
    refine ⟨before ++ ['^'] ++ [c], ?_, ?_⟩
    · rw [escapeChars_control hc, scanFrom, read_escaped st before text hc]
      simp only [asText, hc, if_true, scanFrom]
    · rw [escapeChars_control hc, readings, read_escaped st before text hc]
      simp only [asText, hc, if_true, readings]
  | false =>
    refine ⟨before ++ [c], ?_, ?_⟩
    · rw [escapeChars_plain hc, scanFrom, read_plain st before text hc]
      simp only [asText, hc, Bool.false_eq_true, if_false]
    · rw [escapeChars_plain hc, readings, read_plain st before text hc]
      simp only [asText, hc, Bool.false_eq_true, if_false]

theorem scanFrom_escapeChars (cs : List Char) :
    scanFrom 0 before text (escapeChars cs) st = .ok (st.addWord (text ++ cs)) := by
  induction cs generalizing before text with
  | nil => rw [List.append_nil]; rfl
  | cons c cs ih =>
    obtain ⟨seen, hscan, -⟩ := scanFrom_escaped_cons st before text c cs
    rw [hscan, ih, List.append_assoc, List.singleton_append]

/-- There is one reading for each character of the text, and each finds the state as it was. -/
theorem readings_escapeChars (cs : List Char) :
    (readings 0 before text (escapeChars cs) st).map (Except.map fun r => (r.text, r.state)) =
      cs.inits.tail.map fun front => .ok (text ++ front, st) := by
  induction cs generalizing before text with
  | nil => rfl
  | cons c cs ih =>
    obtain ⟨seen, -, hreadings⟩ := scanFrom_escaped_cons st before text c cs
    obtain ⟨rest, hinits⟩ : ∃ rest, cs.inits = [] :: rest := by cases cs <;> exact ⟨_, rfl⟩
    have htail := ih seen (text ++ [c])
    rw [hinits, List.tail_cons] at htail
    rw [hreadings, List.map_cons, htail, List.inits_cons, List.tail_cons, hinits]
    simp [asText, Except.map, Function.comp_def]

end LookBack

namespace ParseState

/-- An escaped word is inert, whatever has been read before it: the state is changed as the word
itself changes it. No operator and no redirection is seen in it, no digit is taken for a handle, and
character by character it arrives as it was before it was escaped. -/
theorem escaped_word_is_inert (st : ParseState) (word : String) :
    LookBack.scanWord st (escapeControls word) = .ok (st.addWord word.toList) ∧
      st.scanWord (escapeControls word) = st.addWord word.toList ∧
      (LookBack.readings 0 [] [] (escapeControls word).toList st).map
          (Except.map fun r => (r.text, r.state)) =
        word.toList.inits.tail.map fun front => .ok (front, st) := by
  have hchars : (escapeControls word).toList = escapeChars word.toList := by
    rw [escapeControls, String.toList_ofList]
  refine ⟨?_, scanWord_escapeControls st word, ?_⟩
  · rw [LookBack.scanWord, hchars]
    exact LookBack.scanFrom_escapeChars st [] [] word.toList
  · rw [hchars]
    exact LookBack.readings_escapeChars st [] [] word.toList

/-- A word of carets, operators and a handle, read as the target of a redirection that is open. -/
example :
    let st : ParseState := { draft := some { path := "p" }, pending := some { source := 1 } }
    st.scanWord (escapeControls "^2>&1^") =
      { draft := some { path := "p",
                        slots := Slots.empty.fill 1 { target := .file, path := some "^2>&1^" } } } := by
  decide +kernel

end ParseState
end FileSweep
