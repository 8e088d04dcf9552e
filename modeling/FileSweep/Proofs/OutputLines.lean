import FileSweep.Capture
import FileSweep.Proofs.Decoding

/-! The lines of an output. Bytes are cut into lines before they are decoded, and no text is lost by
that: a line feed is one byte that ends whatever was begun, so decoding the lines one by one gives
the lines of the text that all the bytes decode to. -/
namespace FileSweep
namespace Capture

/-- The lines of a text: what its line feeds part, and what stands behind the last of them unless
nothing does. -/
def linesOf (cs : List Char) : List (List Char) :=
  let parts := cs.splitOn '\n'
  if parts.getLast? = some [] then parts.dropLast else parts

/-- A text with every line ended by one line feed, and one carriage return taken from before it. -/
def settleChars (cs : List Char) : List Char :=
  (linesOf cs).flatMap fun line => dropLastChar '\r' line ++ ['\n']

def settle (s : String) : String := String.ofList (settleChars s.toList)

@[simp] theorem dropLastChar_append (c : Char) (cs : List Char) : dropLastChar c (cs ++ [c]) = cs := by
  simp [dropLastChar]

theorem dropLastChar_of_not_mem {c : Char} {cs : List Char} (h : c ∉ cs) : dropLastChar c cs = cs :=
  if_neg fun hlast => h (List.mem_of_getLast? hlast)

/-- Bytes cut at their line feeds. -/
inductive Lined : List UInt8 → Prop
  | last {line : List UInt8} (hline : 10 ∉ line) : Lined line
  | line {line rest : List UInt8} (hline : 10 ∉ line) (hrest : Lined rest) : Lined (line ++ 10 :: rest)

theorem lined (bytes : List UInt8) : Lined bytes := by
  induction bytes with
  | nil => exact .last (by simp)
  | cons b bytes ih =>
    by_cases hb : b = 10
    · subst hb
      exact @Lined.line [] bytes (by simp) ih
    · cases ih with
      | last hline => exact .last (by simp [Ne.symm hb, hline])
      | @line line rest hline hrest => exact @Lined.line (b :: line) rest (by simp [Ne.symm hb, hline]) hrest

section Line

variable {line : List UInt8} (hline : 10 ∉ line)
include hline

theorem linesFrom_append (begun rest : List UInt8) :
    linesFrom begun (line ++ 10 :: rest) = (begun ++ line ++ [10]) :: lines rest := by
  induction line generalizing begun with
  | nil => simp [linesFrom, lines]
  | cons b line ih =>
    rw [List.mem_cons, not_or] at hline
    rw [List.cons_append, linesFrom, if_neg (Ne.symm hline.1), ih hline.2]
    simp

theorem linesFrom_last (begun : List UInt8) :
    linesFrom begun line = if (begun ++ line).isEmpty then [] else [begun ++ line] := by
  induction line generalizing begun with
  | nil => simp [linesFrom]
  | cons b line ih =>
    rw [List.mem_cons, not_or] at hline
    rw [linesFrom, if_neg (Ne.symm hline.1), ih hline.2]
    simp

theorem newline_not_mem : '\n' ∉ Text.decodeLossyChars line := by
  intro hmem
  obtain ⟨xs, ys, hsplit⟩ := List.append_of_mem hmem
  obtain ⟨front, b, back, rfl, hb, -⟩ := Text.exists_of_decodeLossyChars (by decide) hsplit
  obtain rfl : b = 10 := UInt8.toNat_inj.mp hb
  simp at hline

theorem textChars_append (rest : List UInt8) :
    textChars (line ++ 10 :: rest) =
      dropLastChar '\r' (Text.decodeLossyChars line) ++ '\n' :: textChars rest := by
  have hdecode : Text.decodeLossyChars (line ++ [10]) = Text.decodeLossyChars line ++ ['\n'] :=
    Text.decodeLossyChars_append (by decide) line []
  rw [textChars, lines, linesFrom_append hline, joinLines, List.flatMap_cons, List.nil_append, lineChars, hdecode,
    dropLastChar_append, List.append_assoc]
  rfl

theorem textChars_last (hne : line ≠ []) :
    textChars line = dropLastChar '\r' (Text.decodeLossyChars line) ++ ['\n'] := by
  rw [textChars, lines, linesFrom_last hline, List.nil_append, if_neg (by simpa using hne), joinLines,
    List.flatMap_singleton, lineChars, dropLastChar_of_not_mem (newline_not_mem hline)]

end Line

section Settle

variable {line : List Char} (hline : '\n' ∉ line)
include hline

theorem not_isNewline : ∀ c ∈ line, (c == '\n') = false := by
  intro c hc
  rw [beq_eq_false_iff_ne]
  rintro rfl
  exact hline hc

theorem linesOf_append (rest : List Char) : linesOf (line ++ '\n' :: rest) = line :: linesOf rest := by
  have hparts : (line ++ '\n' :: rest).splitOn '\n' = line :: rest.splitOn '\n' :=
    List.splitOnP_append_cons_of_forall_mem (not_isNewline hline) '\n' rfl rest
  have hne : rest.splitOn '\n' ≠ [] := List.splitOnP_ne_nil _ _
  rw [linesOf, linesOf, hparts]
  simp only [List.getLast?_cons_of_ne_nil hne, List.dropLast_cons_of_ne_nil hne]
  split <;> rfl

theorem linesOf_last (hne : line ≠ []) : linesOf line = [line] := by
  have hparts : line.splitOn '\n' = [line] := List.splitOnP_eq_singleton (not_isNewline hline)
  simp [linesOf, hparts, hne]

theorem settleChars_append (rest : List Char) :
    settleChars (line ++ '\n' :: rest) = dropLastChar '\r' line ++ '\n' :: settleChars rest := by
  rw [settleChars, linesOf_append hline, List.flatMap_cons, List.append_assoc]
  rfl

theorem settleChars_last (hne : line ≠ []) : settleChars line = dropLastChar '\r' line ++ ['\n'] := by
  rw [settleChars, linesOf_last hline hne, List.flatMap_singleton]

end Settle

/-- The text of an output is that of all its bytes, with the line ends settled. -/
theorem textChars_eq_settleChars (bytes : List UInt8) :
    textChars bytes = settleChars (Text.decodeLossyChars bytes) := by
  induction lined bytes with
  | @last line hline =>
    by_cases hne : line = []
    · subst hne; rfl
    · rw [textChars_last hline hne,
        settleChars_last (newline_not_mem hline) (Text.decodeLossyChars_ne_nil hne)]
  | @line line rest hline _ ih =>
    rw [textChars_append hline, Text.decodeLossyChars_append (by decide), ih]
    exact (settleChars_append (newline_not_mem hline) _).symm

theorem text_eq_settle (bytes : List UInt8) : text bytes = settle (Text.decodeLossy bytes) := by
  rw [text, settle, Text.decodeLossy, String.toList_ofList, textChars_eq_settleChars]

end Capture
end FileSweep
