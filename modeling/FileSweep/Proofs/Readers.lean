import FileSweep.Proofs.OutputLines
import Mathlib.Data.List.Infix

/-! The readers of outputs. However an output is cut into pieces on its way, its reader meets the
lines of all the bytes, as long as none of them is longer than the limit. Whatever is dropped, the
text that is captured is the text of the bytes that have come through. -/
namespace FileSweep
namespace Capture

/-- No line of some bytes is longer than a limit, line feeds aside. -/
def Within (limit : Nat) (bytes : List UInt8) : Prop :=
  ∀ line, line <:+: bytes → 10 ∉ line → line.length ≤ limit

theorem within_of_length_le {limit : Nat} {bytes : List UInt8} (h : bytes.length ≤ limit) :
    Within limit bytes :=
  fun _ hline _ => hline.length_le.trans h

theorem Within.of_infix {limit : Nat} {bytes part : List UInt8} (h : Within limit bytes)
    (hpart : part <:+: bytes) : Within limit part :=
  fun line hline => h line (hline.trans hpart)

/-- The bytes of an output that come through its reader. -/
def passed (output : Output) : List UInt8 := ((read output).filterMap Reading.line?).flatten

variable {limit : Nat} {begun : List UInt8} (hbegun : 10 ∉ begun)
include hbegun

theorem readPiece_of_within {piece : List UInt8} (hwithin : Within limit (begun ++ piece)) :
    ∃ ls held, readPiece limit begun piece = (ls.map .line, held) ∧ 10 ∉ held ∧
      held <:+ begun ++ piece ∧
      ∀ rest, linesFrom begun (piece ++ rest) = ls ++ linesFrom held rest := by
  have hlength : begun.length ≤ limit := hwithin begun (List.prefix_append _ _).isInfix hbegun
  induction piece generalizing begun with
  | nil => exact ⟨[], begun, by simp [readPiece, hlength], hbegun, by simp, fun _ => rfl⟩
  | cons b piece ih =>
    by_cases hb : b = 10
    · have hpiece : piece <:+ begun ++ b :: piece :=
        (List.suffix_cons b piece).trans (List.suffix_append _ _)
      obtain ⟨ls, held, hread, hheld, hsuffix, hlines⟩ :=
        @ih [] (by simp) (hwithin.of_infix hpiece.isInfix) (by simp)
      refine ⟨(begun ++ [b]) :: ls, held, ?_, hheld, hsuffix.trans hpiece, fun rest => ?_⟩
      · simp only [readPiece, if_pos hb, hread, if_neg (Nat.not_lt.mpr hlength), List.map_cons]
      · rw [List.cons_append, linesFrom, if_pos hb, hlines, List.cons_append]
    · rw [List.append_cons] at hwithin
      have hmore : 10 ∉ begun ++ [b] := by simp [hbegun, Ne.symm hb]
      obtain ⟨ls, held, hread, hheld, hsuffix, hlines⟩ := ih hmore hwithin
        (hwithin _ (List.prefix_append _ _).isInfix hmore)
      refine ⟨ls, held, ?_, hheld, by simpa using hsuffix, fun rest => ?_⟩
      · rw [readPiece, if_neg hb, hread]
      · rw [List.cons_append, linesFrom, if_neg hb, hlines]

/-- However bytes are cut into pieces, their lines are met. -/
theorem readFrom_of_within {output : Output} (hwithin : Within limit (begun ++ output.flatten)) :
    readFrom limit begun output = (linesFrom begun output.flatten).map .line := by
  induction output generalizing begun with
  | nil =>
    rw [readFrom, List.flatten_nil, linesFrom]
    split <;> rfl
  | cons piece output ih =>
    rw [List.flatten_cons, ← List.append_assoc] at hwithin
    obtain ⟨ls, held, hread, hheld, hsuffix, hlines⟩ :=
      readPiece_of_within hbegun (hwithin.of_infix (List.prefix_append _ _).isInfix)
    have hrest : held ++ output.flatten <:+: begun ++ piece ++ output.flatten :=
      ((List.suffix_append_inj_of_length_eq rfl).mpr ⟨hsuffix, rfl⟩).isInfix
    rw [readFrom, hread]
    simp only
    rw [ih hheld (hwithin.of_infix hrest), List.flatten_cons, hlines, List.map_append]

-- A line that is too long is dropped whole if it ends in the piece that makes it so.
example : readFrom 2 [] [[97, 98], [99, 10, 100, 10]] = [.overlong, .line [100, 10]] := by decide

-- Otherwise only what has been delivered of it is dropped.
example : readFrom 2 [] [[97, 98, 99], [100, 10]] = [.unended, .line [100, 10]] := by decide

theorem readPiece_lines (limit : Nat) (piece : List UInt8) :
    10 ∉ (readPiece limit begun piece).2 ∧
      ∀ rest, lines (((readPiece limit begun piece).1.filterMap Reading.line?).flatten ++ rest) =
        (readPiece limit begun piece).1.filterMap Reading.line? ++ lines rest := by
  induction piece generalizing begun with
  | nil =>
    rw [readPiece]
    split
    · exact ⟨by simp, fun _ => rfl⟩
    · exact ⟨hbegun, fun _ => rfl⟩
  | cons b piece ih =>
    by_cases hb : b = 10
    · obtain ⟨hheld, hlines⟩ := @ih [] (by simp)
      simp only [readPiece, if_pos hb]
      refine ⟨hheld, fun rest => ?_⟩
      split
      · exact hlines rest
      · have hline := linesFrom_append hbegun []
          (((readPiece limit [] piece).1.filterMap Reading.line?).flatten ++ rest)
        rw [hlines, List.nil_append, ← hb] at hline
        simpa [Reading.line?, lines] using hline
    · rw [readPiece, if_neg hb]
      exact ih (by simp [hbegun, Ne.symm hb])

/-- Cut again, the bytes that have come through give the lines that they came in. -/
theorem lines_readFrom (limit : Nat) (output : Output) :
    lines ((readFrom limit begun output).filterMap Reading.line?).flatten =
      (readFrom limit begun output).filterMap Reading.line? := by
  induction output generalizing begun with
  | nil =>
    rw [readFrom]
    split
    · rfl
    next hne =>
      have hlast := linesFrom_last hbegun []
      rw [List.nil_append, if_neg hne] at hlast
      simpa [Reading.line?, lines] using hlast
  | cons piece output ih =>
    obtain ⟨hheld, hlines⟩ := readPiece_lines hbegun limit piece
    rw [readFrom, List.filterMap_append, List.flatten_append, hlines, ih hheld]

omit hbegun

theorem captured_eq_text (output : Output) : captured output = text (passed output) := by
  rw [captured, text, textChars, passed, read, lines_readFrom (by simp)]

theorem flatten_linesFrom (begun bytes : List UInt8) :
    (linesFrom begun bytes).flatten = begun ++ bytes := by
  induction bytes generalizing begun with
  | nil => cases begun <;> simp [linesFrom]
  | cons b bytes ih =>
    rw [linesFrom]
    split
    · simp [ih]
    · simp [ih]

/-- If no line of an output is too long, all of it comes through, and nothing is dropped. -/
theorem passed_of_within {output : Output} (hwithin : Within lineLimit output.flatten) :
    passed output = output.flatten ∧ (read output).filterMap Reading.reason? = [] := by
  have hread : read output = (lines output.flatten).map .line :=
    readFrom_of_within (by simp) (by simpa using hwithin)
  constructor
  · have hlines : Reading.line? ∘ Reading.line = some := rfl
    rw [passed, hread, List.filterMap_map, hlines, List.filterMap_some, lines, flatten_linesFrom,
      List.nil_append]
  · rw [hread, List.filterMap_map]
    exact List.filterMap_eq_nil_iff.mpr fun _ _ => rfl

theorem captured_of_within {output : Output} (hwithin : Within lineLimit output.flatten) :
    captured output = text output.flatten := by
  rw [captured_eq_text, (passed_of_within hwithin).1]

end Capture
end FileSweep
