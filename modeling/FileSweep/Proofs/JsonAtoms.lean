import FileSweep.Json.Printer
import FileSweep.Proofs.Numbers
import Mathlib.Tactic.SplitIfs

/-! Strings and integers in JSON text. A string that is written is read back, whatever its
characters, and so is an integer whose digits are no more than are read. -/
namespace FileSweep

namespace Text

theorem hexValue?_hexDigit (n : Nat) : hexValue? (hexDigit n) = some (n % 16) := by
  have hall : ∀ d < 16, hexValue? (Nat.digitChar d) = some d := by decide
  exact hall (n % 16) (Nat.mod_lt n (by decide))

theorem hexChars_four (n : Nat) : hexChars 4 n =
    [hexDigit (n / 16 / 16 / 16), hexDigit (n / 16 / 16), hexDigit (n / 16), hexDigit n] := rfl

end Text

namespace Json

section Strings

variable (start : Nat)

theorem readStringFrom_skip (taken rest : List Char) :
    readStringFrom start taken.length (taken ++ rest) = readStringFrom start 0 rest := by
  induction taken with
  | nil => rfl
  | cons c taken ih => exact ih

theorem readStringFrom_plain {c : Char} (hquote : c ≠ '"') (hescape : c ≠ '\\')
    (hcontrol : ¬ c.toNat < 0x20) (rest : List Char) :
    readStringFrom start 0 (c :: rest) =
      (readStringFrom start 0 rest).map fun (text, rest) => (c :: text, rest) := by
  rw [readStringFrom, if_neg hquote, if_neg hescape, if_neg hcontrol]

theorem readStringFrom_escape {c : Char} (taken : List Char) {rest : List Char}
    (hread : readEscape start (taken ++ rest) = .ok (c, taken.length)) :
    readStringFrom start 0 ('\\' :: taken ++ rest) =
      (readStringFrom start 0 rest).map fun (text, rest) => (c :: text, rest) := by
  rw [List.cons_append, readStringFrom, if_neg (by decide), if_pos rfl, hread]
  simp only [readStringFrom_skip]

/-- The escape of a control character is read as the character, if there is more text. -/
theorem readEscape_unit {c : Char} (hcontrol : c.toNat < 0x20) {rest : List Char}
    (hrest : rest ≠ []) :
    readEscape start ('u' :: Text.hexChars 4 c.toNat ++ rest) = .ok (c, 5) := by
  have hlong : ¬ (Text.hexChars 4 c.toNat ++ rest).length ≤ 4 := by
    have := List.length_pos_iff.mpr hrest
    rw [List.length_append, Text.length_hexChars]
    omega
  have hvalue : hexFour? (Text.hexChars 4 c.toNat ++ rest) = some c.toNat := by
    simp only [Text.hexChars_four, List.cons_append, hexFour?, Text.hexValue?_hexDigit,
      Option.bind_eq_bind, Option.bind_some, Option.pure_def]
    congr 1
    omega
  have hhigh : isHighSurrogate c.toNat = false := by
    rw [isHighSurrogate, Bool.and_eq_false_iff]
    exact Or.inl (decide_eq_false (by omega))
  have hlow : isLowSurrogate c.toNat = false := by
    rw [isLowSurrogate, Bool.and_eq_false_iff]
    exact Or.inl (decide_eq_false (by omega))
  simp only [List.cons_append, readEscape, unicodeEscape, if_neg hlong, hvalue, hhigh,
    Bool.false_and, charOfUnit, hlow, Bool.or_self, Bool.false_eq_true, if_false,
    Char.ofNat_toNat]
  rfl

theorem readStringFrom_escapedChar (c : Char) {rest : List Char} (hrest : rest ≠ []) :
    readStringFrom start 0 (escapedChar c ++ rest) =
      (readStringFrom start 0 rest).map fun (text, rest) => (c :: text, rest) := by
  unfold escapedChar
  split_ifs with hquote hslash hfeed hreturn htab hback hform hcontrol
  · subst hquote
    exact readStringFrom_escape start ['"'] rfl
  · subst hslash
    exact readStringFrom_escape start ['\\'] rfl
  · exact hfeed ▸ readStringFrom_escape start ['n'] rfl
  · exact hreturn ▸ readStringFrom_escape start ['r'] rfl
  · exact htab ▸ readStringFrom_escape start ['t'] rfl
  · exact hback ▸ readStringFrom_escape start ['b'] rfl
  · exact hform ▸ readStringFrom_escape start ['f'] rfl
  · exact readStringFrom_escape start _ (readEscape_unit start hcontrol hrest)
  · exact readStringFrom_plain start hquote hslash hcontrol rest

theorem readStringFrom_flatMap (cs rest : List Char) :
    readStringFrom start 0 (cs.flatMap escapedChar ++ '"' :: rest) = .ok (cs, rest) := by
  induction cs with
  | nil => simp [readStringFrom]
  | cons c cs ih =>
    rw [List.flatMap_cons, List.append_assoc, readStringFrom_escapedChar start c (by simp), ih]
    rfl

end Strings

theorem readString_flatMap (s : String) (rest : List Char) :
    readString (s.toList.flatMap escapedChar ++ '"' :: rest) = .ok (s, rest) := by
  rw [readString, readStringFrom_flatMap]
  exact congrArg (fun text => Except.ok (text, rest)) String.ofList_toList

/-- What can follow a value: its end, a separator, a bracket that closes, or a blank. -/
def Stops (rest : List Char) : Prop :=
  ∀ c ∈ rest.head?, c ∈ [',', ']', '\x7d'] ∨ isSpace c = true

theorem Stops.no_more {rest : List Char} (h : Stops rest) :
    rest.head?.all (fun c => !isDigit c) = true ∧ fraction? rest = none ∧ exponent? rest = none := by
  cases rest with
  | nil => exact ⟨rfl, rfl, rfl⟩
  | cons c rest =>
    have hc : c ∈ [',', ']', '\x7d', ' ', '\t', '\n', '\r'] := by
      rcases h c rfl with hmark | hspace
      · simp only [List.mem_cons, List.not_mem_nil, or_false] at hmark ⊢
        grind
      · simp only [isSpace, Bool.or_eq_true, beq_iff_eq] at hspace
        simp only [List.mem_cons, List.not_mem_nil, or_false]
        grind
    simp only [List.mem_cons, List.not_mem_nil, or_false] at hc
    rcases hc with rfl | rfl | rfl | rfl | rfl | rfl | rfl <;> exact ⟨rfl, rfl, rfl⟩

section Integers

variable {rest : List Char}

theorem isDigit_of_mem_toDigits {n : Nat} {c : Char} (h : c ∈ Nat.toDigits 10 n) :
    isDigit c = true :=
  Nat.isDigit_of_mem_toDigits (by decide) (by decide) h

theorem digitsValue_toDigits (n : Nat) : digitsValue (Nat.toDigits 10 n) = n := by
  have hvalue : digitsValue = fun cs => Nat.ofDigitChars 10 cs 0 := by
    funext cs
    simp only [digitsValue, Nat.ofDigitChars, Nat.mul_comm 10]
    rfl
  rw [hvalue]
  exact Nat.ofDigitChars_toDigits (by decide) (by decide)

theorem head_toDigits {n : Nat} (hn : n ≠ 0) : (Nat.toDigits 10 n).head? ≠ some '0' := by
  induction n using Nat.strongRecOn with
  | ind n ih =>
    rw [Nat.toDigits_eq_if (by decide)]
    split
    next hsmall =>
      have hall : ∀ d < 10, d ≠ 0 → [Nat.digitChar d].head? ≠ some '0' := by decide
      exact hall n hsmall hn
    next hlarge =>
      have hfirst := ih (n / 10) (by omega) (by omega)
      rw [List.head?_append]
      cases hhead : (Nat.toDigits 10 (n / 10)).head? with
      | none => exact absurd (List.head?_eq_none_iff.mp hhead) Nat.toDigits_ne_nil
      | some c => rwa [hhead] at hfirst

theorem takeWhile_toDigits (n : Nat) (hstop : rest.head?.all (fun c => !isDigit c) = true) :
    (Nat.toDigits 10 n ++ rest).takeWhile isDigit = Nat.toDigits 10 n ∧
      (Nat.toDigits 10 n ++ rest).dropWhile isDigit = rest := by
  have hdigits : ∀ c ∈ Nat.toDigits 10 n, isDigit c = true := fun c => isDigit_of_mem_toDigits
  rw [List.takeWhile_append_of_pos hdigits, List.dropWhile_append_of_pos hdigits]
  cases rest with
  | nil => simp
  | cons c rest =>
    have hc : isDigit c = false := by simpa using hstop
    simp [hc]

theorem integerDigits?_toDigits (n : Nat) (hstop : rest.head?.all (fun c => !isDigit c) = true) :
    integerDigits? (Nat.toDigits 10 n ++ rest) = some (Nat.toDigits 10 n, rest) := by
  by_cases hn : n = 0
  · subst hn
    rfl
  obtain ⟨htake, hdrop⟩ := takeWhile_toDigits n hstop
  have hzero := head_toDigits hn
  have hdigits : ∀ c ∈ Nat.toDigits 10 n, isDigit c = true := fun c => isDigit_of_mem_toDigits
  cases hform : Nat.toDigits 10 n with
  | nil => exact absurd hform Nat.toDigits_ne_nil
  | cons c cs =>
    rw [hform] at htake hdrop hzero hdigits
    have hc : isDigit c = true := hdigits c List.mem_cons_self
    have hne : c ≠ '0' := fun h => hzero (by rw [h]; rfl)
    rw [List.cons_append, List.takeWhile_cons_of_pos hc] at htake
    rw [List.cons_append, List.dropWhile_cons_of_pos hc] at hdrop
    rw [List.cons_append, integerDigits?, if_neg hne, if_pos hc, (List.cons.inj htake).2, hdrop]

theorem readNumber_toDigits (left : Nat) (negative : Bool) {n : Nat}
    (hshort : (Nat.toDigits 10 n).length ≤ Text.digitLimit) (hstops : Stops rest) :
    readNumber left negative (Nat.toDigits 10 n ++ rest) =
      .ok (.int (if negative then -n else n), rest) := by
  obtain ⟨hstop, hfraction, hexponent⟩ := hstops.no_more
  simp only [readNumber, integerDigits?_toDigits n hstop, hfraction, hexponent, Option.elim_none,
    if_pos hshort, digitsValue_toDigits]

theorem ne_of_all {kind : Char → Bool} {ws : List Char} (hws : ws.all (fun w => !kind w) = true)
    {c : Char} (hc : kind c = true) : ∀ w ∈ ws, w ≠ c := by
  rintro w hw rfl
  have hother := List.all_eq_true.mp hws w hw
  simp [hc] at hother

theorem constant?_digit {c : Char} (h : isDigit c = true) (cs : List Char) :
    constant? (c :: cs) = none ∧ constant? ('-' :: c :: cs) = none := by
  have hne : ∀ w ∈ ['n', 't', 'f', 'N', 'I', '-'], w ≠ c := ne_of_all (by decide) h
  simp only [List.forall_mem_cons, List.not_mem_nil, false_implies, implies_true, and_true] at hne
  constructor <;> simp [constant?, constants, afterWord?, hne]

theorem toList_toString_int (n : Int) :
    (toString n).toList = (if n < 0 then ['-'] else []) ++ Nat.toDigits 10 n.natAbs := by
  cases n with
  | ofNat m =>
    have hm : ¬ Int.ofNat m < 0 := Int.not_lt.mpr (Int.natCast_nonneg m)
    rw [if_neg hm]
    exact String.toList_ofList
  | negSucc m =>
    have hm : Int.negSucc m < 0 := Int.negSucc_lt_zero m
    have htext : toString (Int.negSucc m) = "-" ++ String.ofList (Nat.toDigits 10 (m + 1)) := rfl
    rw [if_pos hm, htext, String.toList_append]
    exact congrArg ('-' :: ·) String.toList_ofList

theorem exists_toList_toString_int (n : Int) :
    ∃ c cs, (toString n).toList = c :: cs ∧ (c = '-' ∨ isDigit c = true) := by
  rw [toList_toString_int]
  split
  next => exact ⟨'-', _, rfl, Or.inl rfl⟩
  next =>
    obtain ⟨c, cs, hform⟩ :=
      List.exists_cons_of_ne_nil (Nat.toDigits_ne_nil (b := 10) (n := n.natAbs))
    exact ⟨c, cs, hform, Or.inr (isDigit_of_mem_toDigits (hform ▸ List.mem_cons_self))⟩

/-- An integer that is written is read back, unless it has too many digits. -/
theorem readAtom_int {n : Int} (hshort : Text.IsShort n) (hstops : Stops rest) :
    readAtom ((toString n).toList ++ rest) = .ok (.int n, rest) := by
  obtain ⟨c, cs, hform⟩ :=
    List.exists_cons_of_ne_nil (Nat.toDigits_ne_nil (b := 10) (n := n.natAbs))
  have hc : isDigit c = true := isDigit_of_mem_toDigits (hform ▸ List.mem_cons_self)
  obtain ⟨hplain, hsigned⟩ := constant?_digit hc (cs ++ rest)
  have hread : ∀ left negative, (if negative then -(n.natAbs : Int) else n.natAbs) = n →
      readNumber left negative (c :: (cs ++ rest)) = .ok (.int n, rest) := by
    intro left negative hvalue
    rw [← List.cons_append, ← hform, readNumber_toDigits left negative hshort hstops, hvalue]
  rw [toList_toString_int, hform]
  split
  next hneg =>
    simp only [List.cons_append, List.nil_append, readAtom, hsigned]
    exact hread _ true (by rw [if_pos rfl]; omega)
  next hpos =>
    have hsign : ∀ w ∈ ['-'], w ≠ c := ne_of_all (by decide) hc
    simp only [List.cons_append, List.nil_append, readAtom, hplain]
    split
    next heq => exact absurd (List.cons.inj heq).1.symm (hsign '-' List.mem_cons_self)
    next => exact hread _ false (by rw [if_neg Bool.false_ne_true]; omega)

end Integers

end Json
end FileSweep
