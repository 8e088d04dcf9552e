import FileSweep.Text.Utf8

/-! Decoding bytes piece by piece. An ASCII byte goes on no character that was begun, so bytes that
are cut before or behind one are decoded as they are in the whole; and an ASCII character is decoded
from no other byte, so the cuts of the text are cuts of the bytes. NUL is left out of the second
half, for it is what a number turns into that is no character's. -/
namespace FileSweep
namespace Text

def IsPlain (c : Char) : Prop := 0 < c.toNat ∧ c.toNat < 0x80

instance isPlainDecidable (c : Char) : Decidable (IsPlain c) :=
  inferInstanceAs (Decidable (_ ∧ _))

/-- A character begun that goes on with bytes beyond ASCII only and becomes a character beyond ASCII
only. -/
structure Partial.Wide (p : Partial) : Prop where
  low : 0x80 ≤ p.low
  next : 2 ≤ p.value * 64 + (p.low - 0x80)
  last : p.owed ≤ 1 → 2 ≤ p.value

/-- A point from which bytes are read: nothing is begun, or a wide character. -/
def IsWide (st : Option Partial) : Prop := ∀ p ∈ st, p.Wide

def shownFrom (st : Option Partial) (bytes : List UInt8) : List Char :=
  (piecesFrom st bytes).map Piece.shown

variable {b : UInt8} {c : Char} {st : Option Partial}

theorem shownFrom_cons (st : Option Partial) (b : UInt8) (bytes : List UInt8) :
    shownFrom st (b :: bytes) =
      (stepByte st b).1.map Piece.shown ++ shownFrom (stepByte st b).2 bytes := by
  rw [shownFrom, piecesFrom, List.map_append]
  rfl

theorem isWide_none : IsWide none := fun _ h => nomatch h

theorem not_isPlain_of_le (h : 0x80 ≤ c.toNat) : ¬ IsPlain c := fun hc => Nat.not_lt.mpr h hc.2

theorem not_isPlain_bad (bytes : List UInt8) (cause : Malformed) :
    ¬ IsPlain (Piece.bad bytes cause).shown :=
  not_isPlain_of_le (show 0x80 ≤ '\uFFFD'.toNat by decide)

theorem not_isPlain_closePartial : ∀ c ∈ (closePartial st).map Piece.shown, ¬ IsPlain c := by
  cases st with
  | none => exact fun c hc => nomatch hc
  | some p =>
    intro c hc
    obtain rfl : c = _ := List.mem_singleton.mp hc
    exact not_isPlain_bad _ _

theorem not_isPlain_ofNat {n : Nat} (h : 0x80 ≤ n) : ¬ IsPlain (Char.ofNat n) := by
  by_cases hvalid : n.isValidChar
  · rw [Char.ofNat, dif_pos hvalid]
    exact not_isPlain_of_le h
  · rw [Char.ofNat, dif_neg hvalid]
    exact fun hnul => absurd hnul.1 (by decide)

theorem toNat_ofNat_ascii {n : Nat} (h : n < 0x80) : (Char.ofNat n).toNat = n := by
  have hvalid : n.isValidChar := Or.inl (by omega)
  rw [Char.ofNat, dif_pos hvalid]
  rfl

/-- What is read shows no ASCII character, and leaves the reading at a wide point. -/
def Beyond (r : List Piece × Option Partial) : Prop :=
  (∀ c ∈ r.1.map Piece.shown, ¬ IsPlain c) ∧ IsWide r.2

theorem openByte_ascii (hb : b.toNat < 0x80) : openByte b = ([.char (Char.ofNat b.toNat)], none) := by
  simp only [openByte, if_pos hb]

theorem beyond_openByte (hb : 0x80 ≤ b.toNat) : Beyond (openByte b) := by
  have hbad : Beyond ([.bad [b] .startByte], none) :=
    ⟨by simpa using not_isPlain_bad [b] .startByte, isWide_none⟩
  have hwait : ∀ value owed low high, 0x80 ≤ low → 2 ≤ value * 64 + (low - 0x80) →
      (owed ≤ 1 → 2 ≤ value) → Beyond ([], some ⟨[b], value, owed, low, high⟩) := by
    rintro value owed low high hlow hnext hlast
    refine ⟨by simp, fun p hp => ?_⟩
    cases hp
    exact ⟨hlow, hnext, hlast⟩
  unfold openByte
  simp only [if_neg (Nat.not_lt.mpr hb)]
  split
  next => exact hbad
  -- The kinds of first bytes, from those of two bytes on.
  iterate 7
    split
    next => exact hwait _ _ _ _ (by omega) (by omega) (by omega)
  exact hbad

theorem stepByte_ascii (hst : IsWide st) (hb : b.toNat < 0x80) :
    (stepByte st b).1.map Piece.shown =
        (closePartial st).map Piece.shown ++ [Char.ofNat b.toNat] ∧
      (stepByte st b).2 = none := by
  cases st with
  | none =>
    rw [stepByte, openByte_ascii hb]
    exact ⟨rfl, rfl⟩
  | some p =>
    have hlow := (hst p rfl).low
    have hno : ¬ (p.low ≤ b.toNat ∧ b.toNat ≤ p.high) := by omega
    rw [stepByte, if_neg hno, openByte_ascii hb]
    exact ⟨rfl, rfl⟩

theorem beyond_stepByte (hst : IsWide st) (hb : 0x80 ≤ b.toNat) : Beyond (stepByte st b) := by
  cases st with
  | none => exact beyond_openByte hb
  | some p =>
    obtain ⟨hlow, hnext, hlast⟩ := hst p rfl
    rw [stepByte]
    split
    next hrange =>
      have hvalue : 2 ≤ p.value * 64 + (b.toNat - 0x80) := by omega
      simp only
      split
      next howed =>
        have htwo := hlast howed
        exact ⟨by simpa [Piece.shown] using not_isPlain_ofNat (by omega), isWide_none⟩
      next =>
        refine ⟨by simp, fun q hq => ?_⟩
        cases hq
        exact ⟨Nat.le_refl _, by simp only; omega, fun _ => hvalue⟩
    next =>
      obtain ⟨hpieces, hwide⟩ := beyond_openByte hb
      refine ⟨?_, hwide⟩
      simp only [List.map_cons, List.mem_cons]
      rintro c (rfl | hc)
      · exact not_isPlain_bad _ _
      · exact hpieces c hc

theorem isWide_stepByte (hst : IsWide st) (b : UInt8) : IsWide (stepByte st b).2 := by
  by_cases hb : b.toNat < 0x80
  · rw [(stepByte_ascii hst hb).2]
    exact isWide_none
  · exact (beyond_stepByte hst (Nat.le_of_not_lt hb)).2

/-- Bytes before and behind an ASCII byte are decoded apart. -/
theorem shownFrom_append (hst : IsWide st) (hb : b.toNat < 0x80) (front back : List UInt8) :
    shownFrom st (front ++ b :: back) =
      shownFrom st front ++ Char.ofNat b.toNat :: decodeLossyChars back := by
  induction front generalizing st with
  | nil =>
    obtain ⟨hshown, hnext⟩ := stepByte_ascii hst hb
    rw [List.nil_append, shownFrom_cons, hshown, hnext, List.append_assoc]
    rfl
  | cons d front ih =>
    rw [List.cons_append, shownFrom_cons, shownFrom_cons, ih (isWide_stepByte hst d), List.append_assoc]

theorem decodeLossyChars_append (hb : b.toNat < 0x80) (front back : List UInt8) :
    decodeLossyChars (front ++ b :: back) =
      decodeLossyChars front ++ Char.ofNat b.toNat :: decodeLossyChars back :=
  shownFrom_append isWide_none hb front back

theorem exists_of_append_eq {front back xs ys : List Char} (h : front ++ back = xs ++ c :: ys)
    (hc : c ∉ front) : ∃ zs, xs = front ++ zs ∧ back = zs ++ c :: ys := by
  rcases List.append_eq_append_iff.mp h with ⟨zs, rfl, hback⟩ | ⟨zs, rfl, hcons⟩
  · exact ⟨zs, rfl, hback⟩
  · cases zs with
    | nil => exact ⟨[], by simp, hcons.symm⟩
    | cons z zs =>
      obtain ⟨rfl, -⟩ := List.cons.inj hcons
      simp at hc

/-- Where an ASCII character stands in a decoded text, its byte stands in the bytes, and what is
before it and behind it is decoded from what is before and behind its byte. -/
theorem exists_of_shownFrom (hst : IsWide st) (hc : IsPlain c) {bytes : List UInt8}
    {xs ys : List Char} (h : shownFrom st bytes = xs ++ c :: ys) :
    ∃ front b back, bytes = front ++ b :: back ∧ b.toNat = c.toNat ∧
      shownFrom st front = xs ∧ decodeLossyChars back = ys := by
  induction bytes generalizing st xs with
  | nil =>
    have hmem : c ∈ shownFrom st [] := by rw [h]; simp
    exact absurd hc (not_isPlain_closePartial c hmem)
  | cons b bytes ih =>
    rw [shownFrom_cons] at h
    by_cases hb : b.toNat < 0x80
    · obtain ⟨hshown, hnext⟩ := stepByte_ascii hst hb
      rw [hshown, hnext, List.append_assoc] at h
      obtain ⟨zs, rfl, hzs⟩ := exists_of_append_eq h fun hmem => not_isPlain_closePartial c hmem hc
      cases zs with
      | nil =>
        obtain ⟨hchar, hys⟩ := List.cons.inj hzs
        refine ⟨[], b, bytes, rfl, ?_, (List.append_nil _).symm, hys⟩
        rw [← hchar, toNat_ofNat_ascii hb]
      | cons z zs =>
        obtain ⟨rfl, hrest⟩ := List.cons.inj hzs
        obtain ⟨front, d, back, rfl, hd, hfront, hback⟩ := ih isWide_none hrest
        refine ⟨b :: front, d, back, rfl, hd, ?_, hback⟩
        rw [shownFrom_cons, hshown, hnext, hfront, List.append_assoc]
        rfl
    · obtain ⟨hpieces, hwide⟩ := beyond_stepByte hst (Nat.le_of_not_lt hb)
      obtain ⟨zs, rfl, hzs⟩ := exists_of_append_eq h fun hmem => hpieces c hmem hc
      obtain ⟨front, d, back, rfl, hd, hfront, hback⟩ := ih hwide hzs
      refine ⟨b :: front, d, back, rfl, hd, ?_, hback⟩
      rw [shownFrom_cons, hfront]

theorem exists_of_decodeLossyChars (hc : IsPlain c) {bytes : List UInt8} {xs ys : List Char}
    (h : decodeLossyChars bytes = xs ++ c :: ys) :
    ∃ front b back, bytes = front ++ b :: back ∧ b.toNat = c.toNat ∧
      decodeLossyChars front = xs ∧ decodeLossyChars back = ys :=
  exists_of_shownFrom isWide_none hc h

theorem stepByte_progress (st : Option Partial) (b : UInt8) :
    (stepByte st b).1 ≠ [] ∨ (stepByte st b).2 ≠ none := by
  have hopen : (openByte b).1 ≠ [] ∨ (openByte b).2 ≠ none := by
    unfold openByte
    simp only
    repeat' split
    all_goals simp
  cases st with
  | none => exact hopen
  | some p =>
    rw [stepByte]
    simp only
    repeat' split
    all_goals simp

theorem decodeLossyChars_ne_nil {bytes : List UInt8} (h : bytes ≠ []) : decodeLossyChars bytes ≠ [] := by
  have hall : ∀ st, shownFrom st bytes = [] → st = none ∧ bytes = [] := by
    clear h
    induction bytes with
    | nil =>
      intro st h
      cases st with
      | none => exact ⟨rfl, rfl⟩
      | some p => cases h
    | cons b bytes ih =>
      intro st h
      rw [shownFrom_cons, List.append_eq_nil_iff, List.map_eq_nil_iff] at h
      rcases stepByte_progress st b with hshown | hnext
      · exact absurd h.1 hshown
      · exact absurd (ih _ h.2).1 hnext
  exact fun hnone => h (hall none hnone).2

theorem eq_map_of_decodeLossyChars {bytes : List UInt8} {cs : List Char} (hcs : ∀ c ∈ cs, IsPlain c)
    (h : decodeLossyChars bytes = cs) : bytes = cs.map fun c => UInt8.ofNat c.toNat := by
  induction cs generalizing bytes with
  | nil => exact Classical.not_not.mp fun hne => decodeLossyChars_ne_nil hne h
  | cons c cs ih =>
    have hfirst : decodeLossyChars bytes = [] ++ c :: cs := h
    obtain ⟨front, b, back, rfl, hb, hfront, hback⟩ :=
      exists_of_decodeLossyChars (hcs c List.mem_cons_self) hfirst
    obtain rfl : front = [] := Classical.not_not.mp fun hne => decodeLossyChars_ne_nil hne hfront
    rw [ih (fun d hd => hcs d (List.mem_cons_of_mem c hd)) hback, List.map_cons, ← hb, UInt8.ofNat_toNat]
    rfl

end Text
end FileSweep
