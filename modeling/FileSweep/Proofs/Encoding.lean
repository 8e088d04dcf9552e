import FileSweep.Host.Files

/-! Text in files. The bytes that a text is written as are read back as the text: the machine that
reads them goes through the bytes of one character and then stands where the next one begins. -/
namespace FileSweep
namespace Text

variable (bs : List UInt8)

theorem openByte_one : ∀ n < 128, openByte (UInt8.ofNat n) = ([.char (Char.ofNat n)], none) := by
  decide

theorem openByte_two : ∀ n < 32, 2 ≤ n → openByte (UInt8.ofNat (n + 192)) =
    ([], some ⟨[UInt8.ofNat (n + 192)], n, 1, 0x80, 0xBF⟩) := by
  decide

/-- The second byte of three says that the character is no shorter, and no surrogate. -/
theorem openByte_three : ∀ n < 16, openByte (UInt8.ofNat (n + 224)) =
    ([], some ⟨[UInt8.ofNat (n + 224)], n, 2, if n = 0 then 0xA0 else 0x80,
      if n = 13 then 0x9F else 0xBF⟩) := by
  decide

/-- The second byte of four says that the character is no shorter, and not beyond the last one. -/
theorem openByte_four : ∀ n < 5, openByte (UInt8.ofNat (n + 240)) =
    ([], some ⟨[UInt8.ofNat (n + 240)], n, 3, if n = 0 then 0x90 else 0x80,
      if n = 4 then 0x8F else 0xBF⟩) := by
  decide

theorem toNat_continuation {n : Nat} (hn : n < 64) : (UInt8.ofNat (n + 128)).toNat = n + 128 := by
  have hsize : n + 128 < UInt8.size := by
    have hbytes : UInt8.size = 256 := rfl
    omega
  exact UInt8.toNat_ofNat_of_lt' hsize

section Owed

variable {bytes : List UInt8} {value low high n : Nat} (hlow : low ≤ n + 128) (hhigh : n + 128 ≤ high)
  (hn : n < 64)

include hlow hhigh hn

theorem piecesFrom_more (owed : Nat) :
    piecesFrom (some ⟨bytes, value, owed + 2, low, high⟩) (UInt8.ofNat (n + 128) :: bs) =
      piecesFrom
        (some ⟨bytes ++ [UInt8.ofNat (n + 128)], value * 64 + n, owed + 1, 0x80, 0xBF⟩) bs := by
  have hbyte := toNat_continuation hn
  have howed : ¬ owed + 2 ≤ 1 := by omega
  simp only [piecesFrom, stepByte, hbyte, if_pos (And.intro hlow hhigh), if_neg howed,
    Nat.add_sub_cancel, List.nil_append]
  rfl

theorem piecesFrom_last :
    piecesFrom (some ⟨bytes, value, 1, low, high⟩) (UInt8.ofNat (n + 128) :: bs) =
      .char (Char.ofNat (value * 64 + n)) :: piecesFrom none bs := by
  have hbyte := toNat_continuation hn
  simp only [piecesFrom, stepByte, hbyte, if_pos (And.intro hlow hhigh), Nat.le_refl, if_true,
    Nat.add_sub_cancel, List.singleton_append]

end Owed

theorem piecesFrom_open {b : UInt8} {p : Partial} (h : openByte b = ([], some p)) :
    piecesFrom none (b :: bs) = piecesFrom (some p) bs := by
  rw [piecesFrom, stepByte, h]
  rfl

/-- The bytes of a character are read as the character. -/
theorem piecesFrom_encodeChar (c : Char) :
    piecesFrom none (String.utf8EncodeChar c ++ bs) = .char c :: piecesFrom none bs := by
  have hvalid : c.toNat < 0xD800 ∨ 0xDFFF < c.toNat ∧ c.toNat < 0x110000 := c.valid
  have hchar : Char.ofNat c.toNat = c := Char.ofNat_toNat c
  have hval : c.val.toNat = c.toNat := rfl
  generalize c.toNat = v at hvalid hchar hval
  unfold String.utf8EncodeChar
  simp only [hval]
  split
  next hone =>
    rw [List.singleton_append, piecesFrom, stepByte, openByte_one v (by omega), hchar]
    rfl
  next hone =>
    split
    next htwo =>
      have hsum : v / 64 % 32 * 64 + v % 64 = v := by omega
      rw [List.cons_append, List.singleton_append,
        piecesFrom_open _ (openByte_two (v / 64 % 32) (by omega) (by omega)),
        piecesFrom_last _ (by omega) (by omega) (by omega), hsum, hchar]
    next htwo =>
      split
      next hthree =>
        have hsum : (v / 4096 % 16 * 64 + v / 64 % 64) * 64 + v % 64 = v := by omega
        rw [List.cons_append, List.cons_append, List.singleton_append,
          piecesFrom_open _ (openByte_three (v / 4096 % 16) (by omega)),
          piecesFrom_more _ (by split <;> omega) (by split <;> omega) (by omega),
          piecesFrom_last _ (by omega) (by omega) (by omega), hsum, hchar]
      next hthree =>
        have hsum : ((v / 262144 % 8 * 64 + v / 4096 % 64) * 64 + v / 64 % 64) * 64 + v % 64 = v := by
          omega
        rw [List.cons_append, List.cons_append, List.cons_append, List.singleton_append,
          piecesFrom_open _ (openByte_four (v / 262144 % 8) (by omega)),
          piecesFrom_more _ (by split <;> omega) (by split <;> omega) (by omega),
          piecesFrom_more _ (by omega) (by omega) (by omega),
          piecesFrom_last _ (by omega) (by omega) (by omega), hsum, hchar]

theorem pieces_encodeChars (cs : List Char) : pieces (encodeChars cs) = cs.map .char := by
  induction cs with
  | nil => rfl
  | cons c cs ih =>
    rw [encodeChars, List.flatMap_cons, pieces, piecesFrom_encodeChar, ← encodeChars, ← pieces, ih,
      List.map_cons]

theorem strictChars_chars (position : Nat) (cs : List Char) :
    strictChars position (cs.map .char) = .ok cs := by
  induction cs generalizing position with
  | nil => rfl
  | cons c cs ih =>
    rw [List.map_cons, strictChars, ih]
    rfl

theorem decodeStrict_encode (s : String) : decodeStrict (encode s) = .ok s := by
  rw [decodeStrict, encode, pieces_encodeChars, strictChars_chars]
  exact congrArg Except.ok String.ofList_toList

theorem encode_ne_nil {s : String} (h : s ≠ "") : encode s ≠ [] := by
  intro hnil
  have hdecoded := decodeStrict_encode s
  rw [hnil] at hdecoded
  exact h (Except.ok.inj hdecoded).symm

end Text

namespace Host

theorem unifyLineEnds_of_no_return {cs : List Char} (h : '\r' ∉ cs) : unifyLineEnds cs = cs := by
  fun_induction unifyLineEnds cs with
  | case1 cs ih => exact absurd List.mem_cons_self h
  | case2 c cs hpair ih =>
    rw [List.mem_cons, not_or] at h
    rw [ih h.2, if_neg (Ne.symm h.1)]
  | case3 => rfl

theorem readText_of_encode {h : Host} {path s : String}
    (hbytes : h.readBytes path = .ok (Text.encode s)) (hreturn : '\r' ∉ s.toList) :
    h.readText path = .ok s := by
  rw [readText, hbytes]
  simp only [Text.decodeStrict_encode, unifyLineEnds_of_no_return hreturn, String.ofList_toList]

theorem pathExists_of_readBytes {h : Host} {path : String} {bytes : List UInt8}
    (hbytes : h.readBytes path = .ok bytes) (hne : bytes ≠ []) : h.pathExists path = true := by
  unfold readBytes at hbytes
  unfold pathExists entry?
  split at hbytes
  next => cases hbytes
  next hfault =>
    rw [if_neg (by simp [holdsNul_of_nameFault? hfault])]
    split at hbytes
    next => cases hbytes
    next => cases hbytes
    next names hplace =>
      rw [hplace]
      split at hbytes
      next content mode hfile => simp [hfile]
      next => cases hbytes
      next => exact absurd (Except.ok.inj hbytes).symm hne

end Host
end FileSweep
