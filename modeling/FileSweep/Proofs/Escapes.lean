import FileSweep.Command.Parser
import FileSweep.Proofs.Words

/-! Escaping and quoting go together: neither adds nor removes a marker, so each can be
done first. An escaped word is read back as that word, whatever characters it holds. -/
namespace FileSweep
namespace Marker

/-- A character that no marker's opening holds. -/
def IsForeign (c : Char) : Prop := ∀ letter ∈ opening, Text.matchesLetter letter c = false

instance isForeignDecidable (c : Char) : Decidable (IsForeign c) :=
  List.decidableBAll (fun letter => Text.matchesLetter letter c = false) opening

theorem afterLetters?_foreign {c : Char} (letters : List Char)
    (hc : ∀ letter ∈ letters, Text.matchesLetter letter c = false) (cs rest : List Char) :
    afterLetters? letters (cs ++ c :: rest) =
      (afterLetters? letters cs).map fun after => after ++ c :: rest := by
  induction letters generalizing cs with
  | nil => rfl
  | cons letter letters ih =>
    cases cs with
    | nil => simp [afterLetters?, hc letter (by simp)]
    | cons d ds =>
      have htail := ih (fun l hl => hc l (List.mem_cons_of_mem letter hl)) ds
      by_cases hd : Text.matchesLetter letter d = true
      · simpa [afterLetters?, hd] using htail
      · simp [afterLetters?, hd]

theorem afterOpening?_foreign_cons {c : Char} (hc : IsForeign c) (rest : List Char) :
    afterOpening? (c :: rest) = none :=
  afterLetters?_foreign opening hc [] rest

theorem occursChars_foreign {c : Char} (hc : IsForeign c) (cs rest : List Char) :
    occursChars (cs ++ c :: rest) = (occursChars cs || occursChars rest) := by
  induction cs with
  | nil => simp [occursChars, afterOpening?_foreign_cons hc]
  | cons d ds ih =>
    have h : (afterOpening? (d :: ds ++ c :: rest)).isSome = (afterOpening? (d :: ds)).isSome := by
      rw [afterOpening?, afterLetters?_foreign opening hc (d :: ds) rest, Option.isSome_map]
      rfl
    simp only [List.cons_append] at h ⊢
    simp only [occursChars, h, ih, Bool.or_assoc]

theorem occursChars_foreign_cons {c : Char} (hc : IsForeign c) (rest : List Char) :
    occursChars (c :: rest) = occursChars rest := by
  simpa [occursChars] using occursChars_foreign hc [] rest

theorem afterLetters?_flatMap (f : Char → List Char)
    (hf : ∀ c, f c = [c] ∨ IsForeign c ∧ ∃ d ds, f c = d :: ds ∧ IsForeign d)
    {letters : List Char} (hl : letters ⊆ opening) (cs : List Char) :
    afterLetters? letters (cs.flatMap f) =
      (afterLetters? letters cs).map fun after => after.flatMap f := by
  induction letters generalizing cs with
  | nil => rfl
  | cons letter letters ih =>
    have hletter : letter ∈ opening := hl (by simp)
    have htail := ih (fun l hm => hl (List.mem_cons_of_mem letter hm))
    cases cs with
    | nil => rfl
    | cons c cs =>
      rcases hf c with h | ⟨hc, d, ds, h, hd⟩
      · by_cases hm : Text.matchesLetter letter c = true
        · simpa [afterLetters?, h, hm] using htail cs
        · simp [afterLetters?, h, hm]
      · simp [afterLetters?, h, hc letter hletter, hd letter hletter]

/-- Putting foreign characters in the place of foreign ones changes no marker. -/
theorem occursChars_flatMap (f : Char → List Char)
    (hf : ∀ c, f c = [c] ∨ IsForeign c ∧ f c ≠ [] ∧ ∀ d ∈ f c, IsForeign d) (cs : List Char) :
    occursChars (cs.flatMap f) = occursChars cs := by
  have hf' : ∀ c, f c = [c] ∨ IsForeign c ∧ ∃ d ds, f c = d :: ds ∧ IsForeign d := by
    intro c
    rcases hf c with h | ⟨hc, hne, hall⟩
    · exact Or.inl h
    · obtain ⟨d, ds, h⟩ := List.exists_cons_of_ne_nil hne
      exact Or.inr ⟨hc, d, ds, h, hall d (by simp [h])⟩
  have hskip : ∀ ds rest : List Char, (∀ d ∈ ds, IsForeign d) →
      occursChars (ds ++ rest) = occursChars rest := by
    intro ds rest hds
    induction ds with
    | nil => rfl
    | cons d ds ih =>
      rw [List.cons_append, occursChars_foreign_cons (hds d (by simp)),
        ih fun e he => hds e (List.mem_cons_of_mem d he)]
  induction cs with
  | nil => rfl
  | cons c cs ih =>
    rcases hf c with h | ⟨hc, _, hall⟩
    · have hopen := afterLetters?_flatMap f hf' (fun _ hm => hm : opening ⊆ opening) (c :: cs)
      rw [List.flatMap_cons, h, List.singleton_append] at hopen ⊢
      simp only [occursChars, afterOpening?, hopen, Option.isSome_map, ih]
    · rw [List.flatMap_cons, hskip _ _ hall, occursChars_foreign_cons hc, ih]

end Marker

namespace Quoting

open Marker

theorem isForeign_of_isControl {c : Char} (hc : isControl c = true) : IsForeign c := by
  simp only [isControl, Bool.or_eq_true, beq_iff_eq] at hc
  rcases hc with ((rfl | rfl) | rfl) | rfl <;> decide

theorem not_isControl_quote : isControl '"' = false := by decide

theorem escapeChars_control {c : Char} (hc : isControl c = true) (cs : List Char) :
    escapeChars (c :: cs) = '^' :: c :: escapeChars cs := by
  simp [escapeChars, hc]

theorem escapeChars_plain {c : Char} (hc : isControl c = false) (cs : List Char) :
    escapeChars (c :: cs) = c :: escapeChars cs := by
  simp [escapeChars, hc]

theorem escapeChars_append (cs ds : List Char) :
    escapeChars (cs ++ ds) = escapeChars cs ++ escapeChars ds :=
  List.flatMap_append

theorem escapeChars_of_plain {cs : List Char} (h : ∀ c ∈ cs, isControl c = false) :
    escapeChars cs = cs := by
  induction cs with
  | nil => rfl
  | cons c cs ih =>
    rw [escapeChars_plain (h c (by simp)), ih fun d hd => h d (List.mem_cons_of_mem c hd)]

theorem occursChars_escapeChars (cs : List Char) :
    occursChars (escapeChars cs) = occursChars cs := by
  apply occursChars_flatMap
  intro c
  by_cases hc : isControl c = true
  · refine Or.inr ⟨isForeign_of_isControl hc, by simp [hc], ?_⟩
    intro d hd
    simp only [hc, if_true, List.mem_cons, List.not_mem_nil, or_false] at hd
    rcases hd with rfl | rfl
    · decide
    · exact isForeign_of_isControl hc
  · exact Or.inl (by simp [hc])

theorem afterOpening?_escapeChars (cs : List Char) :
    afterOpening? (escapeChars cs) = (afterOpening? cs).map escapeChars := by
  refine afterLetters?_flatMap _ (fun c => ?_) (fun _ hm => hm) cs
  by_cases hc : isControl c = true
  · exact Or.inr ⟨isForeign_of_isControl hc, '^', [c], by simp [hc], by decide⟩
  · exact Or.inl (by simp [hc])

theorem occursChars_doubleQuotes (cs : List Char) :
    occursChars (doubleQuotes cs) = occursChars cs := by
  apply occursChars_flatMap
  intro c
  by_cases hc : c = '"'
  · subst hc
    refine Or.inr ⟨by decide, by decide, ?_⟩
    intro d hd
    obtain rfl : d = '"' := by simpa using hd
    decide
  · exact Or.inl (by simp [hc])

theorem occursChars_quoteChars (cs : List Char) : occursChars (quoteChars cs) = occursChars cs := by
  unfold quoteChars
  split
  · rw [List.cons_append, occursChars_foreign_cons (by decide),
      occursChars_foreign (by decide) (doubleQuotes cs) [], occursChars_doubleQuotes]
    simp [occursChars]
  · rfl

theorem blankOutside_escapeChars (inRun : Bool) (cs : List Char) :
    blankOutside inRun (escapeChars cs) = blankOutside inRun cs := by
  induction cs generalizing inRun with
  | nil => rfl
  | cons c cs ih =>
    simp only [escapeChars, List.flatMap_cons] at ih ⊢
    by_cases hc : isControl c = true
    · have hq : c ≠ '"' := by rintro rfl; exact absurd hc (by decide)
      have hcaret : Text.isBlank '^' = false := by decide
      simp [hc, blankOutside, hq, ih, hcaret]
    · by_cases hq : c = '"'
      · subst hq; simp [hc, blankOutside, ih]
      · simp [hc, blankOutside, hq, ih]

theorem needsQuotes_escapeChars (cs : List Char) :
    needsQuotes (escapeChars cs) = needsQuotes cs := by
  rw [needsQuotes, needsQuotes, occursChars_escapeChars, blankOutside_escapeChars]

theorem mem_escapeChars {x : Char} (hcaret : x ≠ '^') {cs : List Char} :
    x ∈ escapeChars cs ↔ x ∈ cs := by
  have hsame : ∀ c, x ∈ (if isControl c then ['^', c] else [c]) ↔ x = c := by
    intro c
    split
    · simp [hcaret]
    · simp
  simp [escapeChars, List.mem_flatMap, hsame]

theorem escapeChars_doubleQuotes (cs : List Char) :
    escapeChars (doubleQuotes cs) = doubleQuotes (escapeChars cs) := by
  simp only [escapeChars, doubleQuotes, List.flatMap_assoc]
  congr 1
  funext c
  by_cases hq : c = '"'
  · subst hq; decide
  · by_cases hc : isControl c = true <;> simp [hq, hc]

theorem escapeChars_quoteChars (cs : List Char) :
    escapeChars (quoteChars cs) = quoteChars (escapeChars cs) := by
  simp only [quoteChars, needsQuotes_escapeChars]
  split
  · rw [← escapeChars_doubleQuotes]
    simp [escapeChars, not_isControl_quote]
  · rfl

theorem escapeChars_ne_nil {cs : List Char} (h : cs ≠ []) : escapeChars cs ≠ [] := by
  cases cs with
  | nil => exact absurd rfl h
  | cons c cs =>
    by_cases hc : isControl c = true <;> simp [escapeChars, hc]

theorem KeepsQuotes.escapeChars {cs : List Char} (h : KeepsQuotes cs) :
    KeepsQuotes (escapeChars cs) := by
  intro hm
  rw [needsQuotes_escapeChars]
  exact h ((mem_escapeChars (by decide)).mp hm)

end Quoting

namespace ParseState

open Quoting

@[simp] theorem push_text (w : WordPlace) (c : Char) : (w.push c).text = w.text ++ [c] := rfl
@[simp] theorem pushEscaped_text (w : WordPlace) (c : Char) :
    (w.pushEscaped c).text = w.text ++ [c] := rfl
@[simp] theorem addWord_nil (st : ParseState) : st.addWord [] = st := rfl

theorem read_plain (st : ParseState) (w : WordPlace) {c : Char} (rest : List Char)
    (hc : isControl c = false) (hcaret : c = '^' → ∀ d, rest.head? = some d → isControl d = false) :
    st.read w c rest = ⟨0, w.push c, st⟩ := by
  by_cases h : c = '^'
  · subst h
    cases rest with
    | nil => simp [read]
    | cons d ds => simp [read, hcaret rfl d rfl]
  · simp only [isControl, Bool.or_eq_false_iff, beq_eq_false_iff_ne] at hc
    simp [read, h, hc]

theorem read_escaped (st : ParseState) (w : WordPlace) {c : Char} (hc : isControl c = true)
    (rest : List Char) : st.read w '^' (c :: rest) = ⟨1, w.pushEscaped c, st⟩ := by
  simp [read, hc]

theorem head_escapeChars {cs : List Char} {d : Char} (h : (escapeChars cs).head? = some d) :
    isControl d = false := by
  cases cs with
  | nil => simp [escapeChars] at h
  | cons c cs =>
    by_cases hc : isControl c = true
    · have hd : '^' = d := by simpa [escapeChars, hc] using h
      subst hd; decide
    · have hd : c = d := by simpa [escapeChars, hc] using h
      subst hd; simpa using hc

/-- An escaped text is read as the text: no operator is seen in it, and no handle. -/
theorem scanFrom_escapeChars (cs : List Char) (w : WordPlace) (st : ParseState) :
    scanFrom 0 (escapeChars cs) w st = st.addWord (w.text ++ cs) := by
  induction cs generalizing w with
  | nil => simp [escapeChars, scanFrom]
  | cons c cs ih =>
    by_cases hc : isControl c = true
    · rw [escapeChars_control hc, scanFrom, read_escaped st w hc]
      simp only [scanFrom]
      rw [ih, pushEscaped_text, List.append_assoc, List.singleton_append]
    · have hplain : isControl c = false := by simpa using hc
      have hread := read_plain st w (escapeChars cs) hplain fun _ _ h => head_escapeChars h
      rw [escapeChars_plain hplain, scanFrom, hread]
      simp only
      rw [ih, push_text, List.append_assoc, List.singleton_append]

theorem scanWord_escapeControls (st : ParseState) (word : String) :
    st.scanWord (escapeControls word) = st.addWord word.toList := by
  rw [scanWord, escapeControls, String.toList_ofList, scanFrom_escapeChars]
  rfl

theorem escapeControls_of_plain {word : String} (h : ∀ c ∈ word.toList, isControl c = false) :
    escapeControls word = word := by
  rw [escapeControls, escapeChars_of_plain h, String.ofList_toList]

end ParseState
end FileSweep
