import FileSweep.Command.Quoting
import FileSweep.Command.Words

/-! Splitting what quoting has written. A text whose quoted runs are closed is read as one
word, so a line of such texts with single blanks between them splits into as many words;
the words are the texts themselves exactly when no text loses a quote. -/
namespace FileSweep
namespace Quoting

/-- The text that a splitter makes of quoted runs: their quotes go, and a doubled quote
inside a run becomes one. -/
def dropRuns : Bool → List Char → List Char
  | true, '"' :: '"' :: cs => '"' :: dropRuns true cs
  | inRun, c :: cs => if c = '"' then dropRuns (!inRun) cs else c :: dropRuns inRun cs
  | _, [] => []

/-- Whether no quoted run is open at the end. -/
def closesRuns : Bool → List Char → Bool
  | inRun, [] => !inRun
  | inRun, c :: cs => closesRuns (if c = '"' then !inRun else inRun) cs

/-- The word that a splitter reads where the given one was written. -/
def reread (cs : List Char) : List Char := if needsQuotes cs then cs else dropRuns false cs

/-- A word that loses no quote: one that holds a quote is written in quotes. -/
def KeepsQuotes (cs : List Char) : Prop := '"' ∈ cs → needsQuotes cs = true

/-- A word that stays one word: it is written in quotes, or closes the runs it opens. -/
def StaysWhole (cs : List Char) : Prop := needsQuotes cs = true ∨ closesRuns false cs = true

instance keepsQuotesDecidable (cs : List Char) : Decidable (KeepsQuotes cs) := by
  unfold KeepsQuotes; infer_instance

instance staysWholeDecidable (cs : List Char) : Decidable (StaysWhole cs) := by
  unfold StaysWhole; infer_instance

@[simp] theorem dropRuns_open (cs : List Char) :
    dropRuns false ('"' :: cs) = dropRuns true cs := by simp [dropRuns]
@[simp] theorem dropRuns_plain {c : Char} (hc : c ≠ '"') (inRun : Bool) (cs : List Char) :
    dropRuns inRun (c :: cs) = c :: dropRuns inRun cs := by
  cases inRun <;> simp [dropRuns, hc]

theorem dropRuns_of_not_mem {cs : List Char} (h : '"' ∉ cs) (inRun : Bool) :
    dropRuns inRun cs = cs := by
  induction cs with
  | nil => simp [dropRuns]
  | cons c cs ih =>
    simp only [List.mem_cons, not_or] at h
    rw [dropRuns_plain (Ne.symm h.1), ih h.2]

theorem doubleQuotes_of_not_mem {cs : List Char} (h : '"' ∉ cs) : doubleQuotes cs = cs := by
  induction cs with
  | nil => rfl
  | cons c cs ih =>
    simp only [List.mem_cons, not_or] at h
    have htail := ih h.2
    rw [doubleQuotes] at htail ⊢
    rw [List.flatMap_cons, if_neg (Ne.symm h.1), htail, List.singleton_append]

theorem closesRuns_of_not_mem {cs : List Char} (h : '"' ∉ cs) : closesRuns false cs = true := by
  induction cs with
  | nil => rfl
  | cons c cs ih =>
    simp only [List.mem_cons, not_or] at h
    rw [closesRuns, if_neg (Ne.symm h.1), ih h.2]

theorem length_dropRuns_le (inRun : Bool) (cs : List Char) :
    (dropRuns inRun cs).length ≤ cs.length := by
  fun_induction dropRuns inRun cs with
  | case1 cs ih => simp only [List.length_cons]; omega
  | case2 inRun cs h ih => simp only [List.length_cons]; omega
  | case3 inRun c cs h hc ih => simp only [List.length_cons]; omega
  | case4 => simp

theorem dropRuns_eq_self_iff (cs : List Char) : dropRuns false cs = cs ↔ '"' ∉ cs := by
  constructor
  · intro h hm
    induction cs with
    | nil => simp at hm
    | cons c cs ih =>
      by_cases hc : c = '"'
      · subst hc
        have hl := congrArg List.length h
        have hle := length_dropRuns_le true cs
        simp only [dropRuns_open, List.length_cons] at hl
        omega
      · rw [dropRuns_plain hc, List.cons.injEq] at h
        exact ih h.2 (by simpa [Ne.symm hc] using hm)
  · exact fun h => dropRuns_of_not_mem h false

theorem reread_eq_self_iff (cs : List Char) : reread cs = cs ↔ KeepsQuotes cs := by
  unfold reread KeepsQuotes
  by_cases hq : needsQuotes cs = true
  · simp [hq]
  · simp [hq, dropRuns_eq_self_iff]

/-- The quotes that come back from a run lag behind those that were written, so what is read of
a text never catches up with the text. -/
theorem not_dropRuns_prefix {c : Char} (hc : c ≠ '"') (k : Nat) (cs : List Char) :
    ¬ dropRuns true cs ++ [c] <+: List.replicate (k + 1) '"' ++ cs := by
  have hhead : ∀ (d : Char) (ds es : List Char), d ≠ '"' →
      ¬ d :: ds <+: List.replicate (k + 1) '"' ++ es := by
    intro d ds es hd h
    rw [List.replicate_succ, List.cons_append, List.cons_prefix_cons] at h
    exact hd h.1
  match cs with
  | [] => exact hhead c [] [] hc
  | [d] =>
    by_cases hd : d = '"'
    · subst hd
      exact hhead c [] ['"'] hc
    · rw [dropRuns_plain hd]
      exact hhead d _ _ hd
  | d :: e :: cs =>
    by_cases hd : d = '"'
    · subst hd
      by_cases he : e = '"'
      · subst he
        have hrest := not_dropRuns_prefix hc (k + 1) cs
        have hquotes : List.replicate (k + 1) '"' ++ '"' :: '"' :: cs =
            '"' :: (List.replicate (k + 1 + 1) '"' ++ cs) := by
          rw [show '"' :: '"' :: cs = List.replicate 2 '"' ++ cs from rfl, ← List.append_assoc,
            List.replicate_append_replicate, ← List.cons_append, ← List.replicate_succ]
        rw [dropRuns, hquotes, List.cons_append, List.cons_prefix_cons]
        exact fun h => hrest h.2
      · have hclosed : dropRuns true ('"' :: e :: cs) = e :: dropRuns false cs := by
          rw [dropRuns, if_pos rfl, Bool.not_true, dropRuns_plain he]
          simpa using he
        rw [hclosed]
        exact hhead e _ _ he
    · rw [dropRuns_plain hd]
      exact hhead d _ _ hd

theorem not_prefix_of_quote {c : Char} (hc : c ≠ '"') {cs : List Char} (hm : '"' ∈ cs) :
    ¬ dropRuns false cs ++ [c] <+: cs := by
  induction cs with
  | nil => simp at hm
  | cons d ds ih =>
    by_cases hd : d = '"'
    · subst hd
      exact not_dropRuns_prefix hc 0 ds
    · rw [dropRuns_plain hd, List.cons_append, List.cons_prefix_cons]
      exact fun h => ih (by simpa [Ne.symm hd] using hm) h.2

theorem KeepsQuotes.staysWhole {cs : List Char} (h : KeepsQuotes cs) : StaysWhole cs := by
  by_cases hm : '"' ∈ cs
  · exact Or.inl (h hm)
  · exact Or.inr (closesRuns_of_not_mem hm)

end Quoting

namespace Words

open Quoting

variable {cs rest : List Char} {c : Char}

@[simp] theorem splitFrom_nil (quoted : Bool) (word : Option (List Char)) :
    splitFrom quoted word [] = word.toList := by
  cases word <;> rw [splitFrom.eq_def] <;> rfl

theorem splitFrom_open (word : Option (List Char)) (rest : List Char) :
    splitFrom false word ('"' :: rest) = splitFrom true (some (word.getD [])) rest := by
  rw [splitFrom.eq_def]
  simp

theorem splitFrom_doubled (word rest : List Char) :
    splitFrom true (some word) ('"' :: '"' :: rest) = splitFrom true (some (word ++ ['"'])) rest := by
  rw [splitFrom.eq_def]; rfl

theorem splitFrom_close (word : List Char) (h : rest.head? ≠ some '"') :
    splitFrom true (some word) ('"' :: rest) = splitFrom false (some word) rest := by
  rw [splitFrom.eq_def]
  cases rest with
  | nil => rfl
  | cons c rest =>
    have hc : c ≠ '"' := by simpa using h
    simp [hc]

theorem splitFrom_plain (quoted : Bool) (word : Option (List Char)) (hc : c ≠ '"')
    (hb : quoted = true ∨ Text.isBlank c = false) (rest : List Char) :
    splitFrom quoted word (c :: rest) = splitFrom quoted (some (word.getD [] ++ [c])) rest := by
  have hb' : (Text.isBlank c && !quoted) = false := by
    rcases hb with hb | hb <;> simp [hb]
  rw [splitFrom.eq_def]
  simp [hc, hb']

theorem splitFrom_blank (word : Option (List Char)) (hb : Text.isBlank c = true)
    (rest : List Char) :
    splitFrom false word (c :: rest) = word.toList ++ splitFrom false none rest := by
  have hc : c ≠ '"' := by rintro rfl; exact absurd hb (by decide)
  rw [splitFrom.eq_def]
  cases word <;> simp [hc, hb]

theorem splitFrom_some (quoted : Bool) (word cs : List Char) :
    ∃ more words, splitFrom quoted (some word) cs = (word ++ more) :: words := by
  generalize hw : some word = begun
  fun_induction splitFrom quoted begun cs generalizing word with
  | case1 => cases hw
  | case2 => cases hw; exact ⟨[], [], by simp⟩
  | case3 begun cs ih =>
    obtain ⟨more, words, h⟩ := ih (word ++ ['"']) (by rw [← hw]; rfl)
    exact ⟨'"' :: more, words, by rw [h]; simp⟩
  | case4 quoted begun cs _ ih =>
    obtain ⟨more, words, h⟩ := ih word (by rw [← hw]; rfl)
    exact ⟨more, words, h⟩
  | case5 => cases hw
  | case6 =>
    cases hw
    exact ⟨[], _, by rw [List.append_nil]⟩
  | case7 quoted begun c cs _ _ _ ih =>
    obtain ⟨more, words, h⟩ := ih (word ++ [c]) (by rw [← hw]; rfl)
    exact ⟨c :: more, words, by rw [h]; simp⟩

/-- A text without blanks outside its runs is read into the word begun, and leaves the last run
open if it does not close it. -/
theorem splitFrom_runs (inRun : Bool) (word cs rest : List Char)
    (hb : blankOutside inRun cs = false) (hrest : rest.head? ≠ some '"') :
    splitFrom inRun (some word) (cs ++ rest) =
      splitFrom (!closesRuns inRun cs) (some (word ++ dropRuns inRun cs)) rest := by
  fun_induction dropRuns inRun cs generalizing word with
  | case1 cs ih =>
    simp only [blankOutside, if_true, Bool.not_true, Bool.not_false] at hb
    rw [List.cons_append, List.cons_append, splitFrom_doubled, ih (word ++ ['"']) hb,
      List.append_assoc, List.singleton_append]
    rfl
  | case2 inRun cs hnot ih =>
    simp only [blankOutside, if_true] at hb
    rw [closesRuns, if_pos rfl]
    cases inRun with
    | false => rw [List.cons_append, splitFrom_open]; exact ih word hb
    | true =>
      have hhead : (cs ++ rest).head? ≠ some '"' := by
        cases cs with
        | nil => simpa using hrest
        | cons c cs =>
          intro h
          have hc : c = '"' := by simpa using h
          exact hnot cs rfl rfl (by rw [hc])
      rw [List.cons_append, splitFrom_close word hhead]
      exact ih word hb
  | case3 inRun c cs hnot hc ih =>
    simp only [blankOutside, if_neg hc, Bool.or_eq_false_iff] at hb
    have hplain : inRun = true ∨ Text.isBlank c = false := by
      cases inRun with
      | false => exact Or.inr (by simpa using hb.1)
      | true => exact Or.inl rfl
    rw [List.cons_append, splitFrom_plain inRun (some word) hc hplain, Option.getD_some,
      ih (word ++ [c]) hb.2, List.append_assoc, List.singleton_append, closesRuns, if_neg hc]
  | case4 => simp [closesRuns]

theorem splitFrom_doubleQuotes (word cs rest : List Char) :
    splitFrom true (some word) (doubleQuotes cs ++ rest) =
      splitFrom true (some (word ++ cs)) rest := by
  induction cs generalizing word with
  | nil => simp [doubleQuotes]
  | cons c cs ih =>
    simp only [doubleQuotes, List.flatMap_cons, List.append_assoc] at ih ⊢
    by_cases hc : c = '"'
    · subst hc
      rw [if_pos rfl, List.cons_append, List.cons_append, List.nil_append, splitFrom_doubled, ih,
        List.append_assoc, List.singleton_append]
    · rw [if_neg hc, List.cons_append, List.nil_append,
        splitFrom_plain true (some word) hc (Or.inl rfl), Option.getD_some, ih, List.append_assoc,
        List.singleton_append]

theorem splitFrom_none_cons (hb : Text.isBlank c = false) (cs : List Char) :
    splitFrom false none (c :: cs) = splitFrom false (some []) (c :: cs) := by
  by_cases hc : c = '"'
  · subst hc; rw [splitFrom_open, splitFrom_open]; rfl
  · rw [splitFrom_plain false none hc (Or.inr hb), splitFrom_plain false (some []) hc (Or.inr hb)]
    rfl

theorem splitFrom_unquoted (rest : List Char) (hne : cs ≠ []) (hq : needsQuotes cs = false)
    (hrest : rest.head? ≠ some '"') :
    splitFrom false none (quoteChars cs ++ rest) =
      splitFrom (!closesRuns false cs) (some (dropRuns false cs)) rest := by
  have hb : blankOutside false cs = false := (Bool.or_eq_false_iff.mp hq).2
  have h := splitFrom_runs false [] cs rest hb hrest
  rw [quoteChars, if_neg (Bool.not_eq_true _ ▸ hq)]
  cases cs with
  | nil => exact absurd rfl hne
  | cons c cs =>
    have hc : Text.isBlank c = false := by
      by_cases hc : c = '"'
      · subst hc; decide
      · simp only [blankOutside, if_neg hc, Bool.or_eq_false_iff] at hb
        simpa using hb.1
    rw [List.cons_append, splitFrom_none_cons hc]
    simpa using h

/-- Whether a text is read as the given word where it stands between blanks. -/
def ReadAs (text word : List Char) : Prop :=
  ∀ rest : List Char, rest.head? ≠ some '"' →
    splitFrom false none (text ++ rest) = splitFrom false (some word) rest

theorem readAs_quoted (cs : List Char) : ReadAs ('"' :: doubleQuotes cs ++ ['"']) cs := by
  intro rest hrest
  rw [List.cons_append, List.cons_append, splitFrom_open, List.append_assoc, Option.getD_none,
    splitFrom_doubleQuotes, List.nil_append, List.cons_append, List.nil_append,
    splitFrom_close cs hrest]

theorem readAs_quoteChars (hne : cs ≠ []) (hw : StaysWhole cs) : ReadAs (quoteChars cs) (reread cs) := by
  by_cases hq : needsQuotes cs = true
  · rw [quoteChars, reread, if_pos hq, if_pos hq]
    exact readAs_quoted cs
  · intro rest hrest
    have hcl : closesRuns false cs = true := hw.resolve_left hq
    rw [splitFrom_unquoted rest hne (by simpa using hq) hrest, reread, if_neg hq, hcl, Bool.not_true]

/-- Words as they are written, a blank before each. -/
def line (ws : List (List Char)) : List Char := ws.flatMap fun w => ' ' :: quoteChars w

@[simp] theorem line_nil : line [] = [] := rfl
@[simp] theorem line_cons (w : List Char) (ws : List (List Char)) :
    line (w :: ws) = ' ' :: (quoteChars w ++ line ws) := rfl
@[simp] theorem line_append (vs ws : List (List Char)) : line (vs ++ ws) = line vs ++ line ws :=
  List.flatMap_append

theorem head_line_ne_quote (ws : List (List Char)) : (line ws).head? ≠ some '"' := by
  cases ws <;> simp

theorem line_eq_intercalate {ws : List (List Char)} (h : ws ≠ []) :
    line ws = ' ' :: [' '].intercalate (ws.map quoteChars) := by
  induction ws with
  | nil => exact absurd rfl h
  | cons w ws ih =>
    cases ws with
    | nil => simp
    | cons v ws =>
      rw [line_cons, ih (by simp)]
      simp [List.intercalate_cons_cons]

theorem splitFrom_texts (word : Option (List Char)) {f g : List Char → List Char}
    {ws : List (List Char)} (hw : ∀ w ∈ ws, ReadAs (f w) (g w)) :
    splitFrom false word (ws.flatMap fun w => ' ' :: f w) = word.toList ++ ws.map g := by
  induction ws generalizing word with
  | nil => simp
  | cons w ws ih =>
    have hhead : (ws.flatMap fun w => ' ' :: f w).head? ≠ some '"' := by
      cases ws <;> simp
    have htail := ih (some (g w)) fun v hv => hw v (List.mem_cons_of_mem w hv)
    rw [List.flatMap_cons, List.cons_append, splitFrom_blank word (by decide),
      hw w (by simp) _ hhead, htail]
    simp

theorem splitFrom_line (word : Option (List Char)) (ws : List (List Char))
    (hw : ∀ w ∈ ws, w ≠ [] ∧ StaysWhole w) :
    splitFrom false word (line ws) = word.toList ++ ws.map reread :=
  splitFrom_texts word fun w hm => readAs_quoteChars (hw w hm).1 (hw w hm).2

theorem splitFrom_some_line (word : List Char) (ws : List (List Char)) :
    ∃ words, splitFrom false (some word) (line ws) = word :: words := by
  cases ws with
  | nil => exact ⟨[], rfl⟩
  | cons w ws => exact ⟨_, by rw [line_cons, splitFrom_blank (some word) (by decide)]; rfl⟩

/-- A word that is read back has stayed whole: one that leaves a run open would take the blank
after it. -/
theorem staysWhole_of_read {w : List Char} {ws : List (List Char)} (hne : w ≠ [])
    (h : splitFrom false none (quoteChars w ++ line ws) = w :: ws) : StaysWhole w := by
  by_cases hwhole : StaysWhole w
  · exact hwhole
  exfalso
  obtain ⟨hq, hcl⟩ : needsQuotes w = false ∧ closesRuns false w = false := by
    simpa [StaysWhole] using hwhole
  have hm : '"' ∈ w := by
    by_cases hm : '"' ∈ w
    · exact hm
    · rw [closesRuns_of_not_mem hm] at hcl
      cases hcl
  rw [splitFrom_unquoted (line ws) hne hq (head_line_ne_quote ws), hcl, Bool.not_false] at h
  cases ws with
  | nil =>
    have hself : dropRuns false w = w := by simpa using h
    exact (dropRuns_eq_self_iff w).mp hself hm
  | cons v ws =>
    have hblank : ' ' ≠ '"' := by decide
    rw [line_cons, splitFrom_plain true _ hblank (Or.inl rfl), Option.getD_some] at h
    obtain ⟨more, words, hread⟩ :=
      splitFrom_some true (dropRuns false w ++ [' ']) (quoteChars v ++ line ws)
    rw [hread, List.cons.injEq] at h
    exact not_prefix_of_quote hblank hm ⟨more, h.1⟩

theorem splitFrom_line_eq_iff (word : Option (List Char)) {ws : List (List Char)}
    (hne : ∀ w ∈ ws, w ≠ []) :
    splitFrom false word (line ws) = word.toList ++ ws ↔ ∀ w ∈ ws, KeepsQuotes w := by
  constructor
  · intro h
    induction ws generalizing word with
    | nil => simp
    | cons w ws ih =>
      have hw : w ≠ [] := hne w (by simp)
      rw [line_cons, splitFrom_blank word (by decide), List.append_cancel_left_eq] at h
      rw [readAs_quoteChars hw (staysWhole_of_read hw h) _ (head_line_ne_quote ws)] at h
      have hself : reread w = w := by
        obtain ⟨words, hread⟩ := splitFrom_some_line (reread w) ws
        rw [hread, List.cons.injEq] at h
        exact h.1
      rw [hself] at h
      have hrest := ih (some w) (fun v hv => hne v (List.mem_cons_of_mem w hv)) h
      intro v hv
      rcases List.mem_cons.mp hv with rfl | hv
      · exact (reread_eq_self_iff v).mp hself
      · exact hrest v hv
  · intro hk
    have hself : ws.map reread = ws := by
      rw [List.map_congr_left (g := id) fun w hw => (reread_eq_self_iff w).mpr (hk w hw), List.map_id]
    rw [splitFrom_line word ws fun w hw => ⟨hne w hw, (hk w hw).staysWhole⟩, hself]

theorem splitChars_intercalate (ws : List (List Char)) :
    splitChars ([' '].intercalate (ws.map quoteChars)) = splitFrom false none (line ws) := by
  cases ws with
  | nil => rfl
  | cons w ws =>
    rw [line_eq_intercalate (by simp), splitFrom_blank none (by decide)]
    rfl

theorem split_intercalate (ws : List String) :
    split (String.intercalate " " (ws.map quoteIfNeeded)) =
      (splitFrom false none (line (ws.map String.toList))).map String.ofList := by
  have htext : (String.intercalate " " (ws.map quoteIfNeeded)).toList =
      [' '].intercalate ((ws.map String.toList).map quoteChars) := by
    simp [String.toList_intercalate, List.map_map, Function.comp_def, quoteIfNeeded]
  rw [split, htext, splitChars_intercalate]

theorem split_intercalate_of_whole {ws : List String}
    (hw : ∀ w ∈ ws, w ≠ "" ∧ StaysWhole w.toList) :
    split (String.intercalate " " (ws.map quoteIfNeeded)) =
      ws.map fun w => String.ofList (reread w.toList) := by
  have hwhole : ∀ cs ∈ ws.map String.toList, cs ≠ [] ∧ StaysWhole cs := by
    intro cs hcs
    obtain ⟨w, hm, rfl⟩ := List.mem_map.mp hcs
    exact ⟨by simpa using (hw w hm).1, (hw w hm).2⟩
  rw [split_intercalate, splitFrom_line none _ hwhole]
  simp [List.map_map, Function.comp_def]

/-- Words come back as they are exactly when none of them loses a quote. -/
theorem split_intercalate_eq_iff {ws : List String} (hne : ∀ w ∈ ws, w ≠ "") :
    split (String.intercalate " " (ws.map quoteIfNeeded)) = ws ↔
      ∀ w ∈ ws, KeepsQuotes w.toList := by
  have hne' : ∀ cs ∈ ws.map String.toList, cs ≠ [] := by
    intro cs hcs
    obtain ⟨w, hm, rfl⟩ := List.mem_map.mp hcs
    simpa using hne w hm
  have htext : ∀ read : List (List Char),
      read.map String.ofList = ws ↔ read = ws.map String.toList := by
    intro read
    constructor
    · rintro rfl
      simp [List.map_map, Function.comp_def]
    · rintro rfl
      simp [List.map_map, Function.comp_def]
  rw [split_intercalate, htext]
  simpa using splitFrom_line_eq_iff none hne'

end Words
end FileSweep
