import FileSweep.Proofs.Parsing

/-! A chain that was read from a command line is written as a line that reads back as the
same chain. The line is the chain's words with single blanks between them, the splitter
finds exactly these words again, and reading them gives the steps back one by one. -/
namespace FileSweep

open Quoting

namespace Quoting

/-- A word that is read back where it is written: it is not empty and loses no quote. -/
def Legible (t : String) : Prop := t ≠ "" ∧ KeepsQuotes t.toList

instance legibleDecidable (t : String) : Decidable (Legible t) := by
  unfold Legible; infer_instance

theorem Legible.escapeControls {w : String} (h : Legible w) : Legible (escapeControls w) := by
  obtain ⟨hne, hk⟩ := h
  unfold Legible Quoting.escapeControls
  rw [String.toList_ofList]
  refine ⟨?_, hk.escapeChars⟩
  intro he
  have hnil : escapeChars w.toList = [] := by
    have h := congrArg String.toList he
    rwa [String.toList_ofList] at h
  have hw : w.toList ≠ [] := by simpa using hne
  exact escapeChars_ne_nil hw hnil

theorem isBlank_of_blankOutside {cs : List Char} (hm : '"' ∉ cs)
    (hb : blankOutside false cs = false) : ∀ c ∈ cs, Text.isBlank c = false := by
  induction cs with
  | nil => simp
  | cons d ds ih =>
    simp only [List.mem_cons, not_or] at hm
    simp only [blankOutside, if_neg (Ne.symm hm.1), Bool.or_eq_false_iff] at hb
    intro c hc
    rcases List.mem_cons.mp hc with rfl | hc
    · simpa using hb.1
    · exact ih hm.2 hb.2 c hc

theorem quoteChars_end {t : String} (ht : Legible t) :
    ∃ front c, quoteChars t.toList = front ++ [c] ∧ Text.isBlank c = false := by
  obtain ⟨hne, hk⟩ := ht
  have hnil : t.toList ≠ [] := by simpa using hne
  unfold quoteChars
  by_cases hq : needsQuotes t.toList = true
  · exact ⟨'"' :: doubleQuotes t.toList, '"', by rw [if_pos hq], by decide⟩
  · have hq' : needsQuotes t.toList = false := by simpa using hq
    have hb : blankOutside false t.toList = false := (Bool.or_eq_false_iff.mp hq').2
    refine ⟨t.toList.dropLast, t.toList.getLast hnil, ?_, ?_⟩
    · rw [if_neg hq, List.dropLast_concat_getLast hnil]
    · exact isBlank_of_blankOutside (fun hm => hq (hk hm)) hb _ (List.getLast_mem hnil)

end Quoting

namespace Redirection

theorem tokens_legible {r : Redirection} (hr : r.WellFormed) (h : Handle)
    (hquote : ∀ p ∈ r.path, KeepsQuotes p.toList) : ∀ t ∈ r.tokens h, Legible t := by
  intro t ht
  unfold tokens at ht
  split at ht
  next hs =>
    simp only [List.mem_cons, List.not_mem_nil, or_false] at ht
    rcases ht with rfl | rfl
    · have hsource : ∀ (k : Handle) (append : Bool), Legible (sourceToken k append) := by decide
      exact hsource h r.append
    · obtain ⟨target, path, append⟩ := r
      cases target with
      | unset => simp [isSet] at hs
      | handle k =>
        have hduplicate : ∀ k : Handle, Legible ("&" ++ toString k.val) := by decide
        exact hduplicate k
      | file =>
        cases path with
        | none => exact (by decide : Legible discardName)
        | some p =>
          obtain ⟨hne, _⟩ : p ≠ "" ∧ ParseState.isDiscardName p = false := hr p rfl
          exact Legible.escapeControls ⟨hne, hquote p rfl⟩
  next => simp at ht

end Redirection

namespace Outline

/-- The words of a step that the user has chosen: its path, its arguments and the files
that it is connected to. -/
def chosenWords (o : Outline) : List String :=
  o.path :: o.arguments ++ (List.finRange 10).filterMap fun h => (o.slots.slot h).path

def trail (k : Continuation) : List Char := if k = .terminate then [] else [' ']

def line (os : List Outline) : List Char :=
  Words.line ((os.flatMap tokens).map String.toList)

theorem toList_writtenWord (s : String) :
    (writtenWord s).toList = quoteChars (escapeControls s).toList := by
  rw [writtenWord, quoteIfNeeded, String.toList_ofList]

theorem quoteChars_sourceToken (h : Handle) (append : Bool) :
    quoteChars (sourceToken h append).toList = (sourceToken h append).toList := by
  revert h append; decide

theorem quoteChars_duplicate (h : Handle) :
    quoteChars ("&" ++ toString h.val).toList = ("&" ++ toString h.val).toList := by
  revert h; decide

theorem quoteChars_targetToken (r : Redirection) :
    quoteChars r.targetToken.toList = r.writtenTarget.toList := by
  obtain ⟨target, path, append⟩ := r
  cases target with
  | unset => exact (by decide : quoteChars "".toList = "".toList)
  | handle h => exact quoteChars_duplicate h
  | file =>
    cases path with
    | none => exact (by decide : quoteChars discardName.toList = discardName.toList)
    | some p => exact (toList_writtenWord p).symm

theorem toList_writtenSlot (r : Redirection) (h : Handle) :
    (r.written h).toList = Words.line ((r.tokens h).map String.toList) := by
  unfold Redirection.written Redirection.tokens
  by_cases hs : r.isSet = true
  · rw [if_pos hs, if_pos hs]
    simp only [List.map_cons, List.map_nil, Words.line_cons, Words.line_nil,
      quoteChars_sourceToken, quoteChars_targetToken, List.append_nil]
    by_cases hin : h = Handle.input
    · subst hin; simp [sourceToken]
    · simp [sourceToken, hin]
  · rw [if_neg hs, if_neg hs]; rfl

theorem args_ne_empty {ws : List String} (hne : ws ≠ []) (hw : ∀ w ∈ ws, w ≠ "") :
    String.intercalate " " (ws.map quoteIfNeeded) ≠ "" := by
  intro h
  cases ws with
  | nil => exact hne rfl
  | cons w ws =>
    have hchars := congrArg String.toList h
    have hquoted : quoteChars w.toList ≠ [] := by
      have hw' : w.toList ≠ [] := by simpa using hw w (by simp)
      unfold quoteChars
      split
      · simp
      · exact hw'
    cases ws with
    | nil => simp [quoteIfNeeded, hquoted] at hchars
    | cons v ws => simp [String.toList_intercalate] at hchars

theorem toList_writtenArgs {ws : List String} (hw : ∀ w ∈ ws, w ≠ "") :
    (if (String.intercalate " " (ws.map quoteIfNeeded)).isEmpty then ""
      else " " ++ escapeControls (String.intercalate " " (ws.map quoteIfNeeded))).toList =
      Words.line ((ws.map escapeControls).map String.toList) := by
  by_cases hne : ws = []
  · subst hne; rfl
  · have hargs := args_ne_empty hne hw
    rw [if_neg (by simpa using hargs)]
    have hescape : ∀ vs : List (List Char), escapeChars ([' '].intercalate (vs.map quoteChars)) =
        [' '].intercalate ((vs.map escapeChars).map quoteChars) := by
      intro vs
      induction vs with
      | nil => rfl
      | cons v vs ih =>
        cases vs with
        | nil => simp [escapeChars_quoteChars]
        | cons u us =>
          simp only [List.map_cons, List.intercalate_cons_cons] at ih ⊢
          rw [← ih]
          simp only [escapeChars, List.flatMap_append]
          rw [← escapeChars, ← escapeChars, escapeChars_quoteChars]
          rfl
    have h := hescape (ws.map String.toList)
    rw [Words.line_eq_intercalate (by simpa using hne)]
    simp only [List.map_map] at h ⊢
    simpa [String.toList_intercalate, List.map_map, Function.comp_def, escapeControls,
      quoteIfNeeded] using h

theorem toList_writtenOperator (k : Continuation) :
    (if k = .terminate then "" else " " ++ k.symbol ++ " ").toList =
      Words.line ((operatorTokens k).map String.toList) ++ trail k := by
  cases k <;> decide

theorem toList_written {o : Outline} (ho : o.WellFormed) :
    ' ' :: o.step.written.toList =
      Words.line (o.tokens.map String.toList) ++ trail o.continuation := by
  have hslots : (String.join ((List.finRange 10).map fun h => (o.step.slot h).written h)).toList =
      Words.line (((List.finRange 10).flatMap (slotTokens o.slots)).map String.toList) := by
    rw [String.toList_join]
    generalize List.finRange 10 = hs
    induction hs with
    | nil => rfl
    | cons h hs ih =>
      rw [List.map_cons, List.flatMap_cons, ih, toList_writtenSlot, List.flatMap_cons,
        List.map_append, Words.line_append]
      rfl
  have hargs := toList_writtenArgs ho.arguments
  have hoperator := toList_writtenOperator o.continuation
  simp only [Step.written, String.toList_append, hslots]
  rw [show o.step.args = String.intercalate " " (o.arguments.map quoteIfNeeded) from rfl,
    show o.step.continuation = o.continuation from rfl,
    show o.step.path = o.path from rfl, hargs, hoperator, toList_writtenWord]
  simp only [tokens, List.cons_append, List.map_cons, List.map_append, Words.line_cons,
    Words.line_append, List.append_assoc]

theorem toList_written_all {os : List Outline} (hne : os ≠ []) (hos : Chain.Spelled os) :
    ∃ k, ' ' :: (String.join ((os.map step).map Step.written)).toList = line os ++ trail k := by
  induction os with
  | nil => exact absurd rfl hne
  | cons o os ih =>
    have hfirst := toList_written (hos.wellFormed o (by simp))
    have hcons : ' ' :: (String.join (((o :: os).map step).map Step.written)).toList =
        Words.line (o.tokens.map String.toList) ++ trail o.continuation ++
          (String.join ((os.map step).map Step.written)).toList := by
      rw [← hfirst]
      simp [String.toList_join]
    have hline : line (o :: os) = Words.line (o.tokens.map String.toList) ++ line os := by
      simp [line]
    cases os with
    | nil =>
      refine ⟨o.continuation, ?_⟩
      rw [hcons, hline]
      simp [line]
    | cons p os =>
      have hoperator : o.continuation ≠ .terminate := hos.operator o (by simp)
      obtain ⟨k, htail⟩ := ih (by simp) hos.tail
      refine ⟨k, ?_⟩
      rw [hcons, hline, trail, if_neg hoperator, List.append_assoc, List.singleton_append, htail,
        List.append_assoc]

theorem tokens_legible {o : Outline} (ho : o.WellFormed)
    (hquote : ∀ w ∈ o.chosenWords, KeepsQuotes w.toList) : ∀ t ∈ o.tokens, Legible t := by
  intro t ht
  simp only [tokens, List.mem_append, List.mem_cons, List.mem_map, List.mem_flatMap] at ht
  rcases ht with ((rfl | ⟨w, hw, rfl⟩) | ⟨h, _, ht⟩) | ht
  · exact Legible.escapeControls ⟨ho.path, hquote o.path (by simp [chosenWords])⟩
  · exact Legible.escapeControls ⟨ho.arguments w hw, hquote w (by simp [chosenWords, hw])⟩
  · refine Redirection.tokens_legible (ho.slots h) h ?_ t ht
    intro p hp
    apply hquote p
    simp only [chosenWords, List.cons_append, List.mem_cons, List.mem_append, List.mem_filterMap]
    exact Or.inr (Or.inr ⟨h, List.mem_finRange h, hp⟩)
  · have hoperator : ∀ k, k ∈ Continuation.all → ∀ t ∈ operatorTokens k, Legible t := by decide
    refine hoperator o.continuation ?_ t ht
    cases o.continuation <;> decide

theorem trimEndChars_trail {front : List Char} {c : Char} (hc : Text.isBlank c = false)
    (k : Continuation) :
    Text.trimEndChars (front ++ [c] ++ trail k) = front ++ [c] := by
  have hblank : Text.isBlank ' ' = true := by decide
  cases k <;> simp [trail, Text.trimEndChars, hc, hblank]

end Outline

namespace Chain

/-- The written chain with a blank before it is the line of its words: what trimming takes
off is the blank after a last operator. -/
theorem toList_render {os : List Outline} (hne : os ≠ []) (hos : Spelled os)
    (hk : ∀ t ∈ os.flatMap Outline.tokens, Legible t) :
    ' ' :: (render ⟨os.map Outline.step⟩).toList = Outline.line os := by
  obtain ⟨k, hwritten⟩ := Outline.toList_written_all hne hos
  have hend : ∀ ts : List String, ts ≠ [] → (∀ t ∈ ts, Legible t) →
      ∃ front c, Words.line (ts.map String.toList) = ' ' :: (front ++ [c]) ∧
        Text.isBlank c = false := by
    intro ts hts hkeep
    induction ts with
    | nil => exact absurd rfl hts
    | cons t ts ih =>
      cases ts with
      | nil =>
        obtain ⟨front, c, hfront, hc⟩ := quoteChars_end (hkeep t (by simp))
        exact ⟨front, c, by simp [hfront], hc⟩
      | cons u us =>
        obtain ⟨front, c, hfront, hc⟩ := ih (by simp) fun v hv => hkeep v (List.mem_cons_of_mem t hv)
        refine ⟨quoteChars t.toList ++ ' ' :: front, c, ?_, hc⟩
        rw [List.map_cons, Words.line_cons, hfront]
        simp
  have htokens : os.flatMap Outline.tokens ≠ [] := by
    cases os with
    | nil => exact absurd rfl hne
    | cons o os => simp [Outline.tokens]
  obtain ⟨front, c, hline, hc⟩ := hend _ htokens hk
  have hjoin : (String.join ((os.map Outline.step).map Step.written)).toList =
      front ++ [c] ++ Outline.trail k := by
    rw [Outline.line, hline, List.cons_append, List.cons.injEq] at hwritten
    exact hwritten.2
  rw [Outline.line, hline, render, Text.trimEnd, String.toList_ofList, hjoin,
    Outline.trimEndChars_trail hc]

theorem split_render {os : List Outline} (hos : Spelled os)
    (hk : ∀ t ∈ os.flatMap Outline.tokens, Legible t) :
    Words.split (render ⟨os.map Outline.step⟩) = os.flatMap Outline.tokens := by
  by_cases hne : os = []
  · subst hne; decide
  · have hrender := toList_render hne hos hk
    have hline := Words.splitFrom_line none ((os.flatMap Outline.tokens).map String.toList) (by
      intro w hw
      obtain ⟨t, ht, rfl⟩ := List.mem_map.mp hw
      exact ⟨by simpa using (hk t ht).1, (hk t ht).2.staysWhole⟩)
    rw [← Outline.line, ← hrender, Words.splitFrom_blank none (by decide)] at hline
    have hreread : ((os.flatMap Outline.tokens).map String.toList).map reread =
        (os.flatMap Outline.tokens).map String.toList := by
      rw [List.map_map]
      apply List.map_congr_left
      intro t ht
      exact (reread_eq_self_iff t.toList).mpr (hk t ht).2
    rw [Words.split, Words.splitChars]
    simp only [Option.toList_none, List.nil_append, hreread] at hline
    rw [hline]
    simp [List.map_map, Function.comp_def]

theorem scan_tokens {os : List Outline} (hos : Spelled os)
    (hin : ∀ o ∈ os, (o.slots.slot Handle.input).append = false) (steps : List Outline) :
    (((os.flatMap Outline.tokens).foldl ParseState.scanWord { steps }).endStep .terminate).steps =
      steps ++ os := by
  induction os generalizing steps with
  | nil => simp [ParseState.endStep]
  | cons o os ih =>
    have hstep := ParseState.scan_step (hos.wellFormed o (by simp)) (hin o (by simp)) steps
    rw [List.flatMap_cons, List.foldl_append, hstep]
    by_cases hk : o.continuation = .terminate
    · have hlast : os = [] := by
        cases os with
        | nil => rfl
        | cons p os => exact absurd hk (hos.operator o (by simp))
      subst hlast
      rw [Outline.operatorTokens, if_pos hk]
      simp [ParseState.begun, ParseState.endStep, ← hk]
    · have hrest : ∀ q ∈ os, (q.slots.slot Handle.input).append = false := fun q hq =>
        hin q (List.mem_cons_of_mem o hq)
      have htail := ih hos.tail hrest (steps ++ [o])
      rw [Outline.operatorTokens, if_neg hk, List.foldl_cons, List.foldl_nil,
        ParseState.scanWord_operator _ hk]
      simpa [ParseState.begun, ParseState.endStep] using htail

/-- Reading undoes writing on every chain that reading gives, as long as no redirection of
the input appends, which a written line cannot say, and every chosen word that holds a quote
is written in quotes. -/
theorem parseLine_render (words : List String)
    (hin : ∀ s ∈ (parse words).steps, (s.slot Handle.input).append = false)
    (hquote : ∀ o ∈ outline words, ∀ w ∈ o.chosenWords, KeepsQuotes w.toList) :
    parseLine (render (parse words)) = parse words := by
  have hos := spelled_outline words
  have hk : ∀ t ∈ (outline words).flatMap Outline.tokens, Legible t := by
    intro t ht
    obtain ⟨o, ho, hto⟩ := List.mem_flatMap.mp ht
    exact Outline.tokens_legible (hos.wellFormed o ho) (hquote o ho) t hto
  have hslots : ∀ o ∈ outline words, (o.slots.slot Handle.input).append = false := by
    intro o ho
    exact hin o.step (List.mem_map.mpr ⟨o, ho, rfl⟩)
  have houtline : outline ((outline words).flatMap Outline.tokens) = outline words := by
    have h := scan_tokens hos hslots []
    simpa [outline, ParseState.scanAll] using h
  have hsplit := split_render hos hk
  unfold parseLine
  rw [show parse words = ⟨(outline words).map Outline.step⟩ from rfl, hsplit, parse, houtline]

/-- A command with carets, quotes, markers, a duplicated handle and an operator at its end. -/
theorem parseLine_render_of_mixed_words :
    let words := ["a \"b\"", "x^>y^", "^&&1", "%dirun_FPATH%", "2>>", "o \"u\" t", "3>&2", "0>nul", "||",
      "c", "<in>2", "2", "&"]
    (∀ s ∈ (parse words).steps, (s.slot Handle.input).append = false) ∧
      (∀ o ∈ outline words, ∀ w ∈ o.chosenWords, KeepsQuotes w.toList) ∧
      parseLine (render (parse words)) = parse words :=
  ⟨by decide +kernel, by decide +kernel, parseLine_render _ (by decide +kernel) (by decide +kernel)⟩

end Chain
end FileSweep
