import FileSweep.Proofs.ChainControl
import FileSweep.Proofs.RoundTrip
import FileSweep.Proofs.Substitution
import FileSweep.Report

/-! The command in a report. Markers are replaced in the whole line there, and word by word where the
command is run. As no marker reaches from one word of the line into the next, the line is split into
the words that were run: the program, its arguments, and the operator if one ends the step. -/
namespace FileSweep

open Quoting

namespace Outline

theorem tokens_of_plain {o : Outline} (hslots : ∀ h : Handle, (o.slots.slot h).isSet = false)
    (hplain : ∀ w ∈ o.path :: o.arguments, ∀ c ∈ w.toList, isControl c = false) :
    o.tokens = o.path :: o.arguments ++ operatorTokens o.continuation := by
  have hself : ∀ w ∈ o.path :: o.arguments, escapeControls w = w := fun w hw =>
    ParseState.escapeControls_of_plain (hplain w hw)
  have hpath : escapeControls o.path = o.path := hself _ (by simp)
  have harguments : o.arguments.map escapeControls = o.arguments := by
    rw [List.map_congr_left fun w hw => hself w (List.mem_cons_of_mem o.path hw)]
    exact List.map_id' o.arguments
  have hnone : (List.finRange 10).flatMap (slotTokens o.slots) = [] := by
    rw [List.flatMap_eq_nil_iff]
    intro h _
    rw [slotTokens, Redirection.tokens, hslots h]
    rfl
  rw [tokens, hpath, harguments, hnone, List.append_nil]

end Outline

namespace Chain

theorem render_eq_intercalate {os : List Outline} (hos : Spelled os)
    (hlegible : ∀ w ∈ os.flatMap Outline.tokens, Legible w) :
    render ⟨os.map Outline.step⟩ =
      String.intercalate " " ((os.flatMap Outline.tokens).map quoteIfNeeded) := by
  by_cases hne : os = []
  · subst hne
    decide
  · have hline := toList_render hne hos hlegible
    have hwords : (os.flatMap Outline.tokens).map String.toList ≠ [] := by
      obtain ⟨o, rest, rfl⟩ := List.exists_cons_of_ne_nil hne
      simp [Outline.tokens]
    rw [Outline.line, Words.line_eq_intercalate hwords, List.cons.injEq] at hline
    apply String.toList_inj.mp
    rw [hline.2]
    simp [String.toList_intercalate, Function.comp_def, quoteIfNeeded]

/-- A line in which the markers are replaced for a file is split into the words with their markers
replaced, if no word and no name of the file holds a quote and no word leaves a marker open. -/
theorem split_replace_render {os : List Outline} (hos : Spelled os)
    (hwords : ∀ w ∈ os.flatMap Outline.tokens, w ≠ "" ∧ '"' ∉ w.toList ∧ Marker.Closed w) {t : Task}
    (hpath : '"' ∉ t.path.toList) (hrelative : '"' ∉ t.relative.toList) :
    Words.split (Marker.replace t (render ⟨os.map Outline.step⟩)) =
      (os.flatMap Outline.tokens).map (Marker.replace t) := by
  have hlegible : ∀ w ∈ os.flatMap Outline.tokens, Legible w := by
    intro w hw
    obtain ⟨hne, hquote, -⟩ := hwords w hw
    exact ⟨hne, fun hm => absurd hm hquote⟩
  rw [render_eq_intercalate hos hlegible]
  exact Words.split_replace_intercalate hpath hrelative hwords

theorem plain_of_all {words : List String}
    (h : (words.all fun w => w.toList.all fun c => !isControl c) = true) :
    ∀ w ∈ words, ∀ c ∈ w.toList, isControl c = false := by simpa using h

theorem operatorTokens_inert (k : Continuation) : ∀ w ∈ Outline.operatorTokens k,
    (w ≠ "" ∧ '"' ∉ w.toList ∧ Marker.Closed w) ∧ Marker.occurs w = false := by
  cases k <;> decide

/-- The line of a step without redirections, with its markers replaced for a file, is split into the
words of the step with theirs replaced, and its operator. -/
theorem split_replace_step {o : Outline} (hspelled : Spelled [o])
    (hslots : ∀ h : Handle, (o.slots.slot h).isSet = false)
    (hwords : ∀ w ∈ o.path :: o.arguments,
      (∀ c ∈ w.toList, isControl c = false) ∧ '"' ∉ w.toList ∧ Marker.Closed w)
    {t : Task} (hpath : '"' ∉ t.path.toList) (hrelative : '"' ∉ t.relative.toList) :
    Words.split (Marker.replace t (render ⟨[o.step]⟩)) =
      (o.path :: o.arguments).map (Marker.replace t) ++ Outline.operatorTokens o.continuation := by
  have hwell : o.WellFormed := hspelled.wellFormed o (by simp)
  have htokens : [o].flatMap Outline.tokens =
      o.path :: o.arguments ++ Outline.operatorTokens o.continuation := by
    rw [List.flatMap_singleton]
    exact Outline.tokens_of_plain hslots fun w hw => (hwords w hw).1
  have hnonempty : ∀ w ∈ o.path :: o.arguments, w ≠ "" := by
    intro w hw
    rcases List.mem_cons.mp hw with rfl | hw
    · exact hwell.path
    · exact hwell.arguments w hw
  have hline : ∀ w ∈ [o].flatMap Outline.tokens, w ≠ "" ∧ '"' ∉ w.toList ∧ Marker.Closed w := by
    intro w hw
    rw [htokens] at hw
    rcases List.mem_append.mp hw with hw | hw
    · exact ⟨hnonempty w hw, (hwords w hw).2⟩
    · exact (operatorTokens_inert o.continuation w hw).1
  have hoperator : (Outline.operatorTokens o.continuation).map (Marker.replace t) =
      Outline.operatorTokens o.continuation := by
    rw [List.map_congr_left fun w hw =>
      Marker.replace_of_no_marker t (operatorTokens_inert o.continuation w hw).2]
    exact List.map_id' _
  have hsplit := split_replace_render hspelled hline hpath hrelative
  rwa [htokens, List.map_append, hoperator] at hsplit

/-- The command in the report of a file is the command that was run on it. For a command of one step
without redirections, in whose words there is no quote, no control character and no marker left open,
one process is started; and at any time the line in the report of the file is split into the program
of that process and its arguments, and the operator behind the step if there is one. -/
theorem split_fileCommand {words : List String} {o : Outline} (hone : outline words = [o])
    (hslots : ∀ h : Handle, (o.slots.slot h).isSet = false)
    (hwords : ∀ w ∈ o.path :: o.arguments,
      (∀ c ∈ w.toList, isControl c = false) ∧ '"' ∉ w.toList ∧ Marker.Closed w)
    {t : Task} (hpath : '"' ∉ t.path.toList) (hrelative : '"' ∉ t.relative.toList) {s : Settings}
    (hworking : s.workingDirectory = "") {σ : Type} (launcher : Launcher σ)
    (options : ExecutionOptions) (callback : Callback) (w : World σ) :
    let ended := Execution.run launcher (parse words) options callback t w
    ∃ l : Launch, ended.1.launches = w.launches ++ [l] ∧ t.SameFile ended.2.1 ∧
      ∀ u, t.SameFile u → Words.split (Report.fileCommand s (parse words) u) =
        l.path :: l.argv ++ Outline.operatorTokens o.continuation := by
  intro ended
  have hspelled : Spelled [o] := hone ▸ spelled_outline words
  have hwell : o.WellFormed := hspelled.wellFormed o (by simp)
  have hchain : parse words = ⟨[o.step]⟩ := by rw [parse, hone]; rfl
  have harguments : Words.split (Marker.replace t o.step.args) =
      o.arguments.map (Marker.replace t) := by
    apply Words.split_replace_intercalate hpath hrelative
    intro w hw
    exact ⟨hwell.arguments w hw, (hwords w (List.mem_cons_of_mem o.path hw)).2⟩
  have hempty : ∀ h : Handle, o.step.slot h = {} := fun h => (hwell.slots h).eq_default (hslots h)
  obtain ⟨l, hl, hexecutable, hargv⟩ :=
    Execution.launches_run_single launcher options callback t w hempty
  refine ⟨l, ?_, Execution.sameFile_run launcher _ options callback t w, ?_⟩
  · rw [← hchain] at hl
    exact hl
  · intro u hu
    rw [Report.fileCommand, hworking, hchain, hu.replace_eq]
    calc Words.split (Marker.replace t (render ⟨[o.step]⟩))
        = Marker.replace t o.path :: o.arguments.map (Marker.replace t) ++
            Outline.operatorTokens o.continuation :=
          split_replace_step hspelled hslots hwords hpath hrelative
      _ = l.path :: l.argv ++ Outline.operatorTokens o.continuation := by
          rw [hargv, harguments, hexecutable]
          rfl

/-- A path that is quoted and one that is not, a value with blanks, an empty one, and an operator. -/
theorem split_fileCommand_of_marked_words :
    let words := ["my tool", "%DIRUN_FPATH%", "%DIRUN_DPATH_REL%", "-o", "x%dirun_fname%.o", "100%", "&"]
    let t : Task := { path := "/d/my file.txt", relative := "my file.txt", name := "my file.txt" }
    let s : Settings := { rootPath := "/d" }
    let w : World Unit :=
      { host := { root := .dir [], cwd := "/", environment := ⟨[], [], "/"⟩ }, launcher := () }
    let ended := Execution.run (fun _ host s => (.ok {}, host, s)) (parse words) {} .returning t w
    ∃ l : Launch, ended.1.launches = [l] ∧
      Words.split (Report.fileCommand s (parse words) ended.2.1) = l.path :: l.argv ++ ["&"] ∧
      Report.fileCommand s (parse words) t =
        "\"my tool\" \"/d/my file.txt\" \"\" -o \"xmy file.o\" 100% &" := by
  intro words t s w ended
  let o : Outline :=
    { path := "my tool"
      arguments := ["%DIRUN_FPATH%", "%DIRUN_DPATH_REL%", "-o", "x%dirun_fname%.o", "100%"]
      continuation := .always }
  have hone : outline words = [o] := by decide +kernel
  have hplain : ∀ w ∈ o.path :: o.arguments, ∀ c ∈ w.toList, isControl c = false :=
    plain_of_all (by decide +kernel)
  have hclosed : ∀ w ∈ o.path :: o.arguments, '"' ∉ w.toList ∧ Marker.Closed w := by decide +kernel
  have hwords := fun w hw => And.intro (hplain w hw) (hclosed w hw)
  obtain ⟨l, hl, hsame, hsplit⟩ := @split_fileCommand words o hone (by decide) hwords t (by decide)
    (by decide) s rfl Unit (fun _ host s => (.ok {}, host, s)) {} .returning w
  exact ⟨l, hl, hsplit _ hsame, by decide +kernel⟩

/-- An operator behind the only step stands in the report, and is no argument of the process. -/
theorem split_fileCommand_ends_in_operator :
    ¬ ∀ (words : List String) (o : Outline), outline words = [o] →
      (∀ h : Handle, (o.slots.slot h).isSet = false) →
      (∀ w ∈ o.path :: o.arguments,
        w ≠ "" ∧ (∀ c ∈ w.toList, isControl c = false) ∧ '"' ∉ w.toList ∧ Marker.Closed w) →
      ∀ (t : Task) (s : Settings), '"' ∉ t.path.toList → '"' ∉ t.relative.toList →
        s.workingDirectory = "" → ∀ (launcher : Launcher Unit) (w : World Unit),
        ∃ l : Launch,
          (Execution.run launcher (parse words) {} .returning t w).1.launches = w.launches ++ [l] ∧
          Words.split (Report.fileCommand s (parse words) t) = l.path :: l.argv := by
  intro h
  let t : Task := { path := "/d/f", relative := "f", name := "f" }
  let w : World Unit :=
    { host := { root := .dir [], cwd := "/", environment := ⟨[], [], "/"⟩ }, launcher := () }
  have hplain : ∀ w ∈ ["p", "a"], ∀ c ∈ w.toList, isControl c = false :=
    plain_of_all (by decide +kernel)
  have hclosed : ∀ w ∈ ["p", "a"], w ≠ "" ∧ '"' ∉ w.toList ∧ Marker.Closed w := by decide +kernel
  have hwords := fun w hw =>
    And.intro (hclosed w hw).1 (And.intro (hplain w hw) (hclosed w hw).2)
  obtain ⟨l, hl, hsplit⟩ := h ["p", "a", "&"]
    { path := "p", arguments := ["a"], continuation := .always } (by decide +kernel) (by decide)
    hwords t { rootPath := "/d" } (by decide) (by decide) rfl
    (fun _ host s => (.ok {}, host, s)) w
  have hlaunches : (Execution.run (fun _ host s => (.ok {}, host, s)) (parse ["p", "a", "&"]) {}
      .returning t w).1.launches = [{ path := "p", argv := ["a"] }] := by decide +kernel
  have hnone : w.launches = [] := rfl
  rw [hlaunches, hnone, List.nil_append, List.singleton_inj] at hl
  rw [← hl] at hsplit
  exact absurd hsplit (by decide +kernel)

end Chain
end FileSweep
