import FileSweep.Proofs.Launches
import FileSweep.Proofs.Tokens

/-! Arguments given apart, as a process receives them. They are written into one text when
the command is read and split again when the step runs, so an argument arrives as its
written form is read back: with its quotes, or without them where quoting saw no need. -/
namespace FileSweep

open Quoting

namespace Marker

theorem replaceFrom_of_no_marker (value : String → Option String) {cs : List Char}
    (h : occursChars cs = false) : replaceFrom value 0 cs = cs := by
  induction cs with
  | nil => rfl
  | cons c cs ih =>
    simp only [occursChars, Bool.or_eq_false_iff, Option.isSome_eq_false_iff,
      Option.isNone_iff_eq_none] at h
    have hname : nameAt? (c :: cs) = none := by rw [nameAt?, h.1]
    rw [replaceFrom, hname]
    simp only
    rw [ih h.2]

theorem replace_of_no_marker (t : Task) {s : String} (h : occurs s = false) : replace t s = s := by
  rw [replace, replaceFrom_of_no_marker _ h, String.ofList_toList]

end Marker

namespace Words

theorem occursChars_line (ws : List (List Char)) :
    Marker.occursChars (line ws) = ws.any Marker.occursChars := by
  induction ws with
  | nil => rfl
  | cons w ws ih =>
    have hword : Marker.occursChars (quoteChars w ++ line ws) =
        (Marker.occursChars (quoteChars w) || Marker.occursChars (line ws)) := by
      cases ws with
      | nil => simp [Marker.occursChars]
      | cons v ws =>
        rw [line_cons, Marker.occursChars_foreign (by decide),
          Marker.occursChars_foreign_cons (by decide)]
    rw [line_cons, Marker.occursChars_foreign_cons (by decide), hword, occursChars_quoteChars, ih,
      List.any_cons]

theorem occurs_intercalate {ws : List String} (h : ∀ w ∈ ws, Marker.occurs w = false) :
    Marker.occurs (String.intercalate " " (ws.map quoteIfNeeded)) = false := by
  cases ws with
  | nil => rfl
  | cons w ws =>
    have hline := line_eq_intercalate (show (w :: ws).map String.toList ≠ [] by simp)
    have hnone : Marker.occursChars (line ((w :: ws).map String.toList)) = false := by
      rw [occursChars_line, List.any_map, List.any_eq_false]
      intro v hv
      simpa [Marker.occurs] using h v hv
    rw [hline, Marker.occursChars_foreign_cons (by decide)] at hnone
    have htext : (String.intercalate " " ((w :: ws).map quoteIfNeeded)).toList =
        [' '].intercalate (((w :: ws).map String.toList).map quoteChars) := by
      simp [String.toList_intercalate, Function.comp_def, quoteIfNeeded]
    rw [Marker.occurs, htext, hnone]

end Words

namespace Quoting

/-- A word that stands for itself, whatever reads it: no character controls the parser, and no
marker is in it. -/
def IsPlain (a : String) : Prop :=
  (∀ c ∈ a.toList, isControl c = false) ∧ Marker.occurs a = false

instance isPlainDecidable (a : String) : Decidable (IsPlain a) :=
  @instDecidableAnd _ _ (List.decidableBAll (fun c => isControl c = false) a.toList) _

end Quoting

namespace Chain

theorem outline_escaped {exe : String} {args : List String} (hexe : exe ≠ "")
    (hne : ∀ a ∈ args, a ≠ "") :
    outline ((exe :: args).map escapeControls) = [{ path := exe, arguments := args }] := by
  have hpath := @ParseState.addWord_path {} exe rfl hexe
  have hargs := @ParseState.scan_arguments { draft := some { path := exe } } _ rfl rfl args hne
  rw [outline, ParseState.scanAll, List.map_cons, List.foldl_cons,
    ParseState.scanWord_escapeControls, hpath, hargs]
  rfl

/-- Running a command of escaped words starts one process: markers are replaced in its path, and
in the text of its arguments before that is split. -/
theorem launch_of_escaped {σ : Type} (launcher : Launcher σ) (options : ExecutionOptions)
    (callback : Callback) (t : Task) (w : World σ) {exe : String} {args : List String}
    (hexe : exe ≠ "") (hne : ∀ a ∈ args, a ≠ "") :
    ∃ l : Launch,
      (Execution.run launcher (parse ((exe :: args).map escapeControls)) options callback t
        w).1.launches = w.launches ++ [l] ∧
      l.path = Marker.replace t exe ∧
      l.argv = Words.split
        (Marker.replace t (String.intercalate " " (args.map quoteIfNeeded))) := by
  let step := ({ path := exe, arguments := args } : Outline).step
  have hslots : ∀ h : Handle, step.slot h = {} := by
    intro h
    exact Slots.slot_empty h
  rw [parse, outline_escaped hexe hne]
  exact Execution.launches_run_single launcher options callback t w hslots

theorem launch_of_plain {σ : Type} (launcher : Launcher σ) (options : ExecutionOptions)
    (callback : Callback) (t : Task) (w : World σ) {exe : String} {args : List String}
    (hexe : exe ≠ "") (hne : ∀ a ∈ args, a ≠ "")
    (hplain : ∀ a ∈ exe :: args, IsPlain a) :
    ∃ l : Launch,
      (Execution.run launcher (parse (exe :: args)) options callback t w).1.launches =
        w.launches ++ [l] ∧
      l.path = exe ∧
      l.argv = Words.split (String.intercalate " " (args.map quoteIfNeeded)) := by
  have hself : (exe :: args).map escapeControls = exe :: args := by
    have hword : ∀ a ∈ exe :: args, escapeControls a = a := fun a ha =>
      ParseState.escapeControls_of_plain (hplain a ha).1
    rw [List.map_congr_left (g := id) hword, List.map_id]
  have hmarker := Words.occurs_intercalate fun a ha => (hplain a (List.mem_cons_of_mem exe ha)).2
  have hlaunch := launch_of_escaped launcher options callback t w hexe hne
  rwa [hself, Marker.replace_of_no_marker t (hplain exe (by simp)).2,
    Marker.replace_of_no_marker t hmarker] at hlaunch

/-- A command of plain words starts one process. Its arguments arrive unchanged exactly when
none of them loses a quote; and when all of them stay whole, each arrives as it is read back. -/
theorem argv_of_words {σ : Type} (launcher : Launcher σ) (options : ExecutionOptions)
    (callback : Callback) (t : Task) (w : World σ) {exe : String} {args : List String}
    (hexe : exe ≠ "") (hne : ∀ a ∈ args, a ≠ "")
    (hplain : ∀ a ∈ exe :: args, IsPlain a) :
    ∃ l : Launch,
      (Execution.run launcher (parse (exe :: args)) options callback t w).1.launches =
        w.launches ++ [l] ∧
      l.path = exe ∧
      (l.argv = args ↔ ∀ a ∈ args, KeepsQuotes a.toList) ∧
      ((∀ a ∈ args, StaysWhole a.toList) →
        l.argv = args.map fun a => String.ofList (reread a.toList)) := by
  obtain ⟨l, hl, hpath, hargv⟩ := launch_of_plain launcher options callback t w hexe hne hplain
  refine ⟨l, hl, hpath, ?_, ?_⟩
  · rw [hargv]
    exact Words.split_intercalate_eq_iff hne
  · intro hwhole
    rw [hargv]
    exact Words.split_intercalate_of_whole fun a ha => ⟨hne a ha, hwhole a ha⟩

/-- Spaces and quotes arrive where quoting wrapped them; quotes alone are taken for quoting. -/
theorem argv_of_mixed_words :
    ∃ l : Launch,
      (Execution.run (fun _ host s => (.ok {}, host, s))
        (parse ["tool", "a b", "say \"hi\"", "\"x\"", "-v"]) {} .absent
        { path := "/d/f", relative := "f", name := "f" }
        { host := { root := .dir [], cwd := "/", environment := ⟨[], [], "/"⟩ }
          launcher := () }).1.launches = [l] ∧
      l.path = "tool" ∧ l.argv = ["a b", "say \"hi\"", "x", "-v"] := by
  obtain ⟨l, hl, hpath, -, hargv⟩ := argv_of_words (fun _ host s => (.ok {}, host, s)) {} .absent
    { path := "/d/f", relative := "f", name := "f" }
    { host := { root := .dir [], cwd := "/", environment := ⟨[], [], "/"⟩ }, launcher := () }
    (show "tool" ≠ "" by decide)
    (show ∀ a ∈ ["a b", "say \"hi\"", "\"x\"", "-v"], a ≠ "" by decide)
    (by decide)
  exact ⟨l, hl, hpath, (hargv (by decide)).trans (by decide)⟩

/-- An argument of quotes and nothing to protect loses them. -/
theorem argv_loses_closed_quotes :
    ¬ ∀ (launcher : Launcher Unit) (options : ExecutionOptions) (callback : Callback) (t : Task)
      (w : World Unit) (exe : String) (args : List String), exe ≠ "" → (∀ a ∈ args, a ≠ "") →
      (∀ a ∈ exe :: args, IsPlain a) →
      ∃ l ∈ (Execution.run launcher (parse (exe :: args)) options callback t w).1.launches,
        l.path = exe ∧ l.argv = args := by
  intro h
  let launcher : Launcher Unit := fun _ host s => (.ok {}, host, s)
  let t : Task := { path := "/d/f", relative := "f", name := "f" }
  let w : World Unit :=
    { host := { root := .dir [], cwd := "/", environment := ⟨[], [], "/"⟩ }, launcher := () }
  have hne : ∀ a ∈ ["\"x\""], a ≠ "" := by decide
  have hplain : ∀ a ∈ ["p", "\"x\""], IsPlain a := by decide
  obtain ⟨l, hmem, -, hargv⟩ := h launcher {} .absent t w "p" ["\"x\""] (by decide) hne hplain
  obtain ⟨l', hall, -, hsplit⟩ :=
    launch_of_plain launcher {} .absent t w (show "p" ≠ "" by decide) hne hplain
  have heq : l = l' := by
    rw [hall] at hmem
    simpa [w, World.launches] using hmem
  rw [heq, hsplit] at hargv
  exact absurd hargv (by decide)

end Chain
end FileSweep
