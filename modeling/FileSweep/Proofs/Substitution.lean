import FileSweep.Proofs.Arguments
import Mathlib.Data.List.TakeWhile

/-! Replacing markers goes together with splitting. The markers in the arguments of a step are
replaced in one text, and only then is the text split. But a marker that is complete in its
word reaches across no blank and no quote, and a value without quotes stays within the quotes
of its word: so each argument arrives as if its markers had been replaced in it alone. -/
namespace FileSweep

open Quoting

namespace Variable

theorem mem_value {t : Task} {v : Variable} {c : Char} (h : c ∈ (v.value t).toList) :
    c ∈ t.path.toList ∨ c ∈ t.relative.toList := by
  have hbase : ∀ p : List Char, Path.baseChars p ⊆ p := fun p d hd => by
    rw [← Path.headChars_append_baseChars p]
    exact List.mem_append_right _ hd
  have hsplit : ∀ p : List Char, (Path.splitExtensionChars p).1 ⊆ p ∧
      (Path.splitExtensionChars p).2 ⊆ p := by
    intro p
    have happend := Path.splitExtensionChars_append p
    exact ⟨fun d hd => happend ▸ List.mem_append_left _ hd,
      fun d hd => happend ▸ List.mem_append_right _ hd⟩
  cases v with
  | stem =>
    rw [value, Path.stem, String.toList_ofList] at h
    exact Or.inl (hbase _ ((hsplit _).1 h))
  | extension =>
    rw [value, Path.extension, String.toList_ofList] at h
    exact Or.inl ((hsplit _).2 (List.mem_of_mem_drop h))
  | path => exact Or.inl h
  | directory =>
    rw [value, Path.dir, String.toList_ofList] at h
    exact Or.inl ((Path.isPrefix_dirChars _).subset h)
  | relativePath => exact Or.inr h
  | relativeDirectory =>
    rw [value, Path.dir, String.toList_ofList] at h
    exact Or.inr ((Path.isPrefix_dirChars _).subset h)

end Variable

namespace Marker

variable {value : String → Option String} {c : Char}

/-- The text after the last complete marker, if there is a marker. The first `skip` characters
are already dealt with. -/
def afterLastFrom? : Nat → List Char → Option (List Char)
  | _, [] => none
  | skip + 1, _ :: cs => afterLastFrom? skip cs
  | 0, c :: cs =>
    match nameAt? (c :: cs) with
    | none => afterLastFrom? 0 cs
    | some name =>
      let after := opening.length + name.length
      some ((afterLastFrom? after cs).getD (cs.drop after))

def tail (cs : List Char) : List Char := (afterLastFrom? 0 cs).getD cs

/-- A text that leaves no marker open: none begins after the last complete one. -/
def Closed (s : String) : Prop := occursChars (tail s.toList) = false

instance closedDecidable (s : String) : Decidable (Closed s) := by
  unfold Closed; infer_instance

theorem afterLetters?_eq_some {letters cs rest : List Char}
    (h : afterLetters? letters cs = some rest) :
    ∃ front, cs = front ++ rest ∧ front.length = letters.length ∧
      ∀ c ∈ front, ∃ letter ∈ letters, Text.matchesLetter letter c = true := by
  induction letters generalizing cs with
  | nil => exact ⟨[], by simpa [afterLetters?] using h, rfl, by simp⟩
  | cons letter letters ih =>
    cases cs with
    | nil => simp [afterLetters?] at h
    | cons c cs =>
      rw [afterLetters?] at h
      split at h
      next hc =>
        obtain ⟨front, rfl, hlength, hall⟩ := ih h
        refine ⟨c :: front, rfl, by simp [hlength], ?_⟩
        intro d hd
        rcases List.mem_cons.mp hd with rfl | hd
        · exact ⟨letter, by simp, hc⟩
        · obtain ⟨l, hl, hmatch⟩ := hall d hd
          exact ⟨l, List.mem_cons_of_mem letter hl, hmatch⟩
      next => cases h

theorem nameAt?_eq_some_iff {cs name : List Char} :
    nameAt? cs = some name ↔
      '%' ∉ name ∧ ∃ rest, afterOpening? cs = some (name ++ '%' :: rest) := by
  have htake : ∀ front rest : List Char, '%' ∉ front →
      (front ++ '%' :: rest).takeWhile (· != '%') = front := by
    intro front rest hfront
    rw [List.takeWhile_append_of_pos]
    · simp
    · intro c hc
      have hne : c ≠ '%' := fun he => hfront (he ▸ hc)
      simpa using hne
  rw [nameAt?]
  cases hopening : afterOpening? cs with
  | none => simp
  | some after =>
    simp only [Option.some.injEq]
    by_cases hmem : '%' ∈ after
    · obtain ⟨front, rest, rfl, hfront⟩ := List.eq_append_cons_of_mem hmem
      rw [htake front rest hfront]
      simp only [List.length_append, List.length_cons]
      rw [if_pos (by omega), Option.some.injEq]
      constructor
      · rintro rfl
        exact ⟨hfront, rest, rfl⟩
      · rintro ⟨hname, rest', heq⟩
        have hsame := congrArg (List.takeWhile (· != '%')) heq
        rwa [htake front rest hfront, htake name rest' hname] at hsame
    · have hall : after.takeWhile (· != '%') = after := by
        rw [List.takeWhile_eq_self_iff]
        intro c hc
        have hne : c ≠ '%' := fun he => hmem (he ▸ hc)
        simpa using hne
      rw [hall, if_neg (Nat.lt_irrefl _)]
      constructor
      · intro h
        cases h
      · rintro ⟨-, rest, rfl⟩
        simp at hmem

theorem exists_of_nameAt? {cs name : List Char} (h : nameAt? cs = some name) :
    ∃ front rest, cs = front ++ (name ++ '%' :: rest) ∧ front.length = opening.length ∧
      ∀ c ∈ front, ¬ IsForeign c := by
  obtain ⟨-, rest, hrest⟩ := nameAt?_eq_some_iff.mp h
  obtain ⟨front, hcs, hlength, hall⟩ := afterLetters?_eq_some hrest
  refine ⟨front, rest, hcs, hlength, fun c hc hforeign => ?_⟩
  obtain ⟨letter, hletter, hmatch⟩ := hall c hc
  rw [hforeign letter hletter] at hmatch
  cases hmatch

inductive Cut : List Char → Prop
  | nil : Cut []
  | char {c : Char} {cs : List Char} (hname : nameAt? (c :: cs) = none) (hrest : Cut cs) :
      Cut (c :: cs)
  | marker {front name rest : List Char}
      (hname : nameAt? (front ++ (name ++ '%' :: rest)) = some name)
      (hlength : front.length = opening.length) (hfront : ∀ c ∈ front, ¬ IsForeign c)
      (hrest : Cut rest) : Cut (front ++ (name ++ '%' :: rest))

theorem cut (cs : List Char) : Cut cs := by
  match cs with
  | [] => exact .nil
  | c :: cs =>
    cases hname : nameAt? (c :: cs) with
    | none => exact .char hname (cut cs)
    | some name =>
      obtain ⟨front, rest, hcs, hlength, hfront⟩ := exists_of_nameAt? hname
      have hshort : rest.length < cs.length + 1 := by
        rw [← List.length_cons, hcs]
        simp
        omega
      rw [hcs] at hname ⊢
      exact .marker hname hlength hfront (cut rest)
  termination_by cs.length

theorem replaceFrom_drop (skip : Nat) (cs : List Char) :
    replaceFrom value skip cs = replaceFrom value 0 (cs.drop skip) := by
  induction cs generalizing skip with
  | nil => simp [replaceFrom]
  | cons c cs ih =>
    cases skip with
    | zero => rfl
    | succ skip => rw [replaceFrom, ih, List.drop_succ_cons]

theorem afterLastFrom?_drop (skip : Nat) (cs : List Char) :
    afterLastFrom? skip cs = afterLastFrom? 0 (cs.drop skip) := by
  induction cs generalizing skip with
  | nil => simp [afterLastFrom?]
  | cons c cs ih =>
    cases skip with
    | zero => rfl
    | succ skip => rw [afterLastFrom?, ih, List.drop_succ_cons]

section marker

variable {front name rest : List Char} (hlength : front.length = opening.length)
  (hname : nameAt? (front ++ (name ++ '%' :: rest)) = some name)
include hlength

theorem split_marker :
    (front ++ (name ++ '%' :: rest)).take (opening.length + name.length + 1) =
        front ++ (name ++ ['%']) ∧
      (front ++ (name ++ '%' :: rest)).drop (opening.length + name.length + 1) = rest := by
  have hparts : front ++ (name ++ '%' :: rest) = front ++ (name ++ ['%']) ++ rest := by simp
  have hall : (front ++ (name ++ ['%'])).length = opening.length + name.length + 1 := by
    simp [hlength]
    omega
  rw [hparts]
  exact ⟨List.take_left' hall, List.drop_left' hall⟩

include hname

theorem replaceFrom_marker :
    replaceFrom value 0 (front ++ (name ++ '%' :: rest)) =
      ((value (String.ofList name)).elim (front ++ (name ++ ['%'])) String.toList) ++
        replaceFrom value 0 rest := by
  obtain ⟨htake, hdrop⟩ := @split_marker front name rest hlength
  cases hcs : front ++ (name ++ '%' :: rest) with
  | nil => simp at hcs
  | cons c cs =>
    rw [hcs] at hname htake hdrop
    rw [List.drop_succ_cons] at hdrop
    rw [replaceFrom, hname]
    simp only [replaceFrom_drop (opening.length + name.length), hdrop, htake]
    cases value (String.ofList name) <;> rfl

theorem afterLastFrom?_marker :
    afterLastFrom? 0 (front ++ (name ++ '%' :: rest)) = some (tail rest) := by
  obtain ⟨-, hdrop⟩ := @split_marker front name rest hlength
  cases hcs : front ++ (name ++ '%' :: rest) with
  | nil => simp at hcs
  | cons c cs =>
    rw [hcs] at hname hdrop
    rw [List.drop_succ_cons] at hdrop
    rw [afterLastFrom?, hname]
    simp only [afterLastFrom?_drop (opening.length + name.length), hdrop, tail]

end marker

theorem afterLastFrom?_eq_none {cs : List Char} (h : '%' ∉ cs) : afterLastFrom? 0 cs = none := by
  induction cut cs with
  | nil => rfl
  | char hname hrest ih =>
    rw [afterLastFrom?, hname]
    exact ih fun hm => h (List.mem_cons_of_mem _ hm)
  | marker hname hlength hfront hrest ih => simp at h

theorem percent_not_mem {c : Char} {cs rest : List Char}
    (hopening : afterOpening? (c :: cs) = some rest) (hname : nameAt? (c :: cs) = none) : '%' ∉ cs := by
  have hrest : '%' ∉ rest := by
    intro hmem
    obtain ⟨name, after, rfl, hfront⟩ := List.eq_append_cons_of_mem hmem
    rw [nameAt?_eq_some_iff.mpr ⟨hfront, after, hopening⟩] at hname
    cases hname
  -- The opening's own percent sign is its first character.
  rw [afterOpening?, opening, afterLetters?] at hopening
  split at hopening
  next =>
    obtain ⟨front, rfl, -, hall⟩ := afterLetters?_eq_some hopening
    intro hmem
    rcases List.mem_append.mp hmem with hmem | hmem
    · obtain ⟨letter, hletter, hmatch⟩ := hall '%' hmem
      have hnone : (['D', 'I', 'R', 'U', 'N', '_'].all fun l => !Text.matchesLetter l '%') := by
        decide
      have hletter' := List.all_eq_true.mp hnone letter hletter
      rw [hmatch] at hletter'
      cases hletter'
    · exact hrest hmem
  next => cases hopening

theorem afterOpening?_eq_none {c : Char} {cs : List Char}
    (hname : nameAt? (c :: cs) = none)
    (hclosed : occursChars ((afterLastFrom? 0 cs).getD (c :: cs)) = false) :
    afterOpening? (c :: cs) = none := by
  cases hopening : afterOpening? (c :: cs) with
  | none => rfl
  | some rest =>
    exfalso
    rw [afterLastFrom?_eq_none (percent_not_mem hopening hname), Option.getD_none, occursChars,
      hopening] at hclosed
    cases hclosed

theorem nameAt?_foreign_cons (hc : IsForeign c) (rest : List Char) : nameAt? (c :: rest) = none := by
  rw [nameAt?, afterOpening?_foreign_cons hc]

theorem replaceFrom_foreign_cons (hc : IsForeign c) (rest : List Char) :
    replaceFrom value 0 (c :: rest) = c :: replaceFrom value 0 rest := by
  rw [replaceFrom, nameAt?_foreign_cons hc]

theorem nameAt?_foreign_of_some (hc : IsForeign c) {cs name : List Char}
    (h : nameAt? cs = some name) (rest : List Char) : nameAt? (cs ++ c :: rest) = some name := by
  obtain ⟨hname, after, hafter⟩ := nameAt?_eq_some_iff.mp h
  refine nameAt?_eq_some_iff.mpr ⟨hname, after ++ c :: rest, ?_⟩
  rw [afterOpening?, afterLetters?_foreign opening hc, ← afterOpening?, hafter]
  simp

/-- Before a foreign character, replacing the markers of a closed text is a matter of that text
alone. -/
theorem replaceFrom_foreign (hc : IsForeign c) {cs : List Char}
    (hclosed : occursChars (tail cs) = false) (rest : List Char) :
    replaceFrom value 0 (cs ++ c :: rest) =
      replaceFrom value 0 cs ++ c :: replaceFrom value 0 rest := by
  induction cut cs with
  | nil => exact replaceFrom_foreign_cons hc rest
  | @char d ds hname _ ih =>
    rw [tail, afterLastFrom?, hname] at hclosed
    have hopening := afterOpening?_eq_none hname hclosed
    have hrest : occursChars (tail ds) = false := by
      rw [tail]
      cases hlast : afterLastFrom? 0 ds with
      | none =>
        rw [hlast, Option.getD_none, occursChars, Bool.or_eq_false_iff] at hclosed
        exact hclosed.2
      | some after => rwa [hlast] at hclosed
    have hsame : nameAt? (d :: ds ++ c :: rest) = none := by
      rw [nameAt?, afterOpening?, afterLetters?_foreign opening hc, ← afterOpening?, hopening]
      rfl
    rw [List.cons_append] at hsame ⊢
    rw [replaceFrom, replaceFrom, hsame, hname]
    simp only
    rw [ih hrest, List.cons_append]
  | @marker front name ds hname hlength _ _ ih =>
    have hsame := nameAt?_foreign_of_some hc hname rest
    rw [tail, afterLastFrom?_marker hlength hname, Option.getD_some] at hclosed
    simp only [List.append_assoc, List.cons_append] at hsame ⊢
    rw [replaceFrom_marker hlength hsame, replaceFrom_marker hlength hname, ih hclosed,
      List.append_assoc]

theorem not_mem_replaceFrom {x : Char} (hvalue : ∀ name text, value name = some text → x ∉ text.toList)
    {cs : List Char} (hcs : x ∉ cs) : x ∉ replaceFrom value 0 cs := by
  induction cut cs with
  | nil => simp [replaceFrom]
  | @char d ds hname _ ih =>
    rw [List.mem_cons, not_or] at hcs
    rw [replaceFrom, hname]
    simp only [List.mem_cons, not_or]
    exact ⟨hcs.1, ih hcs.2⟩
  | @marker front name ds hname hlength _ _ ih =>
    simp only [List.mem_append, List.mem_cons, not_or] at hcs
    obtain ⟨hfront, hname', hpercent, hds⟩ := hcs
    rw [replaceFrom_marker hlength hname, List.mem_append, not_or]
    refine ⟨?_, ih hds⟩
    cases htext : value (String.ofList name) with
    | none => simp [hfront, hname', hpercent]
    | some text => exact hvalue _ _ htext

end Marker

namespace Words

open Marker

variable {value : String → Option String}

/-- A word without quotes as it stands in a line after markers have been replaced there. -/
def substituted (value : String → Option String) (w : List Char) : List Char :=
  if needsQuotes w then '"' :: replaceFrom value 0 w ++ ['"'] else replaceFrom value 0 w

/-- Markers are replaced in a line word by word. -/
theorem replaceFrom_line {ws : List (List Char)}
    (hw : ∀ w ∈ ws, '"' ∉ w ∧ occursChars (tail w) = false) :
    replaceFrom value 0 (line ws) = ws.flatMap fun w => ' ' :: substituted value w := by
  induction ws with
  | nil => rfl
  | cons w ws ih =>
    obtain ⟨hquote, hclosed⟩ := hw w (by simp)
    have hrest := ih fun v hv => hw v (List.mem_cons_of_mem w hv)
    rw [line_cons, replaceFrom_foreign_cons (by decide), List.flatMap_cons, List.cons_append, ← hrest]
    congr 1
    unfold quoteChars substituted
    by_cases hneeds : needsQuotes w = true
    · rw [if_pos hneeds, if_pos hneeds, doubleQuotes_of_not_mem hquote, List.cons_append, List.cons_append,
        replaceFrom_foreign_cons (by decide), List.append_assoc, List.singleton_append,
        replaceFrom_foreign (by decide) hclosed]
      simp
    · rw [if_neg hneeds, if_neg hneeds]
      cases ws with
      | nil => simp [replaceFrom]
      | cons v vs =>
        rw [line_cons, replaceFrom_foreign (by decide) hclosed,
          replaceFrom_foreign_cons (by decide)]

theorem readAs_substituted {w : List Char} (hne : w ≠ []) (hquote : '"' ∉ w)
    (hreplaced : '"' ∉ replaceFrom value 0 w) : ReadAs (substituted value w) (replaceFrom value 0 w) := by
  unfold substituted
  by_cases hneeds : needsQuotes w = true
  · have hread := readAs_quoted (replaceFrom value 0 w)
    rw [doubleQuotes_of_not_mem hreplaced] at hread
    rwa [if_pos hneeds]
  · have hnone : occursChars w = false :=
      (Bool.or_eq_false_iff.mp (Bool.not_eq_true _ ▸ hneeds : needsQuotes w = false)).1
    have hread := readAs_quoteChars hne (Or.inr (closesRuns_of_not_mem hquote))
    rw [quoteChars, reread, if_neg hneeds, if_neg hneeds, dropRuns_of_not_mem hquote] at hread
    rwa [if_neg hneeds, replaceFrom_of_no_marker value hnone]

/-- Splitting a text of arguments whose markers have been replaced gives the arguments with their
markers replaced, if that puts no quote in. -/
theorem split_replace_of_unquoted {t : Task} {ws : List String}
    (hw : ∀ w ∈ ws, w ≠ "" ∧ '"' ∉ w.toList ∧ Closed w)
    (hreplaced : ∀ w ∈ ws, '"' ∉ (replace t w).toList) :
    split (replace t (String.intercalate " " (ws.map quoteIfNeeded))) = ws.map (replace t) := by
  let value := fun name => (Variable.ofName? name).map (Variable.value t)
  let words := ws.map String.toList
  have hwords : ∀ cs ∈ words, cs ≠ [] ∧ '"' ∉ cs ∧ occursChars (tail cs) = false := by
    intro cs hcs
    obtain ⟨w, hm, rfl⟩ := List.mem_map.mp hcs
    exact ⟨by simpa using (hw w hm).1, (hw w hm).2⟩
  have hvalues : ∀ cs ∈ words, '"' ∉ replaceFrom value 0 cs := by
    intro cs hcs
    obtain ⟨w, hm, rfl⟩ := List.mem_map.mp hcs
    simpa [replace] using hreplaced w hm
  have hread : splitFrom false none (replaceFrom value 0 (line words)) =
      words.map (replaceFrom value 0) := by
    rw [replaceFrom_line fun cs hcs => (hwords cs hcs).2]
    exact splitFrom_texts none fun cs hcs =>
      readAs_substituted (hwords cs hcs).1 (hwords cs hcs).2.1 (hvalues cs hcs)
  have hchars : splitChars (replaceFrom value 0 ([' '].intercalate (words.map quoteChars))) =
      words.map (replaceFrom value 0) := by
    by_cases hnil : words = []
    · rw [hnil]; rfl
    · rw [line_eq_intercalate hnil, replaceFrom_foreign_cons (by decide),
        splitFrom_blank none (by decide)] at hread
      exact hread
  have htext : (String.intercalate " " (ws.map quoteIfNeeded)).toList =
      [' '].intercalate (words.map quoteChars) := by
    simp [words, String.toList_intercalate, Function.comp_def, quoteIfNeeded]
  rw [split, replace, String.toList_ofList, htext, hchars]
  simp [words, value, Function.comp_def, replace]

theorem split_replace_intercalate {t : Task} (hpath : '"' ∉ t.path.toList)
    (hrelative : '"' ∉ t.relative.toList) {ws : List String}
    (hw : ∀ w ∈ ws, w ≠ "" ∧ '"' ∉ w.toList ∧ Closed w) :
    split (replace t (String.intercalate " " (ws.map quoteIfNeeded))) = ws.map (replace t) := by
  refine split_replace_of_unquoted hw fun w hm => ?_
  rw [replace, String.toList_ofList]
  refine not_mem_replaceFrom (fun name text htext hmem => ?_) (hw w hm).2.1
  obtain ⟨v, -, rfl⟩ := Option.map_eq_some_iff.mp htext
  rcases Variable.mem_value hmem with h | h
  · exact hpath h
  · exact hrelative h

end Words

namespace Chain

/-- A command of words without quotes, none of which leaves a marker open, starts one process
with the path and the arguments that replacing markers in each word gives. -/
theorem argv_of_marked_words {σ : Type} (launcher : Launcher σ) (options : ExecutionOptions)
    (callback : Callback) (t : Task) (w : World σ) {exe : String} {args : List String}
    (hexe : exe ≠ "") (hargs : ∀ a ∈ args, a ≠ "" ∧ '"' ∉ a.toList ∧ Marker.Closed a)
    (hpath : '"' ∉ t.path.toList) (hrelative : '"' ∉ t.relative.toList) :
    ∃ l : Launch,
      (Execution.run launcher (parse ((exe :: args).map escapeControls)) options callback t
        w).1.launches = w.launches ++ [l] ∧
      l.path = Marker.replace t exe ∧ l.argv = args.map (Marker.replace t) := by
  obtain ⟨l, hl, hexecutable, hargv⟩ := launch_of_escaped launcher options callback t w hexe
    fun a ha => (hargs a ha).1
  exact ⟨l, hl, hexecutable, hargv.trans (Words.split_replace_intercalate hpath hrelative hargs)⟩

/-- A value with blanks, an empty one, an unknown name, control characters and a percent sign. -/
theorem argv_of_marked_words_mixed :
    ∃ l : Launch,
      (Execution.run (fun _ host s => (.ok {}, host, s))
        (parse ((["%DIRUN_DPATH%/to>l", "%dirun_fname%.bak", "%DIRUN_DPATH_REL%", "a %DIRUN_NO% b",
          "100%", "x&y"]).map escapeControls)) {} .absent
        { path := "/d/my file.txt", relative := "my file.txt", name := "my file.txt" }
        { host := { root := .dir [], cwd := "/", environment := ⟨[], [], "/"⟩ }
          launcher := () }).1.launches = [l] ∧
      l.path = "/d/to>l" ∧
      l.argv = ["my file.bak", "", "a %DIRUN_NO% b", "100%", "x&y"] := by
  obtain ⟨l, hl, hpath, hargv⟩ := argv_of_marked_words (fun _ host s => (.ok {}, host, s)) {} .absent
    { path := "/d/my file.txt", relative := "my file.txt", name := "my file.txt" }
    { host := { root := .dir [], cwd := "/", environment := ⟨[], [], "/"⟩ }, launcher := () }
    (show "%DIRUN_DPATH%/to>l" ≠ "" by decide)
    (show ∀ a ∈ ["%dirun_fname%.bak", "%DIRUN_DPATH_REL%", "a %DIRUN_NO% b", "100%", "x&y"],
      a ≠ "" ∧ '"' ∉ a.toList ∧ Marker.Closed a by decide)
    (by decide) (by decide)
  exact ⟨l, hl, hpath.trans (by decide), hargv.trans (by decide)⟩

end Chain
end FileSweep
