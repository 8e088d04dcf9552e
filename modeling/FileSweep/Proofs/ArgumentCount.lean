import FileSweep.Proofs.Substitution

/-! How many arguments a process gets. Words in which every control character is escaped are the
escaped forms of words, with the same markers in them. A value stays within the quotes of its word,
whatever it holds, unless it holds a quote: so as long as no quote is put in, a command has as many
arguments for one file as for any other. -/
namespace FileSweep

open Quoting

namespace Quoting

/-- Whether every control character of a text comes right after a caret; `escaped` tells that the
text itself does. -/
def controlsEscaped : Bool → List Char → Bool
  | _, [] => true
  | escaped, c :: cs => (escaped || !isControl c) && controlsEscaped (c == '^') cs

def IsEscaped (word : String) : Prop := controlsEscaped false word.toList = true

instance isEscapedDecidable (word : String) : Decidable (IsEscaped word) := by
  unfold IsEscaped; infer_instance

def unescapeChars : List Char → List Char
  | '^' :: c :: cs => if isControl c then c :: unescapeChars cs else '^' :: unescapeChars (c :: cs)
  | c :: cs => c :: unescapeChars cs
  | [] => []

theorem escapeChars_unescapeChars {cs : List Char} (h : controlsEscaped false cs = true) :
    escapeChars (unescapeChars cs) = cs := by
  fun_induction unescapeChars cs with
  | case1 c cs hc ih =>
    have hcaret : (c == '^') = false := by
      rw [beq_eq_false_iff_ne]
      rintro rfl
      exact absurd hc (by decide)
    simp only [controlsEscaped, beq_self_eq_true, Bool.true_or, Bool.true_and, hcaret,
      Bool.and_eq_true] at h
    rw [escapeChars_control hc, ih h.2]
  | case2 c cs hc ih =>
    simp only [controlsEscaped, beq_self_eq_true, Bool.true_or, Bool.true_and,
      Bool.and_eq_true] at h
    rw [escapeChars_plain (by decide), ih (by simp [controlsEscaped, hc, h.2])]
  | case3 c cs hne ih =>
    obtain ⟨hc, hrest⟩ : isControl c = false ∧ controlsEscaped (c == '^') cs = true := by
      simpa [controlsEscaped] using h
    rw [escapeChars_plain hc]
    cases cs with
    | nil => rfl
    | cons d ds =>
      have hcaret : (c == '^') = false := by
        rw [beq_eq_false_iff_ne]
        rintro rfl
        exact hne d ds rfl rfl
      rw [ih (hcaret ▸ hrest)]
  | case4 => rfl

def unescapeControls (word : String) : String := String.ofList (unescapeChars word.toList)

theorem IsEscaped.escape_unescape {word : String} (h : IsEscaped word) :
    escapeControls (unescapeControls word) = word := by
  rw [escapeControls, unescapeControls, String.toList_ofList, escapeChars_unescapeChars h,
    String.ofList_toList]

theorem IsEscaped.unescape_ne_empty {word : String} (h : IsEscaped word) (hne : word ≠ "") :
    unescapeControls word ≠ "" := by
  intro hempty
  have hword := h.escape_unescape
  rw [hempty] at hword
  exact hne hword.symm

end Quoting

namespace Marker

variable {value : String → Option String}

theorem nameAt?_escapeChars (cs : List Char) :
    nameAt? (escapeChars cs) = (nameAt? cs).map escapeChars := by
  cases hname : nameAt? cs with
  | some name =>
    obtain ⟨hpercent, rest, hrest⟩ := nameAt?_eq_some_iff.mp hname
    refine nameAt?_eq_some_iff.mpr ⟨?_, escapeChars rest, ?_⟩
    · rwa [mem_escapeChars (by decide)]
    · rw [afterOpening?_escapeChars, hrest, Option.map_some, escapeChars_append,
        escapeChars_plain (by decide)]
  | none =>
    cases hsame : nameAt? (escapeChars cs) with
    | none => rfl
    | some name' =>
      obtain ⟨-, rest', hrest'⟩ := nameAt?_eq_some_iff.mp hsame
      rw [afterOpening?_escapeChars] at hrest'
      obtain ⟨after, hafter, heq⟩ := Option.map_eq_some_iff.mp hrest'
      have hpercent : '%' ∈ after := by
        rw [← mem_escapeChars (by decide), heq]
        simp
      obtain ⟨name, rest, rfl, hnot⟩ := List.eq_append_cons_of_mem hpercent
      rw [nameAt?_eq_some_iff.mpr ⟨hnot, rest, hafter⟩] at hname
      cases hname

theorem escapeChars_marker {front : List Char} (hfront : ∀ c ∈ front, ¬ IsForeign c)
    (name rest : List Char) :
    escapeChars (front ++ (name ++ '%' :: rest)) =
      front ++ (escapeChars name ++ '%' :: escapeChars rest) := by
  have hplain : ∀ c ∈ front, isControl c = false := fun c hc =>
    Bool.not_eq_true _ ▸ fun hcontrol => hfront c hc (isForeign_of_isControl hcontrol)
  rw [escapeChars_append, escapeChars_append, escapeChars_of_plain hplain,
    escapeChars_plain (by decide)]

theorem afterLastFrom?_escapeChars (cs : List Char) :
    afterLastFrom? 0 (escapeChars cs) = (afterLastFrom? 0 cs).map escapeChars := by
  induction cut cs with
  | nil => rfl
  | @char c cs hname hrest ih =>
    have hsame := nameAt?_escapeChars (c :: cs)
    rw [hname, Option.map_none] at hsame
    rw [afterLastFrom?, hname]
    by_cases hc : isControl c = true
    · rw [escapeChars_control hc, afterLastFrom?, nameAt?_foreign_cons (by decide)]
      simp only
      rw [afterLastFrom?, nameAt?_foreign_cons (isForeign_of_isControl hc)]
      exact ih
    · rw [escapeChars_plain (by simpa using hc)] at hsame ⊢
      rw [afterLastFrom?, hsame]
      exact ih
  | @marker front name rest hname hlength hfront hrest ih =>
    have hsame := nameAt?_escapeChars (front ++ (name ++ '%' :: rest))
    rw [hname, Option.map_some, escapeChars_marker hfront] at hsame
    rw [escapeChars_marker hfront, afterLastFrom?_marker hlength hsame,
      afterLastFrom?_marker hlength hname, Option.map_some, tail, tail, ih]
    cases afterLastFrom? 0 rest <;> rfl

/-- A word leaves no marker open if its escaped form leaves none. -/
theorem Closed.of_escapeControls {word : String} (h : Closed (escapeControls word)) :
    Closed word := by
  have htail : tail (escapeChars word.toList) = escapeChars (tail word.toList) := by
    rw [tail, tail, afterLastFrom?_escapeChars]
    cases afterLastFrom? 0 word.toList <;> rfl
  rwa [Closed, escapeControls, String.toList_ofList, htail, occursChars_escapeChars] at h

theorem ofName?_of_control {name : List Char} {c : Char} (hmem : c ∈ name)
    (hc : isControl c = true) : Variable.ofName? (String.ofList name) = none := by
  rw [Variable.ofName?, List.find?_eq_none]
  intro v _ heq
  have hplain : (v.name.toList.any isControl) = false := by cases v <;> rfl
  have hupper : c ∈ Text.upperSpelling c := by
    simp only [isControl, Bool.or_eq_true, beq_iff_eq] at hc
    rcases hc with ((rfl | rfl) | rfl) | rfl <;> decide
  have hname : c ∈ v.name.toList := by
    rw [beq_iff_eq.mp heq, Text.upperWord, String.toList_ofList, String.toList_ofList]
    exact List.mem_flatMap.mpr ⟨c, hmem, hupper⟩
  exact absurd hc (List.any_eq_false.mp hplain c hname)

theorem ofName?_escapeChars (name : List Char) :
    Variable.ofName? (String.ofList (escapeChars name)) = Variable.ofName? (String.ofList name) := by
  by_cases hplain : ∀ c ∈ name, isControl c = false
  · rw [escapeChars_of_plain hplain]
  · obtain ⟨c, hmem, hc⟩ : ∃ c ∈ name, isControl c = true := by simpa using hplain
    have hcaret : c ≠ '^' := by rintro rfl; exact absurd hc (by decide)
    rw [ofName?_of_control hmem hc, ofName?_of_control ((mem_escapeChars hcaret).mpr hmem) hc]

theorem quote_mem_replaceFrom_escapeChars
    (hvalue : ∀ name, value (String.ofList (escapeChars name)) = value (String.ofList name))
    (cs : List Char) :
    '"' ∈ replaceFrom value 0 (escapeChars cs) ↔ '"' ∈ replaceFrom value 0 cs := by
  induction cut cs with
  | nil => rfl
  | @char c cs hname hrest ih =>
    have hsame := nameAt?_escapeChars (c :: cs)
    rw [hname, Option.map_none] at hsame
    rw [replaceFrom, hname]
    by_cases hc : isControl c = true
    · rw [escapeChars_control hc, replaceFrom_foreign_cons (by decide),
        replaceFrom_foreign_cons (isForeign_of_isControl hc)]
      simp [ih]
    · rw [escapeChars_plain (by simpa using hc)] at hsame ⊢
      rw [replaceFrom, hsame]
      simp [ih]
  | @marker front name rest hname hlength hfront hrest ih =>
    have hsame := nameAt?_escapeChars (front ++ (name ++ '%' :: rest))
    rw [hname, Option.map_some, escapeChars_marker hfront] at hsame
    rw [escapeChars_marker hfront, replaceFrom_marker hlength hsame, replaceFrom_marker hlength hname,
      hvalue, List.mem_append, List.mem_append, ih]
    cases value (String.ofList name) with
    | none => simp [mem_escapeChars]
    | some text => rfl

theorem unquoted_of_escapeControls {t : Task} {word : String}
    (h : '"' ∉ (replace t (escapeControls word)).toList) : '"' ∉ (replace t word).toList := by
  rw [replace, String.toList_ofList, escapeControls, String.toList_ofList,
    quote_mem_replaceFrom_escapeChars fun name => by rw [ofName?_escapeChars]] at h
  rwa [replace, String.toList_ofList]

end Marker

namespace Chain

/-- A command of escaped words starts one process with an argument for each word but the first, as
long as no marker puts a quote into a word. -/
theorem argument_for_each_word {σ : Type} (launcher : Launcher σ) (options : ExecutionOptions)
    (callback : Callback) (t : Task) (w : World σ) {exe : String} {args : List String}
    (hexe : exe ≠ "" ∧ IsEscaped exe)
    (hargs : ∀ a ∈ args, a ≠ "" ∧ '"' ∉ a.toList ∧ IsEscaped a ∧ Marker.Closed a)
    (hvalues : ∀ a ∈ args, '"' ∉ (Marker.replace t a).toList) :
    ∃ l : Launch,
      (Execution.run launcher (parse (exe :: args)) options callback t w).1.launches =
        w.launches ++ [l] ∧
      l.argv.length = args.length := by
  let words := args.map unescapeControls
  have hescaped : exe :: args = (unescapeControls exe :: words).map escapeControls := by
    have hself : ∀ a ∈ args, (escapeControls ∘ unescapeControls) a = id a := fun a ha =>
      (hargs a ha).2.2.1.escape_unescape
    rw [List.map_cons, hexe.2.escape_unescape, List.map_map, List.map_congr_left hself, List.map_id]
  have hwords : ∀ a ∈ words, a ≠ "" ∧ '"' ∉ a.toList ∧ Marker.Closed a := by
    intro a ha
    obtain ⟨b, hb, rfl⟩ := List.mem_map.mp ha
    obtain ⟨hne, hquote, hesc, hclosed⟩ := hargs b hb
    rw [← hesc.escape_unescape] at hquote hclosed
    rw [escapeControls, String.toList_ofList, mem_escapeChars (by decide)] at hquote
    exact ⟨hesc.unescape_ne_empty hne, hquote, hclosed.of_escapeControls⟩
  have hreplaced : ∀ a ∈ words, '"' ∉ (Marker.replace t a).toList := by
    intro a ha
    obtain ⟨b, hb, rfl⟩ := List.mem_map.mp ha
    have hvalue := hvalues b hb
    rw [← (hargs b hb).2.2.1.escape_unescape] at hvalue
    exact Marker.unquoted_of_escapeControls hvalue
  obtain ⟨l, hl, -, hargv⟩ := launch_of_escaped launcher options callback t w
    (hexe.2.unescape_ne_empty hexe.1) fun a ha => (hwords a ha).1
  rw [← hescaped] at hl
  refine ⟨l, hl, ?_⟩
  rw [hargv, Words.split_replace_of_unquoted hwords hreplaced]
  simp [words]

/-- A file cannot add arguments to a command, nor take any away, as long as no marker puts a quote
into a word: for two files of any names the process is started with as many arguments as there are
words. -/
theorem argument_count {σ : Type} (launcher : Launcher σ) (options : ExecutionOptions)
    (callback : Callback) (t u : Task) (w w' : World σ) {exe : String} {args : List String}
    (hexe : exe ≠ "" ∧ IsEscaped exe)
    (hargs : ∀ a ∈ args, a ≠ "" ∧ '"' ∉ a.toList ∧ IsEscaped a ∧ Marker.Closed a)
    (ht : ∀ a ∈ args, '"' ∉ (Marker.replace t a).toList)
    (hu : ∀ a ∈ args, '"' ∉ (Marker.replace u a).toList) :
    ∃ l m : Launch,
      (Execution.run launcher (parse (exe :: args)) options callback t w).1.launches =
        w.launches ++ [l] ∧
      (Execution.run launcher (parse (exe :: args)) options callback u w').1.launches =
        w'.launches ++ [m] ∧
      l.argv.length = args.length ∧ m.argv.length = args.length := by
  obtain ⟨l, hl, hlength⟩ := argument_for_each_word launcher options callback t w hexe hargs ht
  obtain ⟨m, hm, hlength'⟩ := argument_for_each_word launcher options callback u w' hexe hargs hu
  exact ⟨l, m, hl, hm, hlength, hlength'⟩

/-- One name has blanks, operators, a marker and no extension, the other is plain. -/
theorem argument_count_of_odd_name :
    let args := ["%DIRUN_FNAME%", "a b", "x^>%dirun_fpath_rel%.bak", "%DIRUN_FEXT%"]
    let name := "a > %DIRUN_FNAME% &"
    let t : Task := { path := "/d/" ++ name, relative := name, name }
    let u : Task := { path := "/d/f.txt", relative := "f.txt", name := "f.txt" }
    let w : World Unit :=
      { host := { root := .dir [], cwd := "/", environment := ⟨[], [], "/"⟩ }, launcher := () }
    let launches (t : Task) :=
      (Execution.run (fun _ host s => (.ok {}, host, s)) (parse ("tool" :: args)) {} .absent t
        w).1.launches
    ∃ l m : Launch, launches t = [l] ∧ launches u = [m] ∧ l.argv.length = 4 ∧ m.argv.length = 4 := by
  intro args name t u w launches
  exact argument_count _ {} .absent t u w w (by decide) (by decide) (by decide +kernel)
    (by decide +kernel)

/-- A quote in a name ends the quotes of its word, and the name is split. -/
theorem argument_count_of_quotes :
    let launches (t : Task) :=
      (Execution.run (fun _ host s => (.ok {}, host, s)) (parse ["tool", "%DIRUN_FNAME%"]) {} .absent
        t ({ host := { root := .dir [], cwd := "/", environment := ⟨[], [], "/"⟩ }
             launcher := () } : World Unit)).1.launches
    (launches { path := "/d/xy", relative := "xy", name := "xy" }).map Launch.argv = [["xy"]] ∧
      (launches { path := "/d/x\" \"y", relative := "x\" \"y", name := "x\" \"y" }).map Launch.argv =
        [["x", "y"]] := by
  decide +kernel

end Chain
end FileSweep
