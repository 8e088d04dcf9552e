import FileSweep.Proofs.ChainControl
import FileSweep.Proofs.Readers
import Mathlib.Data.List.DropRight
import Mathlib.Data.List.Infix

/-! How far the text of an output is normalized. No line feed is left at its end, but one pass over
a text takes only one carriage return from a line end. So a text with a second one there keeps a line
end of two characters, and changes when it is normalized again. -/
namespace FileSweep
namespace Capture

def HasPair (cs : List Char) : Prop := ['\r', '\n'] <:+: cs

instance hasPairDecidable (cs : List Char) : Decidable (HasPair cs) :=
  inferInstanceAs (Decidable (['\r', '\n'] <:+: cs))

variable {cs : List Char}

theorem hasPair_iff : HasPair cs ↔ ∃ front rest, cs = front ++ '\r' :: '\n' :: rest := by
  simp only [HasPair, List.IsInfix, List.append_assoc, List.cons_append, List.nil_append, eq_comm]

theorem unifyEnds_append (front rest : List Char) :
    unifyEnds (front ++ '\r' :: rest) = unifyEnds front ++ unifyEnds ('\r' :: rest) := by
  fun_induction unifyEnds front with
  | case1 cs ih => rw [List.cons_append, List.cons_append, unifyEnds, ih, List.cons_append]
  | case2 c cs hpair ih =>
    rw [List.cons_append, unifyEnds, ih, List.cons_append]
    rintro rest' rfl htail
    cases cs with
    | nil => cases htail
    | cons d cs =>
      obtain ⟨rfl, -⟩ := List.cons.inj htail
      exact hpair cs rfl rfl
  | case3 => rfl

theorem unifyEnds_append_pair (front rest : List Char) :
    unifyEnds (front ++ '\r' :: '\n' :: rest) = unifyEnds front ++ '\n' :: unifyEnds rest := by
  rw [unifyEnds_append, unifyEnds]

theorem unifyEnds_append_triple (front rest : List Char) :
    unifyEnds (front ++ '\r' :: '\r' :: '\n' :: rest) =
      unifyEnds front ++ ['\r', '\n'] ++ unifyEnds rest := by
  rw [unifyEnds_append, unifyEnds, unifyEnds]
  · simp
  · simp

theorem exists_of_unifyEnds_cons {ys : List Char} (h : unifyEnds cs = '\n' :: ys) :
    ∃ rest, (cs = '\n' :: rest ∨ cs = '\r' :: '\n' :: rest) ∧ unifyEnds rest = ys := by
  fun_cases unifyEnds cs with
  | case1 cs =>
    rw [unifyEnds] at h
    exact ⟨cs, .inr rfl, (List.cons.inj h).2⟩
  | case2 c cs hpair =>
    rw [unifyEnds] at h
    · obtain ⟨rfl, htail⟩ := List.cons.inj h
      exact ⟨cs, .inl rfl, htail⟩
    · exact hpair
  | case3 => cases h

theorem exists_of_unifyEnds_pair {xs ys : List Char} (h : unifyEnds cs = xs ++ '\r' :: '\n' :: ys) :
    ∃ front rest, cs = front ++ '\r' :: '\r' :: '\n' :: rest ∧ unifyEnds rest = ys := by
  fun_induction unifyEnds cs generalizing xs with
  | case1 cs ih =>
    cases xs with
    | nil => cases h
    | cons x xs =>
      obtain ⟨front, rest, rfl, hrest⟩ := ih (List.cons.inj h).2
      exact ⟨'\r' :: '\n' :: front, rest, rfl, hrest⟩
  | case2 c cs hpair ih =>
    cases xs with
    | cons x xs =>
      obtain ⟨front, rest, rfl, hrest⟩ := ih (List.cons.inj h).2
      exact ⟨c :: front, rest, rfl, hrest⟩
    | nil =>
      obtain ⟨rfl, htail⟩ := List.cons.inj h
      obtain ⟨rest, rfl | rfl, hrest⟩ := exists_of_unifyEnds_cons htail
      · exact absurd rfl (hpair rest rfl)
      · exact ⟨[], rest, rfl, hrest⟩
  | case3 => simp at h

theorem length_unifyEnds_le (cs : List Char) : (unifyEnds cs).length ≤ cs.length := by
  fun_induction unifyEnds cs with
  | case1 cs ih => simp only [List.length_cons]; omega
  | case2 c cs _ ih => simp only [List.length_cons]; omega
  | case3 => exact Nat.le_refl _

theorem unifyEnds_eq_self_iff : unifyEnds cs = cs ↔ ¬ HasPair cs := by
  constructor
  · intro hself hpair
    obtain ⟨front, rest, rfl⟩ := hasPair_iff.mp hpair
    have hlength := congrArg List.length hself
    have hfront := length_unifyEnds_le front
    have hrest := length_unifyEnds_le rest
    rw [unifyEnds_append_pair] at hlength
    simp only [List.length_append, List.length_cons] at hlength
    omega
  · intro hnone
    fun_induction unifyEnds cs with
    | case1 cs _ => exact absurd (hasPair_iff.mpr ⟨[], cs, rfl⟩) hnone
    | case2 c cs _ ih => rw [ih fun hpair => hnone (hpair.trans (List.suffix_cons c cs).isInfix)]
    | case3 => rfl

theorem normalizeChars_eq (cs : List Char) : normalizeChars cs = (unifyEnds cs).rdropWhile (· == '\n') :=
  rfl

theorem normalizeChars_eq_nil_iff : normalizeChars cs = [] ↔ ∀ c ∈ unifyEnds cs, c = '\n' := by
  simp [normalizeChars_eq]

theorem getLast?_normalizeChars (cs : List Char) : (normalizeChars cs).getLast? ≠ some '\n' := by
  intro hlast
  obtain ⟨front, hfront⟩ := List.getLast?_eq_some_iff.mp hlast
  have hself : (normalizeChars cs).rdropWhile (· == '\n') = normalizeChars cs :=
    List.rdropWhile_idempotent ..
  rw [hfront, List.rdropWhile_concat_pos _ _ _ rfl] at hself
  have hlength := (List.rdropWhile_prefix (· == '\n') front).length_le
  rw [hself, List.length_append, List.length_singleton] at hlength
  omega

theorem exists_ne_newline {xs ys : List Char} (h : normalizeChars cs = xs ++ '\n' :: ys) :
    ∃ c ∈ ys, c ≠ '\n' := by
  by_contra! hall
  obtain ⟨n, hys⟩ : ∃ n, ys = List.replicate n '\n' := ⟨ys.length, List.eq_replicate_of_mem hall⟩
  apply getLast?_normalizeChars cs
  rw [h, hys, ← List.replicate_succ, List.getLast?_append, List.getLast?_replicate]
  rfl

theorem rdropWhile_append_of_ne_nil {p : Char → Bool} (xs : List Char) {ys : List Char}
    (h : ys.rdropWhile p ≠ []) : (xs ++ ys).rdropWhile p = xs ++ ys.rdropWhile p := by
  have hne : (ys.reverse.dropWhile p).isEmpty = false := by
    simpa [List.rdropWhile] using h
  rw [List.rdropWhile, List.reverse_append, List.dropWhile_append, hne]
  simp [List.rdropWhile]

/-- A pair is left where two carriage returns stood before a line feed that is not among the last. -/
theorem hasPair_normalizeChars_iff :
    HasPair (normalizeChars cs) ↔
      ∃ front rest, cs = front ++ '\r' :: '\r' :: '\n' :: rest ∧ normalizeChars rest ≠ [] := by
  rw [hasPair_iff]
  constructor
  · rintro ⟨xs, ys, hpair⟩
    obtain ⟨blank, hblank⟩ : normalizeChars cs <+: unifyEnds cs := List.rdropWhile_prefix ..
    rw [hpair, List.append_assoc] at hblank
    obtain ⟨front, rest, rfl, hrest⟩ := exists_of_unifyEnds_pair hblank.symm
    rw [List.append_cons xs] at hpair
    obtain ⟨c, hc, hne⟩ := exists_ne_newline hpair
    refine ⟨front, rest, rfl, fun hnil => hne (normalizeChars_eq_nil_iff.mp hnil c ?_)⟩
    rw [hrest]
    exact List.mem_append_left blank hc
  · rintro ⟨front, rest, rfl, hrest⟩
    refine ⟨unifyEnds front, normalizeChars rest, ?_⟩
    rw [normalizeChars_eq, unifyEnds_append_triple, rdropWhile_append_of_ne_nil _ hrest,
      List.append_assoc]
    rfl

/-- The texts that normalizing leaves alone have no pair, and no line feed at their end. -/
theorem normalizeChars_eq_self_iff :
    normalizeChars cs = cs ↔ ¬ HasPair cs ∧ cs.getLast? ≠ some '\n' := by
  constructor
  · intro hself
    have hfront : normalizeChars cs <+: unifyEnds cs := List.rdropWhile_prefix ..
    have hlast := getLast?_normalizeChars cs
    rw [hself] at hfront hlast
    have hunified : unifyEnds cs = cs := (hfront.eq_of_length_le (length_unifyEnds_le cs)).symm
    exact ⟨unifyEnds_eq_self_iff.mp hunified, hlast⟩
  · rintro ⟨hnone, hlast⟩
    rw [normalizeChars_eq, unifyEnds_eq_self_iff.mpr hnone, List.rdropWhile_eq_self_iff]
    intro hne hfeed
    exact hlast (by rw [List.getLast?_eq_some_getLast hne, beq_iff_eq.mp hfeed])

/-- Normalizing a text again changes it just if a pair was left in it. -/
theorem normalizeChars_normalizeChars_iff :
    normalizeChars (normalizeChars cs) = normalizeChars cs ↔ ¬ HasPair (normalizeChars cs) := by
  rw [normalizeChars_eq_self_iff, and_iff_left (getLast?_normalizeChars cs)]

theorem dropLastChar_eq_concat {c : Char} {xs : List Char} (h : dropLastChar c cs = xs ++ [c]) :
    cs = xs ++ [c, c] := by
  unfold dropLastChar at h
  split at h
  next hlast =>
    obtain ⟨front, rfl⟩ := List.getLast?_eq_some_iff.mp hlast
    rw [List.dropLast_concat] at h
    rw [h, List.append_assoc]
    rfl
  next hlast => exact absurd (by rw [h, List.getLast?_concat]) hlast

theorem mem_of_mem_dropLastChar {c d : Char} (h : d ∈ dropLastChar c cs) : d ∈ cs := by
  unfold dropLastChar at h
  split at h
  · exact List.mem_of_mem_dropLast h
  · exact h

theorem exists_of_dropped_return {line : List UInt8} {xs : List Char}
    (h : dropLastChar '\r' (Text.decodeLossyChars line) = xs ++ ['\r', '\r']) :
    ∃ front, line = front ++ [13, 13, 13] := by
  rw [List.append_cons] at h
  have hthree := dropLastChar_eq_concat h
  rw [List.append_assoc] at hthree
  obtain ⟨front, b, back, rfl, hb, -, hback⟩ := Text.exists_of_decodeLossyChars (by decide) hthree
  obtain rfl : b = 13 := UInt8.toNat_inj.mp hb
  have hplain : ∀ c ∈ ['\r', '\r'], Text.IsPlain c := by simp [Text.IsPlain]
  obtain rfl : back = [13, 13] := Text.eq_map_of_decodeLossyChars hplain hback
  exact ⟨front, rfl⟩

theorem returns_of_line {line cs xs ys : List Char} (hline : '\n' ∉ line)
    (h : line ++ '\n' :: cs = xs ++ '\r' :: '\r' :: '\n' :: ys) :
    (line = xs ++ ['\r', '\r'] ∧ cs = ys) ∨ ∃ zs, cs = zs ++ '\r' :: '\r' :: '\n' :: ys := by
  rcases List.append_eq_append_iff.mp h with ⟨zs, rfl, hcons⟩ | ⟨zs, rfl, hcons⟩
  · cases zs with
    | nil => cases hcons
    | cons z zs => exact .inr ⟨zs, (List.cons.inj hcons).2⟩
  · have hzs : '\n' ∉ zs := fun hmem => hline (List.mem_append_right xs hmem)
    obtain ⟨back, hback, hrest⟩ := @Text.exists_of_append_eq _ _ _ ['\r', '\r'] _ hcons.symm hzs
    cases back with
    | nil => exact .inl ⟨by rw [hback, List.append_nil], (List.cons.inj hrest).2⟩
    | cons z back =>
      obtain ⟨rfl, -⟩ := List.cons.inj hrest
      have hmem : '\n' ∈ ['\r', '\r'] := by rw [hback]; simp
      exact absurd hmem (by decide)

theorem textChars_append_returns (front rest : List UInt8) :
    ∃ xs, textChars (front ++ 13 :: 13 :: 13 :: 10 :: rest) =
      xs ++ '\r' :: '\r' :: '\n' :: textChars rest := by
  induction lined front with
  | @last line hline =>
    have hreturns : (10 : UInt8) ∉ line ++ [13, 13, 13] := by simp [hline]
    have hdecode : Text.decodeLossyChars (line ++ [13, 13, 13]) =
        Text.decodeLossyChars line ++ ['\r', '\r'] ++ ['\r'] := by
      rw [List.append_assoc]
      exact Text.decodeLossyChars_append (by decide) line [13, 13]
    have htext := textChars_append hreturns rest
    rw [hdecode, dropLastChar_append, List.append_assoc, List.append_assoc] at htext
    exact ⟨Text.decodeLossyChars line, htext⟩
  | @line line front hline _ ih =>
    obtain ⟨xs, hxs⟩ := ih
    refine ⟨dropLastChar '\r' (Text.decodeLossyChars line) ++ '\n' :: xs, ?_⟩
    rw [List.append_assoc, List.cons_append, textChars_append hline, hxs]
    simp

theorem exists_of_textChars_returns {bytes : List UInt8} {xs ys : List Char} (hys : ys ≠ [])
    (h : textChars bytes = xs ++ '\r' :: '\r' :: '\n' :: ys) :
    ∃ front rest, bytes = front ++ 13 :: 13 :: 13 :: 10 :: rest ∧ textChars rest = ys := by
  have hnone : ∀ line : List UInt8, 10 ∉ line →
      '\n' ∉ dropLastChar '\r' (Text.decodeLossyChars line) :=
    fun line hline hmem => newline_not_mem hline (mem_of_mem_dropLastChar hmem)
  induction lined bytes generalizing xs with
  | @last line hline =>
    by_cases hne : line = []
    · subst hne
      simp [textChars, lines, linesFrom, joinLines] at h
    · rw [textChars_last hline hne] at h
      rcases returns_of_line (hnone line hline) h with ⟨-, rfl⟩ | ⟨zs, hzs⟩
      · exact absurd rfl hys
      · simp at hzs
  | @line line rest hline _ ih =>
    rw [textChars_append hline] at h
    rcases returns_of_line (hnone line hline) h with ⟨hreturns, rfl⟩ | ⟨zs, hzs⟩
    · obtain ⟨front, rfl⟩ := exists_of_dropped_return hreturns
      exact ⟨front, rest, by simp, rfl⟩
    · obtain ⟨front, rest', rfl, hrest⟩ := ih hzs
      exact ⟨line ++ 10 :: front, rest', by simp, hrest⟩

/-- The text that is kept of some bytes has a pair just if three carriage returns stand before one of
its line feeds and anything but line feeds is kept of the bytes behind it. -/
theorem hasPair_normalizeChars_textChars_iff {bytes : List UInt8} :
    HasPair (normalizeChars (textChars bytes)) ↔
      ∃ front rest, bytes = front ++ 13 :: 13 :: 13 :: 10 :: rest ∧
        normalizeChars (textChars rest) ≠ [] := by
  rw [hasPair_normalizeChars_iff]
  constructor
  · rintro ⟨xs, ys, htext, hys⟩
    have hne : ys ≠ [] := by
      rintro rfl
      exact hys rfl
    obtain ⟨front, rest, hbytes, rfl⟩ := exists_of_textChars_returns hne htext
    exact ⟨front, rest, hbytes, hys⟩
  · rintro ⟨front, rest, rfl, hrest⟩
    obtain ⟨xs, hxs⟩ := textChars_append_returns front rest
    exact ⟨xs, textChars rest, hxs, hrest⟩

@[simp] theorem toList_normalize (s : String) : (normalize s).toList = normalizeChars s.toList :=
  String.toList_ofList

theorem normalize_eq_iff {s t : String} : normalize s = t ↔ normalizeChars s.toList = t.toList := by
  rw [← String.toList_inj, toList_normalize]

end Capture

namespace Execution

variable {σ : Type} {launcher : Launcher σ} {options : ExecutionOptions} {t : Task}

theorem recorded_of_ne_buffer {sink : Option Sink} (h : sink ≠ some .buffer) (output : Output) :
    recorded sink output = "" := by
  unfold recorded
  split
  next => exact absurd rfl h
  next => rfl

/-- What is kept of the bytes of an output. -/
structure Kept (bytes : List UInt8) (text : String) : Prop where
  ends : text.toList.getLast? ≠ some '\n'
  pair : Capture.HasPair text.toList ↔
    ∃ front rest, bytes = front ++ [13, 13, 13, 10] ++ rest ∧
      Capture.normalize (Capture.text rest) ≠ ""
  again : Capture.normalize text = text ↔ ¬ Capture.HasPair text.toList

theorem kept_text (bytes : List UInt8) : Kept bytes (Capture.normalize (Capture.text bytes)) := by
  have htext : ∀ bytes : List UInt8, (Capture.normalize (Capture.text bytes)).toList =
      Capture.normalizeChars (Capture.textChars bytes) := by
    intro bytes
    rw [Capture.toList_normalize, Capture.text, String.toList_ofList]
  refine ⟨?_, ?_, ?_⟩
  · rw [htext]
    exact Capture.getLast?_normalizeChars _
  · simp only [ne_eq, ← String.toList_inj, htext]
    rw [Capture.hasPair_normalizeChars_textChars_iff]
    simp
  · rw [Capture.normalize_eq_iff, htext]
    exact Capture.normalizeChars_normalizeChars_iff

theorem kept_recorded (output : Output) :
    Kept (Capture.passed output) (recorded (some .buffer) output) := by
  rw [recorded, Capture.captured_eq_text]
  exact kept_text _

/-- How far outputs are normalized. Normalizing a text again changes it just if it had two carriage
returns before a line feed with more than line feeds behind it. And a step whose process ends, and
whose files take what is written to them, keeps of each output that is collected a text without a line
feed at its end; it has a line end of two characters, and would change if it were normalized again,
just if three carriage returns stand before a line feed in the bytes that come through the reader of
the output, and something else than blank lines behind it. Those are the bytes that the process has
written, however they are delivered, unless it has written a line longer than the limit. -/
theorem runStep_normalizes :
    (∀ s : String, Capture.normalize (Capture.normalize s) = Capture.normalize s ↔
      ¬ ∃ front rest, s.toList = front ++ ['\r', '\r', '\n'] ++ rest ∧
        Capture.normalize (String.ofList rest) ≠ "") ∧
      (∀ {launcher : Launcher σ} {options : ExecutionOptions} {step : Step} {t : Task}
        {w opened : World σ} {streams : Streams} {finished : Finished} {host : Host} {state : σ},
        openStreams options step t (workingDir? options t) w = (opened, .ok streams) →
        launcher (launchOf step t (workingDir? options t) streams) opened.host
          opened.launcher = (.ok finished, host, state) →
        streams.refusal? host (Capture.captured finished.stdout)
          (Capture.captured finished.stderr) = none →
        ∃ u, (runStep launcher options step t w).2 = .ok u ∧
          (streams.stdout = some .buffer → Kept (Capture.passed finished.stdout) u.stdout) ∧
          (streams.stderr = some .buffer → Kept (Capture.passed finished.stderr) u.stderr)) ∧
      ∀ output : Output, Capture.Within Capture.lineLimit output.flatten →
        Capture.passed output = output.flatten := by
  refine ⟨?_, ?_, ?_⟩
  · intro s
    rw [Capture.normalize_eq_iff, Capture.toList_normalize, Capture.normalizeChars_normalizeChars_iff,
      Capture.hasPair_normalizeChars_iff]
    simp [← String.toList_inj]
  · intro launcher options step t w opened streams finished host state hopen hstart hkept
    have hran := runStep_outcome hopen hstart
    rw [hkept] at hran
    refine ⟨_, hran, ?_, ?_⟩
    · intro hout
      rw [hout]
      exact kept_recorded _
    · intro herr
      rw [herr]
      exact kept_recorded _
  · intro output hwithin
    exact (Capture.passed_of_within hwithin).1

/-- Two carriage returns before a line feed are no more than one line end, also where the two are
delivered one after the other. -/
theorem runStep_normalizes_returns :
    let output : Output := [[0x61, 13], [13, 10, 0x62, 10, 13, 10]]
    let launcher : Launcher Unit := fun _ host s => (.ok { stdout := output }, host, s)
    let options : ExecutionOptions := { collectStdout := true }
    let step : Step := { path := "p" }
    let t : Task := { path := "/d/f", relative := "f", name := "f" }
    let w : World Unit :=
      { host := { root := .dir [], cwd := "/", environment := ⟨[], [], "/"⟩ }, launcher := () }
    openStreams options step t (workingDir? options t) w = (w, .ok { stdout := some .buffer }) ∧
      ∃ u, (runStep launcher options step t w).2 = .ok u ∧
        Kept [0x61, 13, 13, 10, 0x62, 10, 13, 10] u.stdout := by
  intro output launcher options step t w
  have hopen : openStreams options step t (workingDir? options t) w =
      (w, .ok { stdout := some .buffer }) := rfl
  have hstart : launcher (launchOf step t (workingDir? options t) { stdout := some .buffer }) w.host
      w.launcher = (.ok { stdout := output }, w.host, ()) := rfl
  obtain ⟨-, hkeeps, hpasses⟩ := @runStep_normalizes Unit
  have hall := hpasses output (Capture.within_of_length_le (by decide))
  obtain ⟨u, hu, hout, -⟩ := hkeeps hopen hstart rfl
  have hrecorded := hout rfl
  rw [hall] at hrecorded
  exact ⟨hopen, u, hu, hrecorded⟩

/-- A line end of two characters is left where three carriage returns stood before a line feed, and
normalizing the text again takes it away. -/
theorem run_keeps_pair_of_returns :
    let bytes : List UInt8 := [0x61, 13, 13, 13, 10, 0x62, 10]
    let t : Task := { path := "/a/f", relative := "f", name := "f" }
    let w : World Unit :=
      { host := { root := .dir [], cwd := "/", environment := ⟨[], [], "/"⟩ }, launcher := () }
    let ended := (run (fun _ host s => (.ok { stdout := [bytes] }, host, s)) (Chain.parse ["p"])
      { collectStdout := true } .returning t w).2.1
    ended.stdout = "a\r\nb" ∧ Capture.HasPair ended.stdout.toList ∧
      Capture.normalize ended.stdout = "a\nb" ∧
      Capture.normalize (Capture.normalize "\r\r\nx") ≠ Capture.normalize "\r\r\nx" := by
  decide +kernel

theorem stdout_runSteps {P : String → Prop}
    (hstep : ∀ (step : Step) (t : Task) (w : World σ) (u : Task),
      (runStep launcher options step t w).2 = .ok u → P u.stdout)
    (steps : List Step) (w : World σ) (ht : P t.stdout) :
    P (runSteps launcher options steps t w).2.1.stdout := by
  induction steps generalizing t w with
  | nil => exact ht
  | cons step rest ih =>
    have hran := hstep step t w
    rw [runSteps]
    cases hrun : runStep launcher options step t w with
    | mk w' outcome =>
      rw [hrun] at hran
      cases outcome with
      | error a => cases a <;> exact ht
      | ok u =>
        have hu : P u.stdout := hran u rfl
        simp only
        cases proceeds? step.continuation u.exitCode with
        | error f => exact hu
        | ok proceed =>
          simp only
          split
          · exact hu
          · split
            · exact hu
            · exact ih w' hu

/-- As long as no process writes three carriage returns before a line feed, or too long a line, a
whole run leaves a file with a standard output that normalizing leaves alone. -/
theorem normalize_run_stdout
    (hwrites : ∀ l host state f, (launcher l host state).1 = .ok f →
      ¬ [13, 13, 13, 10] <:+: f.stdout.flatten ∧ Capture.Within Capture.lineLimit f.stdout.flatten)
    (chain : Chain) (callback : Callback) (w : World σ) (ht : Capture.normalize t.stdout = t.stdout) :
    Capture.normalize (run launcher chain options callback t w).2.1.stdout =
      (run launcher chain options callback t w).2.1.stdout := by
  have hstep : ∀ (step : Step) (t : Task) (w : World σ) (u : Task),
      (runStep launcher options step t w).2 = .ok u → Capture.normalize u.stdout = u.stdout := by
    intro step t w u hu
    have hran := runStep_ran launcher options step t w
    rw [hu] at hran
    cases hran with
    | @exited opened streams finished host state hopen hstart hkept =>
      simp only
      by_cases hbuffer : streams.stdout = some .buffer
      · obtain ⟨hreturns, hwithin⟩ := hwrites _ _ _ _ (congrArg Prod.fst hstart)
        have hoften := kept_recorded finished.stdout
        rw [(Capture.passed_of_within hwithin).1] at hoften
        rw [hbuffer, hoften.again, hoften.pair]
        rintro ⟨front, rest, hbytes, -⟩
        exact hreturns ⟨front, rest, hbytes.symm⟩
      · rw [recorded_of_ne_buffer hbuffer]
        rfl
  have hbegun : Capture.normalize ({ t with completed := false } : Task).stdout = t.stdout := ht
  have hsteps := stdout_runSteps (P := fun text => Capture.normalize text = text) hstep chain.steps
    (w.log .debug ("EXEC: enter " ++ t.path)) hbegun
  obtain ⟨-, hresult⟩ := run_quiet launcher chain options callback t w rfl
  rw [hresult]
  exact hsteps

end Execution
end FileSweep
