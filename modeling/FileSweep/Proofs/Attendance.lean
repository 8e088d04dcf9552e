import FileSweep.Proofs.ChainControl
import FileSweep.Proofs.OneShot
import FileSweep.Proofs.Works

/-! Every file that is attended to is reported once, after all that is run on it, and counted
once, after the report; whether what is run on it ends well, fails or is cut short by an error that
escapes, and whether the report succeeds. So a gate that waits for a number of files is shut while
the last of them is reported, and open right after. -/
namespace FileSweep
namespace Gate

@[simp] theorem completed_marks (g : Gate) (k : Nat) :
    (g.after (List.replicate k .mark)).completed = g.completed + k := by
  induction k with
  | zero => rfl
  | succ k ih => rw [List.replicate_succ', after_concat, call, mark_completed, ih, Nat.add_assoc]

@[simp] theorem total_marks (g : Gate) (k : Nat) :
    (g.after (List.replicate k .mark)).total = g.total := by
  induction k with
  | zero => rfl
  | succ k ih => rw [List.replicate_succ', after_concat, call, mark_total, ih]

theorem released_marks {n : Nat} (hn : 0 < n) (k : Nat) :
    (after { total := some (n : Int) } (List.replicate k .mark)).released = true ↔ n ≤ k := by
  induction k with
  | zero => simpa using hn.ne'
  | succ k ih =>
    rw [List.replicate_succ', after_concat, call, mark, tryRelease_released]
    simp only [ih, total_marks, completed_marks, Option.some.injEq]
    omega

end Gate

/-- What a report leaves, the hook being called with the file and with the gate as it is then. -/
def Callback.events (callback : Callback) (t : Task) (released : Bool) : List Event :=
  match callback with
  | .absent => []
  | .returning => [.reported t released]
  | .raising =>
    [.reported t released,
      .logged ⟨.error, "Completion callback failed for " ++ t.path⟩]

namespace Execution

variable {σ ε : Type} {body : Body σ ε}

/-- What is run on a file works on it alone: it reports and counts nothing, and the file it comes
back with is that file. -/
structure Body.Proper (body : Body σ ε) : Prop where
  works : ∀ (t : Task) (w : World σ), w.Works (body t w).1
  sameFile : ∀ (t : Task) (w : World σ), t.SameFile (body t w).2.1

theorem runChain_proper (launcher : Launcher σ) (chain : Chain) (options : ExecutionOptions) :
    (runChain launcher chain options).Proper where
  works := works_runChain launcher chain options
  sameFile := by
    intro t w
    have hbegun : t.SameFile { t with completed := false } := ⟨rfl, rfl, rfl⟩
    by_cases hne : chain.steps = []
    · simpa [runChain, hne, runSteps] using hbegun
    · obtain ⟨-, -, -, -, -, -, -, -, w', final, escaped, hsteps, -, hfinal, -⟩ :=
        @runSteps_stops σ launcher options _ hne { t with completed := false } rfl w
      rw [runChain, hsteps]
      exact hbegun.trans hfinal

theorem trace_report (callback : Callback) (t : Task) (w : World σ) :
    ∃ rest, (report callback t w).trace =
        w.trace ++ callback.events t w.gate.released ++ .marked :: rest ∧
      ∀ e ∈ rest, ∃ record, e = .logged record := by
  have htold : (tell callback t w).trace = w.trace ++ callback.events t w.gate.released := by
    cases callback <;> simp [tell, Callback.events, World.log, World.note]
  unfold report World.passGate
  simp only
  split
  · exact ⟨[.logged (tell callback t w).gate.mark.1.releaseRecord], by simp [World.note, htold],
      by simp⟩
  · exact ⟨[], by simp [World.note, htold], by simp⟩

theorem attend_result (body : Body σ ε) (callback : Callback) (t : Task) (w : World σ) :
    (attend body callback t w).2 = (body t (w.log .debug ("EXEC: enter " ++ t.path))).2 := by
  unfold attend
  simp only
  split
  next e hescaped => exact Prod.ext rfl hescaped.symm
  next hescaped => exact Prod.ext rfl hescaped.symm

/-- All that happens to a file: what is run on it, then the report, then the count. -/
theorem trace_attend (hbody : body.Proper) (callback : Callback) (t : Task) (w : World σ) :
    let left := body t (w.log .debug ("EXEC: enter " ++ t.path))
    ∃ work rest, left.1.trace = w.trace ++ work ∧
      (attend body callback t w).1.trace =
        w.trace ++ work ++ callback.events left.2.1 w.gate.released ++ .marked :: rest ∧
      (∀ e ∈ work, e.ofChain = true) ∧ ∀ e ∈ rest, ∃ record, e = .logged record := by
  intro left
  have hentered : w.Works (w.log .debug ("EXEC: enter " ++ t.path)) :=
    .note w (by simp [Event.ofChain])
  have hworks := hentered.trans (hbody.works t _)
  obtain ⟨work, htrace, hwork⟩ := hworks.trace
  obtain ⟨rest, hreport, hrest⟩ := trace_report callback left.2.1 left.1
  rw [htrace, hworks.gate] at hreport
  unfold attend
  simp only
  split
  · exact ⟨work, rest, htrace, hreport, hwork, hrest⟩
  · refine ⟨work, rest ++ [.logged ⟨.debug, _⟩], htrace,
      (congrArg (· ++ [Event.logged ⟨.debug, _⟩]) hreport).trans (List.append_assoc _ _ _), hwork,
      ?_⟩
    intro e he
    rcases List.mem_append.mp he with he | he
    · exact hrest e he
    · exact ⟨_, List.mem_singleton.mp he⟩

def attendAll (body : Body σ ε) (files : List (Callback × Task)) (w : World σ) : World σ :=
  files.foldl (fun w file => (attend body file.1 file.2 w).1) w

theorem gate_attendAll (hbody : body.Proper) (files : List (Callback × Task)) (w : World σ) :
    (attendAll body files w).gate = w.gate.after (List.replicate files.length .mark) := by
  induction files generalizing w with
  | nil => rfl
  | cons file files ih =>
    have hrest := ih (attend body file.1 file.2 w).1
    rw [gate_attend hbody.works] at hrest
    exact hrest

theorem attendAll_append (body : Body σ ε) (before : List (Callback × Task)) (callback : Callback)
    (t : Task) (after : List (Callback × Task)) (w : World σ) :
    attendAll body (before ++ (callback, t) :: after) w =
      attendAll body after (attend body callback t (attendAll body before w)).1 := by
  rw [attendAll, List.foldl_append]
  rfl

/-- Whatever is run on files one after another, each of them is reported once, as it is left, and
counted once after that, and the report changes nothing of what comes back. After `k` files `k`
are counted; a gate that waits for all of them is shut while the last is reported and open when
that is counted. -/
theorem attendAll_accounts (hbody : body.Proper) (before : List (Callback × Task))
    (callback : Callback) (t : Task) (after : List (Callback × Task)) (w : World σ) :
    let files := before ++ (callback, t) :: after
    let entered := attendAll body before w
    let left := body t (entered.log .debug ("EXEC: enter " ++ t.path))
    let ended := attend body callback t entered
    attendAll body files w = attendAll body after ended.1 ∧
      ended.2 = left.2 ∧ t.SameFile ended.2.1 ∧
      (∃ work rest, left.1.trace = entered.trace ++ work ∧
        ended.1.trace = entered.trace ++ work ++
          callback.events ended.2.1 entered.gate.released ++ .marked :: rest ∧
        (∀ e ∈ work, e.ofChain = true) ∧ ∀ e ∈ rest, ∃ record, e = .logged record) ∧
      entered.gate.completed = w.gate.completed + before.length ∧
      ended.1.gate.completed = w.gate.completed + before.length + 1 ∧
      (w.gate = { total := some (files.length : Int) } →
        entered.gate.released = false ∧ (ended.1.gate.released = true ↔ after = [])) := by
  intro files entered left ended
  have hresult : ended.2 = left.2 := attend_result body callback t entered
  have hentered : entered.gate = w.gate.after (List.replicate before.length .mark) :=
    gate_attendAll hbody before w
  have hended : ended.1.gate = w.gate.after (List.replicate (before.length + 1) .mark) := by
    rw [List.replicate_succ', Gate.after_concat, ← hentered]
    exact gate_attend hbody.works callback t entered
  refine ⟨attendAll_append body before callback t after w, hresult, ?_, ?_, ?_, ?_, ?_⟩
  · rw [hresult]
    exact hbody.sameFile t _
  · rw [hresult]
    exact trace_attend hbody callback t entered
  · rw [hentered, Gate.completed_marks]
  · rw [hended, Gate.completed_marks, Nat.add_assoc]
  · intro hgate
    have hlength : files.length = before.length + after.length + 1 := by simp [files]; omega
    have hpositive : 0 < files.length := by omega
    rw [hgate] at hentered hended
    rw [← Bool.not_eq_true, hentered, hended, Gate.released_marks hpositive,
      Gate.released_marks hpositive, ← List.length_eq_zero_iff]
    omega

/-- Of three files one ends well, one fails, and an error escapes from the last. -/
theorem attendAll_accounts_of_escape :
    let body := runChain (fun _ host s => (.ok {}, host, s))
      (Chain.parse ["tool", "<", "%DIRUN_FPATH%"]) {}
    let file (path : String) : Task := { path, relative := path, name := path }
    let before := [(Callback.raising, file "/f"), (Callback.returning, file "/g")]
    let last := file "/\x00"
    let w : World Unit :=
      { host :=
          { root := .dir [("f", .file [] Host.fileMode)], cwd := "/", environment := ⟨[], [], "/"⟩ }
        launcher := ()
        gate := { total := some 3 } }
    body.Proper ∧ (attendAll body before w).reports.map Task.exitCode = [0, -1] ∧
      (attend body .raising last (attendAll body before w)).2 = (last, some .nulInName) ∧
      (attendAll body before w).gate.released = false ∧
      (attend body .raising last (attendAll body before w)).1.gate.released = true ∧
      (attend body .raising last (attendAll body before w)).1.gate.completed = 3 := by
  intro body file before last w
  have hbody : body.Proper := runChain_proper _ _ _
  obtain ⟨-, -, -, -, -, hcompleted, hgate⟩ := attendAll_accounts hbody before .raising last [] w
  obtain ⟨hshut, hopen⟩ := hgate rfl
  exact ⟨hbody, by decide +kernel, by decide +kernel, hshut, hopen.mpr rfl, hcompleted.trans rfl⟩

end Execution
end FileSweep
