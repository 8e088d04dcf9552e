import FileSweep.Execution
import Mathlib.Data.List.Infix

/-! Closing the streams of a step. They are closed in the order of their opening, up to the first
whose file refuses the text that goes into it; with nothing to write, all of them are. Closing
touches nothing but files. -/
namespace FileSweep

namespace Sink

def name? : Sink → Option String
  | .file path _ _ => some path
  | _ => none

/-- Why the file behind a sink does not take a text. -/
def refusal? (h : Host) (text : String) : Sink → Option OsError
  | .file _ names _ => h.refusal? names (Text.encode text)
  | _ => none

end Sink

namespace Streams

/-- The files behind the streams of a step, in the order in which they are opened. -/
def names (streams : Streams) : List String :=
  (streams.stdout.bind Sink.name?).toList ++ (streams.stderr.bind Sink.name?).toList ++
    (streams.stdin.map Prod.fst).toList

def refusal? (streams : Streams) (h : Host) (out err : String) : Option OsError :=
  streams.stdout.bind (Sink.refusal? h out) <|> streams.stderr.bind (Sink.refusal? h err)

end Streams

namespace Host

theorem refusal?_congr {h h' : Host} (hsame : h'.unwritable = h.unwritable) (names : List String)
    (bytes : List UInt8) : h'.refusal? names bytes = h.refusal? names bytes := by
  rw [refusal?, hsame, refusal?]

end Host

/-- Two hosts that pass names on alike, and whose files refuse the same writes. -/
structure Host.SameDevices (h h' : Host) : Prop where
  encoding : h'.encoding = h.encoding
  unwritable : h'.unwritable = h.unwritable

namespace Host.SameDevices

variable {h h' h'' : Host}

theorem refl (h : Host) : SameDevices h h := ⟨rfl, rfl⟩

theorem trans (hfirst : SameDevices h h') (hnext : SameDevices h' h'') : SameDevices h h'' :=
  ⟨hnext.encoding.trans hfirst.encoding, hnext.unwritable.trans hfirst.unwritable⟩

theorem nameFault?_eq (hsame : SameDevices h h') (name : String) :
    h'.nameFault? name = h.nameFault? name := by
  rw [nameFault?, hsame.encoding, nameFault?]

theorem refusal?_eq (hsame : SameDevices h h') (names : List String) (bytes : List UInt8) :
    h'.refusal? names bytes = h.refusal? names bytes :=
  refusal?_congr hsame.unwritable names bytes

/-- Writing to a file changes nothing of which writes are taken. -/
theorem appendAt (h : Host) (names : List String) (bytes : List UInt8) :
    SameDevices h (h.appendAt names bytes) := by
  unfold Host.appendAt
  split <;> exact ⟨rfl, rfl⟩

theorem overwriteAt (h : Host) (names : List String) (bytes : List UInt8) :
    SameDevices h (h.overwriteAt names bytes) := by
  unfold Host.overwriteAt
  split <;> exact ⟨rfl, rfl⟩

end Host.SameDevices

/-- Between two moments some files were closed, and nothing else was done but to write to them. -/
structure World.Closes {σ : Type} (w w' : World σ) (names : List String) : Prop where
  devices : w.host.SameDevices w'.host
  launcher : w'.launcher = w.launcher
  gate : w'.gate = w.gate
  trace : w'.trace = w.trace ++ names.map Event.closed

namespace World.Closes

variable {σ : Type} {w w' w'' : World σ} {names later : List String}

theorem refl (w : World σ) : Closes w w [] := ⟨.refl _, rfl, rfl, by simp⟩

theorem trans (h : Closes w w' names) (hnext : Closes w' w'' later) :
    Closes w w'' (names ++ later) where
  devices := h.devices.trans hnext.devices
  launcher := hnext.launcher.trans h.launcher
  gate := hnext.gate.trans h.gate
  trace := by rw [hnext.trace, h.trace, List.append_assoc, List.map_append]

theorem note (w : World σ) (path : String) : Closes w (w.note [.closed path]) [path] :=
  ⟨.refl _, rfl, rfl, rfl⟩

end World.Closes

namespace Execution

variable {σ α : Type}

theorem closeSink_spec (w : World σ) (sink : Option Sink) (text : String) :
    w.Closes (closeSink w sink text).1 (sink.bind Sink.name?).toList ∧
      (closeSink w sink text).2 = (sink.bind (Sink.refusal? w.host text)).map .unwritten := by
  rcases sink with _ | _ | _ | ⟨path, names, append⟩
  · exact ⟨.refl w, rfl⟩
  · exact ⟨.refl w, rfl⟩
  · exact ⟨.refl w, rfl⟩
  · simp only [closeSink, Option.bind_some, Sink.name?, Sink.refusal?]
    split
    next error hrefusal => exact ⟨.note w path, by rw [hrefusal]; rfl⟩
    next hnone =>
      refine ⟨⟨?_, rfl, rfl, rfl⟩, by rw [hnone]; rfl⟩
      cases append with
      | false => exact .overwriteAt w.host names _
      | true => exact .appendAt w.host names _

/-- The streams of a step are closed in the order of their opening: all of them, or those up to the
first whose file refuses its text. -/
theorem closeStreams_spec (w : World σ) (streams : Streams) (out err : String) :
    ∃ names, w.Closes (closeStreams w streams out err).1 names ∧ names <+: streams.names ∧
      (closeStreams w streams out err).2 = (streams.refusal? w.host out err).map .unwritten ∧
      (streams.refusal? w.host out err = none → names = streams.names) := by
  obtain ⟨hout, hrefused⟩ := closeSink_spec w streams.stdout out
  unfold closeStreams Streams.refusal? Streams.names
  cases hfirst : closeSink w streams.stdout out with
  | mk v refused =>
    rw [hfirst] at hout hrefused
    cases hcase : streams.stdout.bind (Sink.refusal? w.host out) with
    | some error =>
      obtain rfl : refused = some (.unwritten error) := by simpa [hcase] using hrefused
      exact ⟨_, hout, by simp [List.append_assoc], rfl, by simp⟩
    | none =>
      obtain rfl : refused = none := by simpa [hcase] using hrefused
      obtain ⟨herr, hrefused'⟩ := closeSink_spec v streams.stderr err
      have hsame : streams.stderr.bind (Sink.refusal? v.host err) =
          streams.stderr.bind (Sink.refusal? w.host err) := by
        congr 1
        funext k
        cases k <;> simp [Sink.refusal?, hout.devices.refusal?_eq]
      rw [hsame] at hrefused'
      simp only
      cases hsecond : closeSink v streams.stderr err with
      | mk u refused' =>
        rw [hsecond] at herr hrefused'
        have hsinks := hout.trans herr
        cases hcase' : streams.stderr.bind (Sink.refusal? w.host err) with
        | some error =>
          obtain rfl : refused' = some (.unwritten error) := by simpa [hcase'] using hrefused'
          exact ⟨_, hsinks, by simp, rfl, by simp⟩
        | none =>
          obtain rfl : refused' = none := by simpa [hcase'] using hrefused'
          cases hinput : streams.stdin with
          | none => exact ⟨_, hsinks, by simp, rfl, by simp⟩
          | some file => exact ⟨_, hsinks.trans (.note u file.1), by simp, rfl, by simp⟩

theorem closeWith_eq (w : World σ) (streams : Streams) (out err : String) (outcome : Except Abort α) :
    closeWith w streams out err outcome = ((closeStreams w streams out err).1,
      match streams.refusal? w.host out err with
      | some error => .error (.escaped (.unwritten error))
      | none => outcome) := by
  obtain ⟨names, -, -, hrefused, -⟩ := closeStreams_spec w streams out err
  unfold closeWith
  cases hclose : closeStreams w streams out err with
  | mk v refused =>
    rw [hclose] at hrefused
    obtain rfl : refused = _ := hrefused
    cases streams.refusal? w.host out err <;> rfl

theorem closeWith_closes (w : World σ) (streams : Streams) (out err : String)
    (outcome : Except Abort α) :
    ∃ names, w.Closes (closeWith w streams out err outcome).1 names := by
  obtain ⟨names, hcloses, -⟩ := closeStreams_spec w streams out err
  exact ⟨names, by rw [closeWith_eq]; exact hcloses⟩

@[simp] theorem refusal?_empty (streams : Streams) (h : Host) : streams.refusal? h "" "" = none := by
  have hsink : ∀ sink : Option Sink, sink.bind (Sink.refusal? h "") = none := by
    rintro (_ | (_ | _ | _)) <;> rfl
  rw [Streams.refusal?, hsink, hsink]
  rfl

theorem refusal?_of_unwritable {h : Host} (htakes : h.unwritable = []) (streams : Streams)
    (out err : String) : streams.refusal? h out err = none := by
  have hsink : ∀ (text : String) (sink : Option Sink), sink.bind (Sink.refusal? h text) = none := by
    rintro text (_ | _ | _ | ⟨path, names, append⟩)
    · rfl
    · rfl
    · rfl
    · simp [Sink.refusal?, Host.refusal?, htakes]
  rw [Streams.refusal?, hsink, hsink]
  rfl

theorem closeWith_empty (w : World σ) (streams : Streams) (outcome : Except Abort α) :
    (closeWith w streams "" "" outcome).2 = outcome ∧
      w.Closes (closeWith w streams "" "" outcome).1 streams.names := by
  obtain ⟨names, hcloses, -, -, hall⟩ := closeStreams_spec w streams "" ""
  rw [refusal?_empty] at hall
  rw [closeWith_eq, refusal?_empty]
  exact ⟨rfl, hall rfl ▸ hcloses⟩

/-- Giving up opening closes what is open or nothing at all. -/
theorem abandon_spec (w : World σ) (streams : Streams) (e : AccessError) :
    (abandon w streams e : World σ × Except Abort α).2 = .error (.ofOpening e) ∧
      ∃ names, w.Closes (abandon w streams e : World σ × Except Abort α).1 names ∧
        ∀ error name, e = .os error name → names = streams.names := by
  cases e with
  | os error name =>
    obtain ⟨houtcome, hcloses⟩ :=
      @closeWith_empty σ α w streams (.error (.ofOpening (.os error name)))
    exact ⟨houtcome, _, hcloses, fun _ _ _ => rfl⟩
  | nulInName => exact ⟨rfl, [], .refl w, by simp⟩
  | unencodable encoding position run => exact ⟨rfl, [], .refl w, by simp⟩
  | unwritten error => exact ⟨rfl, [], .refl w, by simp⟩

theorem abandon_ne_ok {w v : World σ} {streams : Streams} {e : AccessError} {a : α} :
    abandon w streams e ≠ (v, .ok a) := by
  intro hok
  have houtcome := (@abandon_spec σ α w streams e).1
  rw [hok] at houtcome
  cases houtcome

theorem logged_of_dropEvents {streams : Streams} {f : Finished} {e : Event}
    (he : e ∈ dropEvents streams.stdout f.stdout ++ dropEvents streams.stderr f.stderr) :
    ∃ record, e = .logged record := by
  have hreader : ∀ {sink : Option Sink} {output : Output}, e ∈ dropEvents sink output →
      ∃ record, e = .logged record := by
    intro sink output he
    unfold dropEvents at he
    split at he
    · obtain ⟨reason, -, rfl⟩ := List.mem_map.mp he
      exact ⟨_, rfl⟩
    · cases he
  exact (List.mem_append.mp he).elim hreader hreader

section runStep

variable {launcher : Launcher σ} {options : ExecutionOptions} {step : Step} {t : Task} {w : World σ}

def launched (step : Step) (t : Task) (workingDir : Option String) (streams : Streams)
    (opened : World σ) (host : Host) (state : σ) : World σ :=
  { opened.note [.launched (launchOf step t workingDir streams) t.exitCode]
    with host, launcher := state }

/-- All that running a step can do: it cannot open its streams, it opens them and its process is not
started, or the process ends. -/
inductive Stepped (launcher : Launcher σ) (options : ExecutionOptions) (step : Step) (t : Task)
    (w : World σ) : World σ × Except Abort Task → Prop
  | unopened {opened : World σ} {a : Abort}
      (hopen : openStreams options step t (workingDir? options t) w = (opened, .error a)) :
      Stepped launcher options step t w (opened, .error a)
  | unstarted {opened : World σ} {streams : Streams} {message : String} {host : Host} {state : σ}
      (hopen : openStreams options step t (workingDir? options t) w = (opened, .ok streams))
      (hstart : launcher (launchOf step t (workingDir? options t) streams) opened.host
        opened.launcher = (.error message, host, state)) :
      Stepped launcher options step t w
        (closeWith (launched step t (workingDir? options t) streams opened host state) streams "" ""
          (.error (.failed (.launch message))))
  | exited {opened : World σ} {streams : Streams} {finished : Finished} {host : Host} {state : σ}
      (hopen : openStreams options step t (workingDir? options t) w = (opened, .ok streams))
      (hstart : launcher (launchOf step t (workingDir? options t) streams) opened.host
        opened.launcher = (.ok finished, host, state)) :
      Stepped launcher options step t w
        (closeWith
          ((launched step t (workingDir? options t) streams opened host state).note
            (dropEvents streams.stdout finished.stdout ++ dropEvents streams.stderr finished.stderr))
          streams (Capture.captured finished.stdout) (Capture.captured finished.stderr)
          (.ok { t with
            stdout := recorded streams.stdout finished.stdout
            stderr := recorded streams.stderr finished.stderr
            exitCode := finished.status }))

theorem runStep_stepped (launcher : Launcher σ) (options : ExecutionOptions) (step : Step) (t : Task)
    (w : World σ) : Stepped launcher options step t w (runStep launcher options step t w) := by
  unfold runStep
  simp only
  split
  next hopen => exact .unopened hopen
  next hopen =>
    split
    next hstart => exact .unstarted hopen hstart
    next hstart => exact .exited hopen hstart

/-- Unless one of its files refuses what was captured for it, a step whose process ends returns the
file with what is recorded of its outputs. -/
theorem runStep_outcome {opened : World σ} {streams : Streams} {finished : Finished} {host : Host}
    {state : σ}
    (hopen : openStreams options step t (workingDir? options t) w = (opened, .ok streams))
    (hstart : launcher (launchOf step t (workingDir? options t) streams) opened.host
      opened.launcher = (.ok finished, host, state)) :
    (runStep launcher options step t w).2 =
      match streams.refusal? host (Capture.captured finished.stdout)
        (Capture.captured finished.stderr) with
      | some error => .error (.escaped (.unwritten error))
      | none => .ok { t with
          stdout := recorded streams.stdout finished.stdout
          stderr := recorded streams.stderr finished.stderr
          exitCode := finished.status } := by
  simp only [runStep, hopen, World.note]
  rw [hstart]
  simp only [closeWith_eq]

end runStep

end Execution
end FileSweep
