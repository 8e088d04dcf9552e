import FileSweep.Proofs.Readers
import FileSweep.Proofs.Resolution
import FileSweep.Proofs.Streams
import Mathlib.Control.Monad.Basic

/-! What a sink takes in. A name that is opened for writing leads to a file, which is empty or, where
one appends, as it was before; closing the sink leaves in it what was captured, behind what was there,
unless the file refuses it. -/
namespace FileSweep

namespace Host

/-- What a name resolves to is there: an entry that is no link, or a name that a directory has not
given to anything. -/
def Place.Stands (root : Entry) : Place → Prop
  | .taken names => ∃ e, root.at? names = some e ∧ e.isLink = false
  | .free parent name =>
    ∃ children, root.at? parent = some (.dir children) ∧ children.lookup name = none

variable {root : Entry} {here : List String} {part : String} {children : List (String × Entry)}
  {place : Place}

theorem at?_child (hhere : root.at? here = some (.dir children)) (name : String) :
    root.at? (here ++ [name]) = children.lookup name := by
  rw [Entry.at?_append, hhere, Option.bind_some, Entry.at?, Entry.child?, Entry.children]
  cases children.lookup name <;> rfl

theorem exists_dir_above (hhere : root.at? here = some (.dir children)) :
    ∃ cs, root.at? here.dropLast = some (.dir cs) := by
  rcases List.eq_nil_or_concat here with rfl | ⟨front, name, rfl⟩
  · exact ⟨children, hhere⟩
  · rw [List.concat_eq_append] at hhere
    rw [List.concat_eq_append, List.dropLast_concat]
    exact Entry.exists_dir_of_at?_append hhere

theorem stands_of_walkWith {onLink : List String → List String → Except OsError Place}
    (honLink : ∀ here parts, parts ≠ [] → onLink here parts = .ok place → place.Stands root)
    {parts : List String} (hstart : parts = [] → ∃ e, root.at? here = some e ∧ e.isLink = false)
    (h : walkWith root true onLink here parts = .ok place) : place.Stands root := by
  induction parts generalizing here with
  | nil =>
    cases h
    exact hstart rfl
  | cons part rest ih =>
    obtain ⟨children, hhere, hturn | ⟨rfl, hfree⟩⟩ := walkWith_cases h
    · cases hturn with
      | stay hstay =>
        rw [walkWith_stay hstay hhere] at h
        exact ih (fun _ => ⟨_, hhere, rfl⟩) h
      | up hup =>
        subst hup
        rw [walkWith_up hhere] at h
        obtain ⟨cs, habove⟩ := exists_dir_above hhere
        exact ih (fun _ => ⟨_, habove, rfl⟩) h
      | follow hlooks target hchild =>
        rw [walkWith_follow hlooks hhere hchild] at h
        exact honLink _ _ (List.append_ne_nil_of_left_ne_nil (Path.parts_ne_nil target) rest) h
      | enter hlooks e hchild hlink =>
        rw [walkWith_enter hlooks hhere hchild hlink] at h
        exact ih (fun _ => ⟨e, (at?_child hhere part).trans hchild, hlink⟩) h
    · exact ⟨children, hhere, hfree⟩

theorem stands_of_walk {links : Nat} {parts : List String} (hne : parts ≠ [])
    (h : walk root true links here parts = .ok place) : place.Stands root := by
  induction links generalizing here parts with
  | zero =>
    rw [walk] at h
    exact stands_of_walkWith (fun _ _ _ hlink => by cases hlink) (fun hnil => absurd hnil hne) h
  | succ links ih =>
    rw [walk] at h
    exact stands_of_walkWith (fun _ _ hparts => ih hparts) (fun hnil => absurd hnil hne) h

theorem stands_of_locate {h : Host} {path : String} (hplace : h.locate path = .ok place) :
    place.Stands h.root := by
  unfold locate at hplace
  split at hplace
  next => cases hplace
  next =>
    split at hplace
    next => cases hplace
    next => exact stands_of_walk (Path.parts_ne_nil path) hplace

/-- The bytes that a file opened for writing begins with: none, or those that were there. -/
def keptBytes (h : Host) (names : List String) : WriteMode → List UInt8
  | .truncate => []
  | .append => h.contentAt names

theorem file_of_openWrite {h h' : Host} {path : String} {mode : WriteMode} {names : List String}
    (hopen : h.openWrite path mode = .ok (h', names)) :
    (∃ program, h'.root.at? names = some (.program program)) ∨
      ∃ permissions, h'.root.at? names = some (.file (h.keptBytes names mode) permissions) := by
  unfold openWrite at hopen
  split at hopen
  next => cases hopen
  next =>
    split at hopen
    next => split at hopen <;> cases hopen
    next =>
      split at hopen
      next => cases hopen
      next parent name hplace =>
        cases hopen
        obtain ⟨children, hparent, hfree⟩ := stands_of_locate hplace
        have hnone : h.root.at? (parent ++ [name]) = none := (at?_child hparent name).trans hfree
        have hempty : h.keptBytes (parent ++ [name]) mode = [] := by
          cases mode with
          | truncate => rfl
          | append => rw [keptBytes, contentAt, hnone]
        exact Or.inr ⟨fileMode, by rw [hempty]; exact Entry.at?_put ..⟩
      next taken hplace =>
        obtain ⟨e, he, hlink⟩ := stands_of_locate hplace
        rw [he] at hopen
        cases e with
        | link target => cases hlink
        | dir children => cases hopen
        | program program => cases hopen; exact Or.inl ⟨program, he⟩
        | file content permissions =>
          refine Or.inr ⟨permissions, ?_⟩
          cases mode with
          | truncate => cases hopen; exact Entry.at?_put ..
          | append => cases hopen; rw [keptBytes, contentAt, he]

end Host

namespace Execution

variable {σ : Type}

/-- A sink that is closed has written its text behind what was in its file, or over that. -/
theorem contentAt_closeSink {w : World σ} {names : List String} {content : List UInt8}
    {permissions : Nat} (hfile : w.host.root.at? names = some (.file content permissions))
    (path : String) (append : Bool) {text : String}
    (hkept : w.host.refusal? names (Text.encode text) = none) :
    (closeSink w (some (.file path names append)) text).1.host.contentAt names =
      if append then content ++ Text.encode text
      else Text.encode text ++ content.drop (Text.encode text).length := by
  simp only [closeSink, hkept]
  cases append with
  | true => simp [World.note, Host.appendAt, hfile, Host.putEntry, Host.contentAt, Entry.at?_put]
  | false => simp [World.note, Host.overwriteAt, hfile, Host.putEntry, Host.contentAt, Entry.at?_put]

theorem openWrite_of_openSlot {h h' : Host} {t : Task} {workingDir : Option String} {r : Redirection}
    {path : String} {names : List String} {append : Bool}
    (hopen : openSlot h t workingDir r = .ok (h', .file path names append)) :
    h.openWrite path (if append then .append else .truncate) = .ok (h', names) := by
  unfold openSlot at hopen
  split at hopen
  next => cases hopen
  next target _ _ =>
    simp only at hopen
    cases hwrite : h.openWrite (resolveTarget t workingDir target)
      (if r.append then .append else .truncate) with
    | error e => rw [hwrite] at hopen; cases hopen
    | ok opened =>
      obtain ⟨host, place⟩ := opened
      rw [hwrite] at hopen
      cases hopen
      exact hwrite
  next => cases hopen

/-- No text of an output is lost in its sink. What is captured line by line is the text that all the
bytes decode to, with its line ends settled; if no line is longer than the limit it does not matter
how the bytes are cut into pieces on their way. And the file of a sink, if nobody else writes to it
while it is open, holds the encoding of that text when it is closed, behind its old content if the
sink appends; unless the file refuses to be written to, which then is the error of the closing. -/
theorem sinks_keep_text (bytes : List UInt8) :
    Capture.text bytes = Capture.settle (Text.decodeLossy bytes) ∧
      (∀ output : Output, output.flatten = bytes → Capture.Within Capture.lineLimit bytes →
        Capture.captured output = Capture.text bytes) ∧
      ∀ {h h' : Host} {t : Task} {workingDir : Option String} {r : Redirection} {path : String}
        {names : List String} {append : Bool} {w : World σ},
        openSlot h t workingDir r = .ok (h', .file path names append) →
        (∀ program, h'.root.at? names ≠ some (.program program)) →
        w.host.root.at? names = h'.root.at? names →
        let closed := closeSink w (some (.file path names append)) (Capture.text bytes)
        let refusal? := w.host.refusal? names (Text.encode (Capture.text bytes))
        closed.2 = refusal?.map .unwritten ∧
          (refusal? = none → closed.1.host.contentAt names =
            (if append then h.contentAt names else []) ++
              Text.encode (Capture.settle (Text.decodeLossy bytes))) := by
  refine ⟨Capture.text_eq_settle bytes, ?_, ?_⟩
  · rintro output rfl hwithin
    exact Capture.captured_of_within hwithin
  intro h h' t workingDir r path names append w hopen hprogram hkept closed refusal?
  refine ⟨(closeSink_spec w _ _).2, fun hnone => ?_⟩
  obtain ⟨program, hfile⟩ | ⟨permissions, hfile⟩ := Host.file_of_openWrite (openWrite_of_openSlot hopen)
  · exact absurd hfile (hprogram program)
  · rw [contentAt_closeSink (hkept.trans hfile) path append hnone, Capture.text_eq_settle]
    cases append with
    | true => rfl
    | false => simp [Host.keptBytes]

/-- A character that is cut off by the end of its line, two carriage returns, an empty line, and a
line that is cut off by the end of the output. -/
theorem sinks_keep_text_of_broken_lines :
    let h : Host :=
      { root := .dir [("log", .file [0x2E] 0o644)], cwd := "/", environment := ⟨[], [], "/"⟩ }
    let t : Task := { path := "/d/log", relative := "log", name := "log" }
    let r : Redirection := { target := .file, path := some "/%DIRUN_FNAME%", append := true }
    let w : World Unit := { host := h, launcher := () }
    openSlot h t none r = .ok (h, .file "/log" ["log"] true) ∧
      Capture.captured [[0xE2], [0x82, 0x0D, 0x0D, 0x0A, 0x0A, 0xC3]] =
        Capture.text [0xE2, 0x82, 0x0D, 0x0D, 0x0A, 0x0A, 0xC3] ∧
      (closeSink w (some (.file "/log" ["log"] true))
        (Capture.text [0xE2, 0x82, 0x0D, 0x0D, 0x0A, 0x0A, 0xC3])).1.host.contentAt ["log"] =
          0x2E :: Text.encode "\uFFFD\r\n\n\uFFFD\n" := by
  intro h t r w
  have hopen : openSlot h t none r = .ok (h, .file "/log" ["log"] true) := by
    have htarget : resolveTarget t none "/%DIRUN_FNAME%" = "/log" := by decide +kernel
    have hfault : h.nameFault? "/log" = none := by decide +kernel
    have hbare : Host.beforeSlashes? "/log" = none := by decide +kernel
    have hplace : h.locate "/log" = .ok (.taken ["log"]) := by decide +kernel
    have hfile : h.root.at? ["log"] = some (.file [0x2E] 0o644) := rfl
    have hwrite : h.openWrite "/log" .append = .ok (h, ["log"]) := by
      simp only [Host.openWrite, hfault, hbare, hplace, hfile]
    simp only [openSlot, r, if_true]
    rw [htarget, hwrite]
    rfl
  have hprogram : ∀ program, h.root.at? ["log"] ≠ some (.program program) := by
    rintro program hfile
    cases hfile
  obtain ⟨-, hcaptured, hsink⟩ :=
    @sinks_keep_text Unit [0xE2, 0x82, 0x0D, 0x0D, 0x0A, 0x0A, 0xC3]
  have hshort := @Capture.within_of_length_le Capture.lineLimit
    [0xE2, 0x82, 0x0D, 0x0D, 0x0A, 0x0A, 0xC3] (by decide)
  have hkept := (hsink (w := w) hopen hprogram rfl).2 rfl
  have hsettled : (if true then h.contentAt ["log"] else []) ++
      Text.encode (Capture.settle (Text.decodeLossy [0xE2, 0x82, 0x0D, 0x0D, 0x0A, 0x0A, 0xC3])) =
        0x2E :: Text.encode "\uFFFD\r\n\n\uFFFD\n" := by
    decide +kernel
  exact ⟨hopen, hcaptured _ rfl hshort, hkept.trans hsettled⟩

end Execution
end FileSweep
