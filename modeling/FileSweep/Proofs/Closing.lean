import FileSweep.Proofs.Numbers
import FileSweep.Proofs.Streams

/-! Opening and closing. A step closes what it has opened, in the same order, when its process has
ended, when that cannot be started, and when a later one of its files cannot be opened. Files are left
open by a name that cannot be passed to the system at all, and by a file that refuses what is written
to it. -/
namespace FileSweep

namespace Event

def opened? : Event → Option String
  | .opened path _ => some path
  | _ => none

def closed? : Event → Option String
  | .closed path => some path
  | _ => none

/-- Events after which everything that they opened is closed. -/
structure Tidy (events : List Event) : Prop where
  /-- Along the way, what is closed has been opened before. -/
  ordered : ∀ front, front <+: events → front.filterMap closed? <+: front.filterMap opened?
  /-- In the end everything is closed. -/
  settled : events.filterMap closed? = events.filterMap opened?

namespace Tidy

variable {events later : List Event}

theorem of_still (h : ∀ e ∈ events, e.opened? = none ∧ e.closed? = none) : Tidy events := by
  have hclosed : ∀ front, front <+: events → front.filterMap closed? = [] := fun front hfront =>
    List.filterMap_eq_nil_iff.mpr fun e he => (h e (hfront.subset he)).2
  have hopened : events.filterMap opened? = [] :=
    List.filterMap_eq_nil_iff.mpr fun e he => (h e he).1
  refine ⟨fun front hfront => ?_, ?_⟩
  · rw [hclosed front hfront]
    exact List.nil_prefix
  · rw [hclosed events (List.prefix_refl events), hopened]

theorem prefix_append_cases {front : List Event} (h : front <+: events ++ later) :
    front <+: events ∨ ∃ more, front = events ++ more ∧ more <+: later := by
  rcases List.prefix_or_prefix_of_prefix h (List.prefix_append events later) with h' | ⟨more, rfl⟩
  · exact Or.inl h'
  · exact Or.inr ⟨more, rfl, (List.prefix_append_right_inj events).mp h⟩

theorem append (h : Tidy events) (hlater : Tidy later) : Tidy (events ++ later) := by
  refine ⟨fun front hfront => ?_, by rw [List.filterMap_append, List.filterMap_append, h.settled,
    hlater.settled]⟩
  rcases prefix_append_cases hfront with hfront | ⟨more, rfl, hmore⟩
  · exact h.ordered front hfront
  · rw [List.filterMap_append, List.filterMap_append, h.settled, List.prefix_append_right_inj]
    exact hlater.ordered more hmore

theorem of_closing {names : List String} (hopened : events.filterMap opened? = names)
    (hclosed : events.filterMap closed? = []) : Tidy (events ++ names.map Event.closed) := by
  have hall : (names.map Event.closed).filterMap closed? = names := by
    simp [List.filterMap_map, Function.comp_def, closed?]
  have hnone : (names.map Event.closed).filterMap opened? = [] := by
    simp [List.filterMap_map, Function.comp_def, opened?]
  refine ⟨fun front hfront => ?_, by simp [hopened, hclosed, hall, hnone]⟩
  rcases prefix_append_cases hfront with hfront | ⟨more, rfl, hmore⟩
  · have hfirst := hfront.filterMap closed?
    rw [hclosed, List.prefix_nil] at hfirst
    rw [hfirst]
    exact List.nil_prefix
  · have hlast := hmore.filterMap closed?
    rw [hall] at hlast
    rw [List.filterMap_append, List.filterMap_append, hclosed, hopened, List.nil_append]
    exact hlast.trans (List.prefix_append names _)

end Tidy
end Event

def World.Tidies {σ : Type} (w w' : World σ) : Prop :=
  ∃ events, w'.trace = w.trace ++ events ∧ Event.Tidy events

namespace World.Tidies

variable {σ : Type} {w w' w'' : World σ}

theorem of_still {events : List Event} (htrace : w'.trace = w.trace ++ events)
    (h : ∀ e ∈ events, e.opened? = none ∧ e.closed? = none) : Tidies w w' :=
  ⟨events, htrace, .of_still h⟩

theorem refl (w : World σ) : Tidies w w := @of_still σ w w [] (by simp) (by simp)

theorem trans (h : Tidies w w') (hnext : Tidies w' w'') : Tidies w w'' := by
  obtain ⟨events, htrace, htidy⟩ := h
  obtain ⟨later, htrace', htidy'⟩ := hnext
  exact ⟨events ++ later, by rw [htrace', htrace, List.append_assoc], htidy.append htidy'⟩

theorem log (w : World σ) (level : Level) (message : String) : Tidies w (w.log level message) :=
  of_still rfl (by simp [Event.opened?, Event.closed?])

end World.Tidies

namespace Execution

variable {σ : Type}

theorem opened_openEvents (sink : Option Sink) :
    (openEvents sink).filterMap Event.opened? = (sink.bind Sink.name?).toList ∧
      (openEvents sink).filterMap Event.closed? = [] := by
  cases sink with
  | none => exact ⟨rfl, rfl⟩
  | some sink => cases sink <;> exact ⟨rfl, rfl⟩

def fileOf? (t : Task) (workingDir : Option String) (r : Redirection) : Option String :=
  match r.target, r.path with
  | .file, some target => some (resolveTarget t workingDir target)
  | _, _ => none

/-- The files that a step opens for a file of the sweep: of its output, its error output and its
input. -/
def fileNames (options : ExecutionOptions) (step : Step) (t : Task) : List String :=
  [step.firstSet? Handle.outputOrder, step.firstSet? Handle.errorOrder, some Handle.input].filterMap
    fun handle? => handle?.bind fun h => fileOf? t (workingDir? options t) (step.slot h)

def Nameable (h : Host) (options : ExecutionOptions) (step : Step) (t : Task) : Prop :=
  ∀ name ∈ fileNames options step t, h.nameFault? name = none

instance (h : Host) (options : ExecutionOptions) (step : Step) (t : Task) :
    Decidable (Nameable h options step t) :=
  inferInstanceAs (Decidable (∀ name ∈ fileNames options step t, h.nameFault? name = none))

theorem openWrite_error {h : Host} {path : String} {mode : WriteMode} {e : AccessError}
    (herror : h.openWrite path mode = .error e) :
    h.nameFault? path = some e ∨ ∃ error, e = .os error path := by
  unfold Host.openWrite at herror
  split at herror
  next fault hfault =>
    cases herror
    exact Or.inl hfault
  next =>
    right
    repeat' split at herror
    all_goals
      cases herror
      try exact ⟨_, rfl⟩

theorem readBytes_error {h : Host} {path : String} {e : AccessError}
    (herror : h.readBytes path = .error e) :
    h.nameFault? path = some e ∨ ∃ error, e = .os error path := by
  unfold Host.readBytes at herror
  split at herror
  next fault hfault =>
    cases herror
    exact Or.inl hfault
  next =>
    right
    repeat' split at herror
    all_goals
      cases herror
      try exact ⟨_, rfl⟩

theorem devices_openWrite {h h' : Host} {path : String} {mode : WriteMode} {names : List String}
    (hopen : h.openWrite path mode = .ok (h', names)) : h.SameDevices h' := by
  unfold Host.openWrite at hopen
  repeat' split at hopen
  all_goals
    cases hopen
    try exact ⟨rfl, rfl⟩

theorem openSlot_error {h : Host} {t : Task} {workingDir : Option String} {r : Redirection}
    {e : AccessError} (herror : openSlot h t workingDir r = .error e) :
    (∃ name, fileOf? t workingDir r = some name ∧ h.nameFault? name = some e) ∨
      ∃ error name, e = .os error name := by
  unfold openSlot at herror
  unfold fileOf?
  split at herror
  · cases herror
  next target htarget hpath =>
    rcases openWrite_error (eq_error_of_map_eq_error herror) with hfault | ⟨error, he⟩
    · exact Or.inl ⟨_, by simp only [htarget, hpath], hfault⟩
    · exact Or.inr ⟨error, _, he⟩
  · cases herror

theorem openSlot_devices {h h' : Host} {t : Task} {workingDir : Option String} {r : Redirection}
    {sink : Sink} (hopen : openSlot h t workingDir r = .ok (h', sink)) : h.SameDevices h' := by
  unfold openSlot at hopen
  split at hopen
  · cases hopen
    exact .refl h
  · obtain ⟨⟨opened, names⟩, hwrite, hsame⟩ := exists_of_map_eq_ok hopen
    cases hsame
    exact devices_openWrite hwrite
  · cases hopen
    exact .refl h

theorem openSink_devices {h h' : Host} {t : Task} {workingDir : Option String} {step : Step}
    {order : List Handle} {collect : Bool} {sink : Option Sink}
    (hopen : openSink h t workingDir step order collect = .ok (h', sink)) : h.SameDevices h' := by
  unfold openSink at hopen
  split at hopen
  · cases hopen
    exact .refl h
  · obtain ⟨⟨opened, k⟩, hslot, hsame⟩ := exists_of_map_eq_ok hopen
    cases hsame
    exact openSlot_devices hslot

section Nameable

variable {options : ExecutionOptions} {h : Host} {t : Task} {step : Step} {e : AccessError}
  (hnames : Nameable h options step t)
include hnames

theorem openSink_error {order : List Handle} {collect : Bool}
    (horder : order = Handle.outputOrder ∨ order = Handle.errorOrder)
    (herror : openSink h t (workingDir? options t) step order collect = .error e) :
    ∃ error name, e = .os error name := by
  unfold openSink at herror
  cases hset : step.firstSet? order with
  | none => simp [hset] at herror
  | some handle =>
    simp only [hset] at herror
    refine (openSlot_error (eq_error_of_map_eq_error herror)).resolve_left ?_
    rintro ⟨name, hname, hfault⟩
    have hmem : name ∈ fileNames options step t := by
      rcases horder with rfl | rfl <;> simp [fileNames, hset, hname]
    rw [hnames name hmem] at hfault
    cases hfault

theorem openInput_error (herror : openInput h t (workingDir? options t) step = .error e) :
    ∃ error name, e = .os error name := by
  unfold openInput at herror
  simp only at herror
  split at herror
  next target htarget hpath =>
    have hmem : resolveTarget t (workingDir? options t) target ∈ fileNames options step t := by
      simp [fileNames, fileOf?, htarget, hpath]
    rcases readBytes_error (eq_error_of_map_eq_error herror) with hfault | ⟨error, he⟩
    · rw [hnames _ hmem] at hfault
      cases hfault
    · exact ⟨error, _, he⟩
  · cases herror

end Nameable

theorem Nameable.of_devices {h h' : Host} {options : ExecutionOptions} {step : Step} {t : Task}
    (hnames : Nameable h options step t) (hsame : h.SameDevices h') :
    Nameable h' options step t :=
  fun name hmem => (hsame.nameFault?_eq name).trans (hnames name hmem)

theorem devices_openStreams (options : ExecutionOptions) (step : Step) (t : Task)
    (workingDir : Option String) (w : World σ) :
    w.host.SameDevices (openStreams options step t workingDir w).1.host := by
  have habandon : ∀ (v : World σ) (streams : Streams) (e : AccessError),
      w.host.SameDevices v.host →
        w.host.SameDevices (abandon v streams e : World σ × Except Abort Streams).1.host := by
    intro v streams e hsame
    obtain ⟨-, names, hcloses, -⟩ := @abandon_spec σ Streams v streams e
    exact hsame.trans hcloses.devices
  unfold openStreams
  split
  next => exact habandon _ _ _ (.refl _)
  next host stdout hout =>
    have hfirst := openSink_devices hout
    simp only
    split
    next => exact habandon _ _ _ hfirst
    next host' stderr herr =>
      have hsecond := hfirst.trans (openSink_devices herr)
      split
      next => exact habandon _ _ _ hsecond
      next => split <;> exact hsecond

theorem tidies_abandon {α : Type} {w v : World σ} {events : List Event} {streams : Streams}
    (htrace : v.trace = w.trace ++ events) (hopened : events.filterMap Event.opened? = streams.names)
    (hclosed : events.filterMap Event.closed? = []) (error : OsError) (name : String) :
    let result : World σ × Except Abort α := abandon v streams (.os error name)
    result.2 = .error (.failed (.redirection error name)) ∧ w.Tidies result.1 := by
  obtain ⟨houtcome, names, hcloses, hall⟩ := @abandon_spec σ α v streams (.os error name)
  refine ⟨houtcome, events ++ streams.names.map Event.closed, ?_, .of_closing hopened hclosed⟩
  rw [hcloses.trace, htrace, hall error name rfl, List.append_assoc]

/-- The streams of a step are open, or the system has refused one of its files and nothing is left
open. -/
theorem openStreams_cases {options : ExecutionOptions} {step : Step} {t : Task} (w : World σ)
    (hnames : Nameable w.host options step t) :
    let result := openStreams options step t (workingDir? options t) w
    (∃ streams events, result.2 = .ok streams ∧ result.1.trace = w.trace ++ events ∧
        events.filterMap Event.opened? = streams.names ∧
        events.filterMap Event.closed? = []) ∨
      ∃ error name, result.2 = .error (.failed (.redirection error name)) ∧ w.Tidies result.1 := by
  unfold openStreams
  split
  next e hout =>
    obtain ⟨error, name, rfl⟩ := openSink_error hnames (Or.inl rfl) hout
    exact Or.inr ⟨error, name, tidies_abandon (List.append_nil _).symm rfl rfl error name⟩
  next host stdout hout =>
    have hfirst := openSink_devices hout
    simp only
    split
    next e herr =>
      obtain ⟨error, name, rfl⟩ := openSink_error (hnames.of_devices hfirst) (Or.inr rfl) herr
      exact Or.inr ⟨error, name, @tidies_abandon σ Streams w
        (({ w with host } : World σ).note (openEvents stdout)) (openEvents stdout) { stdout } rfl
        (by simp [Streams.names, opened_openEvents]) (opened_openEvents stdout).2 error name⟩
    next host' stderr herr =>
      have hsecond := openSink_devices herr
      have hopened : (openEvents stdout ++ openEvents stderr).filterMap Event.opened? =
          Streams.names { stdout, stderr } := by
        simp [Streams.names, opened_openEvents]
      have hclosed : (openEvents stdout ++ openEvents stderr).filterMap Event.closed? = [] := by
        simp [opened_openEvents]
      split
      next e hin =>
        obtain ⟨error, name, rfl⟩ :=
          openInput_error ((hnames.of_devices hfirst).of_devices hsecond) hin
        let second : World σ :=
          ({ ({ w with host } : World σ).note (openEvents stdout) with host := host' } : World σ).note
            (openEvents stderr)
        have htrace : second.trace = w.trace ++ (openEvents stdout ++ openEvents stderr) :=
          List.append_assoc _ _ _
        exact Or.inr ⟨error, name, tidies_abandon htrace hopened hclosed error name⟩
      next stdin hin =>
        refine Or.inl ⟨{ stdout, stderr, stdin }, openEvents stdout ++ openEvents stderr ++
          (stdin.map fun file => Event.opened file.1 .read).toList, rfl, ?_, ?_, ?_⟩
        · cases stdin <;> simp [World.note]
        · rw [List.filterMap_append, hopened]
          cases stdin <;> simp [Streams.names, Event.opened?]
        · rw [List.filterMap_append, hclosed]
          cases stdin <;> simp [Event.closed?]

end Execution
end FileSweep
