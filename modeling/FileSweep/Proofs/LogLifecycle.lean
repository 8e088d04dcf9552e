import FileSweep.Diagnostics

/-! The life of the log over any number of calls. The root logger carries at most one handler of a
configuration, and it feeds the attached listener, which runs with all its outlets open. Every other
listener that was ever started is stopped and has its outlets closed. So a record reaches the outlets
of the attached listener once, and no others. -/
namespace FileSweep

namespace RootHandler

@[simp] theorem isOurs_feed (n : Nat) : (feed n).isOurs = true := rfl

@[simp] theorem isOurs_foreign (name : String) : (foreign name).isOurs = false := rfl

end RootHandler

namespace Listener

variable (l : Listener)

/-- The listener takes records, and all that it writes to is open. -/
def IsLive : Prop := l.running = true ∧ ∀ o ∈ l.outlets, o.closed = false

/-- The listener takes no more records, and all that it wrote to is closed. -/
def IsOver : Prop := l.running = false ∧ ∀ o ∈ l.outlets, o.closed = true

def ended : Listener := l.stop.closeOutlets

@[simp] theorem ended_ended : l.ended.ended = l.ended := by
  simp [ended, stop, closeOutlets, Outlet.close]

theorem isOver_ended : l.ended.IsOver := by
  refine ⟨rfl, fun o ho => ?_⟩
  obtain ⟨_, _, rfl⟩ := List.mem_map.mp ho
  rfl

theorem IsOver.ended_eq {l : Listener} (hover : l.IsOver) : l.ended = l := by
  have hclose : ∀ o ∈ l.outlets, o.close = id o := by
    rintro ⟨level, form, target, closed⟩ ho
    rw [Outlet.close, ← hover.2 _ ho, id]
  rw [ended, stop, closeOutlets, List.map_congr_left hclose, List.map_id, ← hover.1]

end Listener

namespace Diagnostics

/-- The handlers of the root that others have put there. -/
def foreign (d : Diagnostics) : List RootHandler := d.handlers.filter fun r => !r.isOurs

/-- The state when the handlers of a configuration are taken off and its listener is ended. -/
def detached (d : Diagnostics) : Diagnostics := d.removeOurs.stopListener

theorem detached_eq (d : Diagnostics) : d.detached =
    { d with
      handlers := d.foreign
      listeners := d.attached.elim d.listeners fun n => d.listeners.modify n Listener.ended
      attached := none } := by
  obtain ⟨_, _, _, attached, _⟩ := d
  cases attached <;> rfl

/-- It makes no difference whether the listener or the handlers go first. -/
theorem shutdown_eq (d : Diagnostics) :
    d.shutdown = { d.detached with configured := false } := by
  obtain ⟨_, _, _, attached, _⟩ := d
  cases attached <;> rfl

theorem getElem?_listeners_detached (d : Diagnostics) (n : Nat) :
    d.detached.listeners[n]? =
      if d.attached = some n then d.listeners[n]?.map Listener.ended else d.listeners[n]? := by
  rw [detached_eq]
  cases d.attached with
  | none => simp
  | some m => by_cases hmn : m = n <;> simp [hmn]

@[simp] theorem attached_detached (d : Diagnostics) : d.detached.attached = none := by
  rw [detached_eq]

@[simp] theorem foreign_detached (d : Diagnostics) : d.detached.foreign = d.foreign := by
  simp [detached_eq, foreign, List.filter_filter]

@[simp] theorem ours_detached (d : Diagnostics) :
    d.detached.handlers.filter RootHandler.isOurs = [] := by
  simp [detached_eq, foreign, List.filter_filter]

theorem closed_of_mem_openOutlets {h : Host} {s : LogSetup} {o : Outlet}
    (ho : o ∈ (openOutlets h s).outlets) : o.closed = false := by
  have hconsole : ∀ o ∈ (openConsole h s).outlets, o.closed = false := by
    unfold openConsole
    grind
  have hfile : ∀ o ∈ (openLogFile h s).outlets, o.closed = false := by
    unfold openLogFile
    grind
  unfold openOutlets at ho
  grind

/-- A call on the log. Each finds the host as it is by then. -/
inductive Call where
  | configure (host : Host) (setup : LogSetup) (force : Bool)
  | shutdown

/-- The state that a call leaves, whether or not it ends in an error. -/
def call (d : Diagnostics) : Call → Diagnostics
  | .configure h s force => (d.configure h s force).state
  | .shutdown => d.shutdown

def calls (d : Diagnostics) (cs : List Call) : Diagnostics := cs.foldl call d

/-- All that a call can do: nothing, or it detaches what is there, and then may attach a listener
whose outlets are open. -/
theorem call_cases (d : Diagnostics) (c : Call) :
    d.call c = d ∨ ∃ level configured,
      d.call c = { d.detached with level, configured } ∨
        ∃ outlets, (∀ o ∈ outlets, Outlet.closed o = false) ∧
          d.call c = { d.detached with level, configured }.attach outlets := by
  cases c with
  | shutdown => exact .inr ⟨d.level, false, .inl (by rw [call, shutdown_eq, detached_eq])⟩
  | configure h s force =>
    -- the level is set first, and what is taken off after it does not look at the level
    have hdetached : ({ d with level := s.threshold }).detached =
        { d.detached with level := s.threshold, configured := d.configured } := by
      rw [detached_eq, detached_eq, foreign, foreign]
    rw [call, configure]
    split
    next => exact .inl rfl
    next =>
      refine .inr ⟨s.threshold, d.configured, ?_⟩
      rw [← hdetached]
      dsimp only
      split
      next => exact .inl rfl
      next => exact .inr ⟨_, fun o => closed_of_mem_openOutlets, rfl⟩

/-- What holds between two calls. -/
structure Tidy (d : Diagnostics) : Prop where
  /-- The root carries no handler of a configuration but the one that feeds the attached listener. -/
  ours : d.handlers.filter RootHandler.isOurs = d.attached.toList.map .feed
  live : ∀ n, d.attached = some n → ∃ l, d.listeners[n]? = some l ∧ l.IsLive
  ended : ∀ n l, d.listeners[n]? = some l → d.attached ≠ some n → l.IsOver

namespace Tidy

variable {d : Diagnostics}

theorem oursCount_eq (ht : d.Tidy) : d.oursCount = d.attached.toList.length := by
  rw [oursCount, List.countP_eq_length_filter, ht.ours, List.length_map]

theorem detached (ht : d.Tidy) (level : Level) (configured : Bool) :
    Tidy { d.detached with level, configured } := by
  refine ⟨by simp, by simp, fun n l hl _ => ?_⟩
  change d.detached.listeners[n]? = some l at hl
  rw [getElem?_listeners_detached] at hl
  split at hl
  next =>
    obtain ⟨l, _, rfl⟩ := Option.map_eq_some_iff.mp hl
    exact l.isOver_ended
  next hn => exact ht.ended n l hl hn

theorem attach (ht : d.Tidy) (hnone : d.attached = none) {outlets : List Outlet}
    (hopen : ∀ o ∈ outlets, o.closed = false) : (d.attach outlets).Tidy := by
  unfold Diagnostics.attach
  split
  next => exact ⟨ht.ours, ht.live, ht.ended⟩
  next =>
    have hours : d.handlers.filter RootHandler.isOurs = [] := by simpa [hnone] using ht.ours
    refine ⟨?_, ?_, ?_⟩
    · rw [List.filter_append, hours]
      simp
    · rintro n ⟨⟩
      exact ⟨_, List.getElem?_concat_length, rfl, hopen⟩
    · intro n l hl hn
      -- the last listener is the one that is attached now, and those before it were not attached
      have hlt : n < d.listeners.length := by
        have hle := (List.getElem?_eq_some_iff.mp hl).1
        have hne : d.listeners.length ≠ n := fun h => hn (congrArg some h)
        rw [List.length_append, List.length_singleton] at hle
        omega
      rw [List.getElem?_append_left hlt] at hl
      exact ht.ended n l hl (by simp [hnone])

theorem call (ht : d.Tidy) (c : Call) : (d.call c).Tidy := by
  obtain hsame | ⟨level, configured, hdetached | ⟨outlets, hopen, hattached⟩⟩ := d.call_cases c
  · rwa [hsame]
  · rw [hdetached]
    exact ht.detached level configured
  · rw [hattached]
    exact (ht.detached level configured).attach d.attached_detached hopen

theorem calls (ht : d.Tidy) (cs : List Call) : (d.calls cs).Tidy := by
  induction cs generalizing d with
  | nil => exact ht
  | cons c cs ih => exact ih (ht.call c)

end Tidy

theorem inTurn_filter {α : Type} {write : α → Host → Host × String} {p : α → Bool}
    (hidle : ∀ a h, p a = false → write a h = (h, "")) (as : List α) (h : Host) :
    inTurn write as h = inTurn write (as.filter p) h := by
  induction as generalizing h with
  | nil => rfl
  | cons a as ih =>
    cases ha : p a with
    | true => rw [List.filter_cons_of_pos ha, inTurn, inTurn, ih]
    | false =>
      rw [List.filter_cons_of_neg (by simp [ha]), inTurn, hidle a h ha, ih]
      simp

/-- In a tidy log a record that passes reaches the attached listener once, and no other. -/
theorem Tidy.emit_eq {d : Diagnostics} (ht : d.Tidy) {e : LogEntry}
    (hpasses : e.level.passes d.level = true) (hhandlers : d.handlers ≠ []) (h : Host) :
    d.emit h e =
      match d.attached.bind fun n => d.listeners[n]? with
      | some l => l.deliver h e
      | none => (h, "") := by
  have hidle : ∀ r h, RootHandler.isOurs r = false → d.handle e r h = (h, "") := by
    rintro (n | name) h hr
    · cases hr
    · rfl
  rw [emit, if_neg (by simp [hpasses]), if_neg (by simpa using hhandlers),
    inTurn_filter hidle, ht.ours]
  cases hattached : d.attached with
  | none => rfl
  | some n =>
    obtain ⟨l, hl, hrunning, -⟩ := ht.live n hattached
    simp [inTurn, handle, hl, hrunning]

theorem configured_attach (d : Diagnostics) (outlets : List Outlet) :
    (d.attach outlets).configured = true := by
  unfold attach
  split <;> rfl

theorem isSome_attached_attach {d : Diagnostics} (hnone : d.attached = none)
    (outlets : List Outlet) : (d.attach outlets).attached.isSome ↔ outlets ≠ [] := by
  unfold attach
  cases outlets <;> simp [hnone]

/-- A configuration that takes effect and ends in no error sets the log up, and a listener is attached
if there is an outlet for it. -/
theorem configured_configure (d : Diagnostics) {h : Host} {s : LogSetup} {force : Bool}
    (heffect : d.configured = true → force = true)
    (hfine : (d.configure h s force).failure = none) :
    (d.configure h s force).state.configured = true ∧
      ((d.configure h s force).state.attached.isSome ↔ (openOutlets h s).outlets ≠ []) := by
  have hgo : (d.configured && !force) = false := by
    cases hconfigured : d.configured with
    | false => rfl
    | true => rw [heffect hconfigured]; rfl
  replace hfine : (openOutlets h s).failure = none := by simpa [configure, hgo] using hfine
  have hstate : (d.configure h s force).state =
      ({ d with level := s.threshold } : Diagnostics).detached.attach (openOutlets h s).outlets := by
    simp [configure, hgo, hfine, detached]
  rw [hstate]
  exact ⟨configured_attach _ _, isSome_attached_attach (attached_detached _) _⟩

/-- What a later state keeps of an earlier one: each listener, as it was or ended, and the handlers
that others have put on the root. -/
structure Keeps (d e : Diagnostics) : Prop where
  listeners : ∀ (n : Nat) (l : Listener), d.listeners[n]? = some l →
    e.listeners[n]? = some l ∨ e.listeners[n]? = some l.ended
  foreign : e.foreign = d.foreign

namespace Keeps

variable {d e f : Diagnostics}

theorem refl (d : Diagnostics) : d.Keeps d := ⟨fun _ _ hl => .inl hl, rfl⟩

theorem trans (hde : d.Keeps e) (hef : e.Keeps f) : d.Keeps f := by
  refine ⟨fun n l hl => ?_, hef.foreign.trans hde.foreign⟩
  obtain hsame | hended := hde.listeners n l hl
  · exact hef.listeners n l hsame
  · right
    simpa using hef.listeners n l.ended hended

theorem detached (d : Diagnostics) (level : Level) (configured : Bool) :
    d.Keeps { d.detached with level, configured } := by
  refine ⟨fun n l hl => ?_, d.foreign_detached⟩
  change d.detached.listeners[n]? = _ ∨ d.detached.listeners[n]? = _
  rw [getElem?_listeners_detached, hl]
  split <;> simp

theorem attach (d : Diagnostics) (outlets : List Outlet) : d.Keeps (d.attach outlets) := by
  unfold Diagnostics.attach
  split
  next => exact ⟨fun _ _ hl => .inl hl, rfl⟩
  next =>
    refine ⟨fun n l hl => .inl ?_, ?_⟩
    · rw [List.getElem?_append_left (List.getElem?_eq_some_iff.mp hl).1, hl]
    · simp [Diagnostics.foreign]

theorem call (d : Diagnostics) (c : Call) : d.Keeps (d.call c) := by
  obtain hsame | ⟨level, configured, hdetached | ⟨outlets, _, hattached⟩⟩ := d.call_cases c
  · rw [hsame]
    exact refl d
  · rw [hdetached]
    exact detached d level configured
  · rw [hattached]
    exact (detached d level configured).trans (attach _ outlets)

theorem calls (d : Diagnostics) (cs : List Call) : d.Keeps (d.calls cs) := by
  induction cs generalizing d with
  | nil => exact refl d
  | cons c cs ih => exact (call d c).trans (ih _)

end Keeps

/-- The log before it is first set up. The root carries what others have put there. -/
def untouched (level : Level) (others : List String) : Diagnostics :=
  { level, handlers := others.map .foreign }

theorem tidy_untouched (level : Level) (others : List String) : (untouched level others).Tidy := by
  refine ⟨?_, by simp [untouched], by simp [untouched]⟩
  simp [untouched]

theorem foreign_untouched (level : Level) (others : List String) :
    (untouched level others).foreign = others.map .foreign := by
  simp [untouched, foreign]

example (h : Host) :
    let d := (untouched .warning ["other"]).calls
      [.configure h {} false, .shutdown, .configure h {} false, .configure h {} false,
        .configure h {} true]
    d.handlers = [.foreign "other", .feed 2] ∧ d.attached = some 2 ∧
      d.listeners.map (·.running) = [false, false, true] :=
  ⟨rfl, rfl, rfl⟩

end Diagnostics
end FileSweep
