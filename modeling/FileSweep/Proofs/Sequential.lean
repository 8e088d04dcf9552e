import FileSweep.Proofs.Schedules

/-! Visiting one directory after another, as a single thread does it, is one of the schedules
of a scan, whatever the receiver of the files answers. -/
namespace FileSweep

open Relation

namespace Traversal

variable {interrupts : Task → Bool} {t u v : Traversal}

theorem Reaches.refl (t : Traversal) : Reaches interrupts t t := ReflTransGen.refl

theorem Reaches.trans (h : Reaches interrupts t u) (hnext : Reaches interrupts u v) :
    Reaches interrupts t v := ReflTransGen.trans h hnext

theorem Reaches.of_step (interrupts : Task → Bool) (t : Traversal) {action : Action} {visit : Visit}
    (h : Visit.Step interrupts t.cancelled t.visit action visit) :
    Reaches interrupts t (t.after action visit) :=
  ReflTransGen.single (Or.inl ⟨action, visit, h, rfl⟩)

theorem Reaches.of_cancel (t : Traversal) :
    Reaches interrupts t { t with cancelled := true } :=
  ReflTransGen.single (Or.inr rfl)

theorem Reaches.inside (name : String) (files : List Task) (count : Int)
    (before after : List Visit) (h : Reaches interrupts t u) :
    Reaches interrupts { t with visit := .joining name files count (before ++ t.visit :: after) }
      { u with visit := .joining name files count (before ++ u.visit :: after) } := by
  unfold Reaches at h ⊢
  refine ReflTransGen.lift
    (fun t : Traversal => { t with visit := .joining name files count (before ++ t.visit :: after) })
    (fun a b hstep => ?_) _ _ h
  rcases hstep with ⟨action, visit, hvisit, rfl⟩ | rfl
  · exact Or.inl ⟨action, _, .inside name files count before after hvisit, rfl⟩
  · exact Or.inr rfl

end Traversal

namespace Scan

open Traversal Visit

variable {reply : Task → Reply}

def breaksOff (reply : Task → Reply) (t : Task) : Bool := reply t == .interrupt

def moment (s : ScanState) (visit : Visit) : Traversal :=
  { visit, cancelled := s.cancelled, dispatched := s.dispatched }

theorem quiet_reaches (interrupts : Task → Bool) (s : ScanState) {v v' : Visit}
    (h : Visit.Step interrupts s.cancelled v .quiet v') :
    Reaches interrupts (moment s v) (moment s v') := by
  have hstep := Reaches.of_step interrupts (moment s v) h
  simpa [moment, Traversal.after, Action.cancels, Action.tasks] using hstep

theorem breaksOff_of_dispatch {s s' : ScanState} {t : Task}
    (h : s.dispatch reply t = (s', true)) : breaksOff reply t = true ∧ s' = s := by
  unfold ScanState.dispatch at h
  cases hreply : reply t with
  | go => simp [hreply] at h
  | cancel => simp [hreply] at h
  | interrupt =>
    obtain rfl : s = s' := by simpa [hreply] using h
    exact ⟨by simp [breaksOff, hreply], rfl⟩

/-- A file is handed on in one step, or in two when its receiver cancels the scan. -/
theorem dispatch_reaches (name : String) (sent files : List Task) (subdirs : List Survey)
    {s s' : ScanState} {t : Task} (h : s.dispatch reply t = (s', false)) :
    breaksOff reply t = false ∧
      Reaches (breaksOff reply) (moment s (.sending name sent (t :: files) subdirs))
        (moment s' (.sending name (sent ++ [t]) files subdirs)) := by
  have hsend (hpass : breaksOff reply t = false) :
      Reaches (breaksOff reply) (moment s (.sending name sent (t :: files) subdirs))
        (moment { s with dispatched := s.dispatched ++ [t] }
          (.sending name (sent ++ [t]) files subdirs)) := by
    have hstep := Reaches.of_step (breaksOff reply)
      (moment s (.sending name sent (t :: files) subdirs))
      (.send name sent files subdirs t hpass)
    simpa [moment, Traversal.after, Action.cancels, Action.tasks] using hstep
  unfold ScanState.dispatch at h
  cases hreply : reply t with
  | go =>
    have hpass : breaksOff reply t = false := by simp [breaksOff, hreply]
    obtain rfl : { s with dispatched := s.dispatched ++ [t] } = s' := by simpa [hreply] using h
    exact ⟨hpass, hsend hpass⟩
  | cancel =>
    have hpass : breaksOff reply t = false := by simp [breaksOff, hreply]
    obtain rfl : { s with dispatched := s.dispatched ++ [t], cancelled := true } = s' := by
      simpa [hreply] using h
    exact ⟨hpass, (hsend hpass).trans (Reaches.of_cancel _)⟩
  | interrupt => simp [hreply] at h

theorem dispatchAll_reaches (name : String) (sent files : List Task) (subdirs : List Survey)
    {s s' : ScanState} {broken : Bool} (h : s.dispatchAll reply files = (s', broken)) :
    Reaches (breaksOff reply) (moment s (.sending name sent files subdirs))
      (moment s'
        (if broken then .raised (sent ++ files.takeWhile fun t => !breaksOff reply t)
        else .sending name (sent ++ files) [] subdirs)) := by
  induction files generalizing s sent with
  | nil =>
    obtain ⟨rfl, rfl⟩ : s = s' ∧ false = broken := by simpa [ScanState.dispatchAll] using h
    simpa using Reaches.refl _
  | cons t files ih =>
    rw [ScanState.dispatchAll] at h
    cases hone : s.dispatch reply t with
    | mk s₁ broke =>
      rw [hone] at h
      cases broke with
      | false =>
        obtain ⟨hpass, hreaches⟩ := dispatch_reaches name sent files subdirs hone
        have hrest := ih (sent ++ [t]) h
        refine hreaches.trans ?_
        simpa [hpass] using hrest
      | true =>
        obtain ⟨hbreak, rfl⟩ := breaksOff_of_dispatch hone
        obtain ⟨rfl, rfl⟩ : s₁ = s' ∧ true = broken := by simpa using h
        simpa [hbreak] using
          quiet_reaches (breaksOff reply) s₁ (.interrupt name sent files subdirs t hbreak)

theorem skip_reaches (interrupts : Task → Bool) (files : List Task) (done : List Visit)
    (subs : List Survey) {s : ScanState} (hs : s.cancelled = true) :
    Reaches interrupts (moment s (.leaving files (done ++ subs.map start)))
      (moment s (.leaving files (done ++ subs.map fun sub =>
        returned { name := Path.base sub.path }))) := by
  induction subs generalizing done with
  | nil => exact Reaches.refl _
  | cons sub subs ih =>
    have hone := quiet_reaches interrupts s
      (.insideLeaving files done (subs.map start) (.skip (Path.base sub.path) sub hs))
    have hrest := ih (done ++ [returned { name := Path.base sub.path }])
    rw [List.append_assoc, List.append_assoc] at hrest
    exact hone.trans hrest

theorem leave_reaches (interrupts : Task → Bool) (node : DirNode) (sent : List Task)
    (subs : List Survey) (s : ScanState) :
    ∃ all, Reaches interrupts
      (moment s (.joining node.name node.files node.count
        (node.dirs.map merged ++ raised sent :: subs.map start)))
      (moment { s with cancelled := true } (.raised all)) := by
  have hnotice := Reaches.of_step interrupts
    (moment s (.joining node.name node.files node.count
      (node.dirs.map merged ++ raised sent :: subs.map start)))
    (.notice node.name node.files node.count (node.dirs.map merged) (subs.map start) sent)
  have hskip := @skip_reaches interrupts node.files (node.dirs.map merged ++ [raised sent]) subs
    { s with cancelled := true } rfl
  have hleave := quiet_reaches interrupts { s with cancelled := true }
    (.leave node.files ((node.dirs.map merged ++ [raised sent]) ++
      subs.map fun sub => returned { name := Path.base sub.path }) (by
      intro c hc
      simp only [List.mem_append, List.mem_map, List.mem_singleton] at hc
      rcases hc with (⟨d, -, rfl⟩ | rfl) | ⟨sub, -, rfl⟩ <;> rfl))
  refine ⟨_, Reaches.trans ?_ (hskip.trans hleave)⟩
  simpa [moment, Traversal.after, Action.cancels, Action.tasks] using hnotice

/-- How a visit has ended: with a node, or broken off. -/
def EndsWith : Option DirNode → Visit → Prop
  | some node, v => v = .returned node
  | none, v => ∃ sent, v = .raised sent

mutual

theorem visit_reaches (recurse : Bool) (reply : Task → Reply) (name : String) :
    (survey : Survey) → (s : ScanState) →
      ∃ v, EndsWith (visit recurse reply name survey s).1 v ∧
        Reaches (breaksOff reply) (moment s (.waiting name survey))
          (moment (visit recurse reply name survey s).2 v)
  | ⟨path, refused, files, subdirs⟩, s => by
    by_cases hcancelled : s.cancelled = true
    · rw [visit, if_pos hcancelled]
      exact ⟨.returned { name }, rfl, quiet_reaches (breaksOff reply) s (.skip name _ hcancelled)⟩
    · obtain ⟨noted, hn, hgoing, hsent⟩ := exists_noted refused s path (if recurse then 2 else 1)
      have hsame : ∀ v, moment noted v = moment s v := by simp [moment, hgoing, hsent]
      have hlist := quiet_reaches (breaksOff reply) s
        (.list name ⟨path, refused, files, subdirs⟩ (Bool.eq_false_iff.mpr hcancelled))
      rw [← hsame (.sending name [] files subdirs)] at hlist
      rw [visit, if_neg hcancelled]
      simp only [← hn]
      cases hd : noted.dispatchAll reply files with
      | mk s₁ broken =>
        have hsend := hlist.trans (dispatchAll_reaches name [] files subdirs hd)
        cases broken with
        | true => exact ⟨_, ⟨_, rfl⟩, hsend⟩
        | false =>
          have hdescend := hsend.trans (quiet_reaches (breaksOff reply) s₁ (.descend name files subdirs))
          have hbelow := visitAll_reaches recurse reply subdirs
            { name, files, count := files.length } s₁
          cases hall : visitAll recurse reply { name, files, count := files.length } subdirs s₁ with
          | mk result s₂ =>
            rw [hall] at hbelow
            simp only [hall]
            cases result with
            | none =>
              obtain ⟨sent, hraised⟩ := hbelow
              exact ⟨.raised sent, ⟨sent, rfl⟩, hdescend.trans hraised⟩
            | some node =>
              obtain ⟨title, here, dirs, count⟩ := node
              have hfinish := quiet_reaches (breaksOff reply) s₂ (.finish title here count dirs)
              exact ⟨_, rfl, hdescend.trans (Reaches.trans hbelow hfinish)⟩

theorem visitAll_reaches (recurse : Bool) (reply : Task → Reply) :
    (subs : List Survey) → (node : DirNode) → (s : ScanState) →
      match visitAll recurse reply node subs s with
      | (some node', s') =>
        Reaches (breaksOff reply)
          (moment s (.joining node.name node.files node.count
            (node.dirs.map merged ++ subs.map start)))
          (moment s' (.joining node'.name node'.files node'.count (node'.dirs.map merged)))
      | (none, s') => ∃ sent,
        Reaches (breaksOff reply)
          (moment s (.joining node.name node.files node.count
            (node.dirs.map merged ++ subs.map start)))
          (moment { s' with cancelled := true } (.raised sent))
  | [], node, s => by
    simp only [visitAll, List.map_nil, List.append_nil]
    exact Reaches.refl _
  | sub :: subs, node, s => by
    obtain ⟨v, hends, hfirst⟩ := visit_reaches recurse reply (Path.base sub.path) sub s
    have hinside := hfirst.inside node.name node.files node.count (node.dirs.map merged)
      (subs.map start)
    rw [visitAll]
    cases hvisit : visit recurse reply (Path.base sub.path) sub s with
    | mk result s₁ =>
      rw [hvisit] at hends hinside
      cases result with
      | some child =>
        obtain rfl : v = returned child := hends
        have hmerge := quiet_reaches (breaksOff reply) s₁
          (.merge node.name node.files node.count (node.dirs.map merged) (subs.map start) child)
        have hfirst := hinside.trans hmerge
        have hrest := visitAll_reaches recurse reply subs (adopt node child) s₁
        have hadopt : (adopt node child).dirs.map merged ++ subs.map start =
            node.dirs.map merged ++ merged child :: subs.map start := by
          simp [adopt]
        simp only
        cases hall : visitAll recurse reply (adopt node child) subs s₁ with
        | mk result s₂ =>
          rw [hall, hadopt] at hrest
          cases result with
          | some node' => exact hfirst.trans hrest
          | none => exact hrest.imp fun sent hraised => hfirst.trans hraised
      | none =>
        obtain ⟨sent, rfl⟩ : ∃ sent, v = raised sent := hends
        obtain ⟨all, hleave⟩ := leave_reaches (breaksOff reply) node sent subs s₁
        exact ⟨all, hinside.trans hleave⟩

end

/-- Visiting one directory after another, a scan comes to its end in one of the schedules, whatever
its receiver answers. -/
theorem exists_run {h : Host} {request : ScanRequest} {children : List (String × Entry)}
    {glob : Glob} {root : String} (hroot : h.absolute request.root = root)
    (hdir : h.entry? root = some (.dir children))
    (hglob : Glob.compile? request.pattern = some glob) (reply : Task → Reply) (cancelled : Bool) :
    ∃ outcome v, run h request reply cancelled = .ok outcome ∧ EndsWith outcome.tree v ∧
      Reaches (breaksOff reply)
        { visit := .waiting root
            (Survey.ofEntry h ⟨root, glob, request.recurse⟩ root (.dir children)), cancelled }
        (moment outcome.state v) := by
  obtain ⟨started, hdispatched, hcancelled, hrun⟩ := exists_run_eq hroot hdir hglob reply cancelled
  obtain ⟨v, hends, hreaches⟩ := visit_reaches request.recurse reply root
    (Survey.ofEntry h ⟨root, glob, request.recurse⟩ root (.dir children)) started
  obtain ⟨last, hlast, hsame, hstill⟩ := hrun _ _ rfl
  have hmoment : ∀ u, moment started u = { visit := u, cancelled } := by
    simp [moment, hdispatched, hcancelled]
  refine ⟨_, v, hlast, hends, ?_⟩
  rw [hmoment] at hreaches
  rw [moment, hsame, hstill]
  exact hreaches

end Scan
end FileSweep
