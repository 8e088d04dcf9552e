import FileSweep.Proofs.Cancellation
import FileSweep.Proofs.Offers
import FileSweep.Schedule.Event
import Mathlib.Data.List.Nodup

/-! A scan whose receiver breaks off at one file below the root. The visit of its directory breaks
off, and so does every visit above, one level after another; the first that takes notice cancels the
scan. So in every schedule the scan breaks off and is cancelled, what has been handed on was so once,
and neither the files behind the one nor those below its directory ever are. -/
namespace FileSweep

open Relation

namespace Visit

variable {interrupts : Task → Bool} {cancelled : Bool} {v v' : Visit} {action : Action}

/-- Whether a visit whose own files are all taken has cancelled the scan by the time it leaves. -/
def Told (interrupts : Task → Bool) (cancelled : Bool) : Visit → Prop
  | waiting _ survey => ∀ t ∈ survey.files, interrupts t = false
  | sending _ _ left _ => ∀ t ∈ left, interrupts t = false
  | leaving _ _ => cancelled = true
  | raised _ => cancelled = true
  | joining _ _ _ _ => True
  | returned _ => True
  | merged _ => True

theorem Step.told (h : Step interrupts cancelled v action v') (hv : v.Told interrupts cancelled) :
    v'.Told interrupts (cancelled || action.cancels) := by
  cases h with
  | skip name survey h => trivial
  | list name survey h => exact hv
  | send name sent left subdirs t h => exact fun u hu => hv u (List.mem_cons_of_mem t hu)
  | interrupt name sent left subdirs t h =>
    have hpass := hv t List.mem_cons_self
    rw [h] at hpass
    cases hpass
  | descend name sent subdirs => trivial
  | inside name files count before after h => trivial
  | merge name files count before after node => trivial
  | finish name files count nodes => trivial
  | notice name files count before after sent => exact Bool.or_true cancelled
  | insideLeaving files before after h => exact Bool.or_eq_true_iff.mpr (Or.inl hv)
  | leave files children h => exact Bool.or_eq_true_iff.mpr (Or.inl hv)

theorem Told.cancel (hv : v.Told interrupts cancelled) : v.Told interrupts true := by
  cases v with
  | leaving files children => rfl
  | raised sent => rfl
  | waiting name survey => exact hv
  | sending name sent left subdirs => exact hv
  | joining name files count children => trivial
  | returned node => trivial
  | merged node => trivial

theorem raised_of_not_calm (hended : v.ended = true) (hcalm : ¬ v.Calm) :
    ∃ sent, v = raised sent := by
  cases v with
  | raised sent => exact ⟨sent, rfl⟩
  | returned node => exact (hcalm trivial).elim
  | merged node => exact (hcalm trivial).elim
  | waiting name survey => cases hended
  | sending name sent left subdirs => cases hended
  | joining name files count children => cases hended
  | leaving files children => cases hended

end Visit

namespace Traversal

variable {interrupts : Task → Bool} {full d : DirNode} {t u : Traversal} {x : Task} {depth : Nat}

/-- What a scan keeps to whose receiver breaks off at one file at most: what is offered of the full
tree is handed on or ahead, unless it has been given up. -/
structure Offering (interrupts : Task → Bool) (full : DirNode) (t : Traversal) : Prop where
  within : (t.dispatched ++ t.visit.ahead interrupts).Subperm (full.offered interrupts)
  /-- As long as nothing has broken off or been cancelled, none is given up. -/
  all : t.cancelled = false → t.visit.Calm →
    (t.dispatched ++ t.visit.ahead interrupts).Perm (full.offered interrupts)
  handed : ∀ u ∈ t.dispatched, interrupts u = false
  /-- The receiver does not break off again. -/
  spent : ¬ t.visit.Calm → ∀ u ∈ t.visit.ahead interrupts, interrupts u = false
  told : t.visit.Told interrupts t.cancelled

theorem offering_start (name : String) (survey : Survey) (cancelled : Bool)
    (hgo : ∀ t ∈ survey.files, interrupts t = false) :
    Offering interrupts (survey.tree name) { visit := .waiting name survey, cancelled } where
  within := List.Subperm.refl _
  all := fun _ _ => List.Perm.refl _
  handed := by simp
  spent := fun hcalm => (hcalm trivial).elim
  told := hgo

theorem Offering.advance (hnodup : (full.allFiles.map Task.path).Nodup)
    (honly : ∀ u, interrupts u = true → u = x) (h : t.Offering interrupts full)
    (hstep : Advance interrupts t u) : u.Offering interrupts full := by
  obtain ⟨action, visit, hvisit, rfl⟩ := hstep
  obtain ⟨lost, hlost⟩ := hvisit.spends
  have hperm : (t.dispatched ++ t.visit.ahead interrupts).Perm
      (t.dispatched ++ action.tasks ++ visit.ahead interrupts ++ lost) := by
    simpa only [List.append_assoc] using hlost.perm.append_left t.dispatched
  have hwithin := hperm.symm.subperm.trans h.within
  refine ⟨(List.sublist_append_left _ lost).subperm.trans hwithin, ?_, ?_, ?_, hvisit.told h.told⟩
  · intro hgoing hcalm
    have hbefore : t.cancelled = false := (Bool.or_eq_false_iff.mp hgoing).1
    obtain rfl := hlost.keeps hbefore hcalm
    rw [List.append_nil] at hperm
    exact hperm.symm.trans (h.all hbefore (hvisit.calm_before hcalm))
  · intro u hu
    rcases List.mem_append.mp hu with hu | hu
    · exact h.handed u hu
    · exact hvisit.handed u hu
  · intro hcalm u hu
    by_cases hbefore : t.visit.Calm
    · -- the file at which it has broken off is lost, and it stood among the offered ones once
      obtain ⟨y, hy, hbreaks⟩ := (hlost.broken hbefore).resolve_left hcalm
      by_contra hagain
      obtain rfl := honly u (by simpa using hagain)
      obtain rfl := honly y hbreaks
      have honce := List.Nodup.of_map Task.path
        (nodup_map_of_subperm (hwithin.trans (full.offered_sublist interrupts).subperm) hnodup)
      exact not_mem_of_nodup_append honce hy (List.mem_append_right _ hu)
    · refine h.spent hbefore u (hlost.perm.symm.subset ?_)
      exact List.mem_append_left lost (List.mem_append_right action.tasks hu)

theorem Offering.reaches (hnodup : (full.allFiles.map Task.path).Nodup)
    (honly : ∀ u, interrupts u = true → u = x) (h : t.Offering interrupts full)
    (hsteps : Reaches interrupts t u) : u.Offering interrupts full := by
  induction hsteps with
  | refl => exact h
  | tail _ hstep ih =>
    rcases hstep with hadvance | rfl
    · exact ih.advance hnodup honly hadvance
    · exact ⟨ih.within, (fun hgoing => nomatch hgoing), ih.handed, ih.spent, ih.told.cancel⟩

theorem Offering.not_mem (h : t.Offering interrupts full) (hbreaks : interrupts x = true) :
    x ∉ t.dispatched := by
  intro hx
  have hpass := h.handed x hx
  rw [hbreaks] at hpass
  cases hpass

/-- A scan that is not cancelled does not end without coming to the file at which its receiver
breaks off. -/
theorem Offering.not_calm_of_ended (h : t.Offering interrupts full)
    (hx : x ∈ full.offered interrupts) (hbreaks : interrupts x = true)
    (hgoing : t.cancelled = false) (hended : t.visit.ended = true) : ¬ t.visit.Calm := by
  intro hcalm
  have hall := h.all hgoing hcalm
  rw [Visit.ahead_of_ended hended, List.append_nil] at hall
  exact h.not_mem hbreaks (hall.symm.subset hx)

/-- A scan in which something has broken off ends by breaking off, and is cancelled then. -/
theorem Offering.raised (h : t.Offering interrupts full) (hended : t.visit.ended = true)
    (hcalm : ¬ t.visit.Calm) : (∃ sent, t.visit = .raised sent) ∧ t.cancelled = true := by
  obtain ⟨sent, hraised⟩ := Visit.raised_of_not_calm hended hcalm
  have htold := h.told
  rw [hraised] at htold
  exact ⟨⟨sent, hraised⟩, htold⟩

theorem Offering.once (h : t.Offering interrupts full)
    (hnodup : (full.allFiles.map Task.path).Nodup) : (t.dispatched.map Task.path).Nodup := by
  have hsubperm : t.dispatched.Subperm full.allFiles :=
    (List.sublist_append_left _ _).subperm.trans
      (h.within.trans (full.offered_sublist interrupts).subperm)
  exact nodup_map_of_subperm hsubperm hnodup

theorem Offering.stays {before after : List Task} (h : t.Offering interrupts full)
    (hnodup : full.allFiles.Nodup) (hd : full.Holds depth d) (hfiles : d.files = before ++ x :: after)
    (hbreaks : interrupts x = true) :
    ∀ u ∈ x :: (after ++ DirNode.allFilesOf d.dirs), u ∉ t.dispatched := by
  intro u hu hdispatched
  rcases List.mem_cons.mp hu with rfl | hu
  · exact h.not_mem hbreaks hdispatched
  · exact hd.not_mem_offered hnodup hfiles hbreaks u hu
      (h.within.subset (List.mem_append_left _ hdispatched))

theorem Reaches.not_calm (hsteps : Reaches interrupts t u) (hcalm : ¬ t.visit.Calm) :
    ¬ u.visit.Calm := by
  unfold Reaches at hsteps
  induction hsteps with
  | refl => exact hcalm
  | tail _ hstep ih =>
    rcases hstep with ⟨action, visit, hvisit, rfl⟩ | rfl
    · exact fun hafter => ih (hvisit.calm_before hafter)
    · exact ih

theorem Reaches.cancelled (hsteps : Reaches interrupts t u) (ht : t.cancelled = true) :
    u.cancelled = true := by
  unfold Reaches at hsteps
  induction hsteps with
  | refl => exact ht
  | tail _ hstep ih =>
    rcases hstep with ⟨action, visit, hvisit, rfl⟩ | rfl
    · exact Bool.or_eq_true_iff.mpr (Or.inl ih)
    · rfl

theorem going_of_calm (hsteps : ReflTransGen (Advance interrupts) t u) (ht : t.cancelled = false)
    (hcalm : u.visit.Calm) : u.cancelled = false := by
  induction hsteps with
  | refl => exact ht
  | tail _ hstep ih =>
    obtain ⟨action, visit, hvisit, rfl⟩ := hstep
    have hbefore := hvisit.calm_before hcalm
    exact Bool.or_eq_false_iff.mpr ⟨ih hbefore, hvisit.cancels_eq hbefore⟩

def breaksAt (x t : Task) : Bool := decide (t = x)

theorem breaksAt_self (x : Task) : breaksAt x x = true := decide_eq_true rfl

theorem eq_of_breaksAt {t : Task} (h : breaksAt x t = true) : t = x := of_decide_eq_true h

theorem offering_breaksAt {name : String} {survey : Survey} {cancelled : Bool}
    (hnodup : ((survey.tree name).allFiles.map Task.path).Nodup)
    (hd : (survey.tree name).Holds (depth + 1) d) (hx : x ∈ d.files)
    (hsteps : Reaches (breaksAt x) { visit := .waiting name survey, cancelled } t) :
    t.Offering (breaksAt x) (survey.tree name) := by
  have hroot : ∀ u ∈ survey.files, breaksAt x u = false := by
    intro u hu
    by_contra hagain
    obtain rfl := eq_of_breaksAt (by simpa using hagain)
    exact hd.not_mem_files (List.Nodup.of_map Task.path hnodup) hx (by rwa [Survey.files_tree])
  exact (offering_start name survey cancelled hroot).reaches hnodup (fun _ => eq_of_breaksAt) hsteps

end Traversal

namespace EventScan

open Traversal (breaksAt breaksAt_self eq_of_breaksAt)

variable {interrupts : Task → Bool} {s t : EventScan}

/-- How a scan goes whose receiver breaks off at `x`; the files `left` are never handed on. Until the
receiver breaks off the visit of the root is calm, and from then on it is not. -/
structure StopsAt (x : Task) (left : List Task) (start : EventScan) : Prop where
  goesOn : ∀ s, Reaches (breaksAt x) start s →
    s.visit.ended = true ∨ ∃ t, Advance (breaksAt x) s t
  ends : ∀ schedule : Nat → EventScan, ¬ ∀ n, Advance (breaksAt x) (schedule n) (schedule (n + 1))
  /-- Unless it is cancelled from outside, it comes to the file. -/
  comes : start.cancelled = false → ∀ s, ReflTransGen (Advance (breaksAt x)) start s →
    s.visit.ended = true → ¬ s.visit.Calm
  /-- From then on it can end only by breaking off, with its event set. -/
  raises : ∀ s t, Reaches (breaksAt x) start s → ¬ s.visit.Calm → Reaches (breaksAt x) s t →
    t.visit.ended = true → (∃ sent, t.visit = .raised sent) ∧ t.event = some true
  once : ∀ s, Reaches (breaksAt x) start s → (s.dispatched.map Task.path).Nodup
  /-- The file is not offered again: all goes on as if the receiver never broke off. -/
  spent : ∀ s t, Reaches (breaksAt x) start s → ¬ s.visit.Calm → Advance (breaksAt x) s t →
    Advance (fun _ => false) s t
  stays : ∀ s, Reaches (breaksAt x) start s → ∀ t ∈ x :: left, t ∉ s.dispatched
  /-- Once a visit has taken notice of one that broke off below, no directory is listed. -/
  unlisted : ∀ s visit t u, Reaches (breaksAt x) start s →
    Visit.Step (breaksAt x) s.cancelled s.visit .noticed visit →
    Reaches (breaksAt x) (s.after .noticed visit) t → Advance (breaksAt x) t u →
    u.visit.underway ≤ t.visit.underway

theorem not_endless (schedule : Nat → EventScan) :
    ¬ ∀ n, Advance interrupts (schedule n) (schedule (n + 1)) := fun hsteps =>
  Traversal.not_endless (fun n => (schedule n).traversal) fun n => (hsteps n).traversal

theorem stopsAt {name : String} {survey : Survey} {x : Task} {d : DirNode} {level : Nat}
    {before after : List Task} (hnodup : ((survey.tree name).allFiles.map Task.path).Nodup)
    (hd : (survey.tree name).Holds (level + 1) d) (hfiles : d.files = before ++ x :: after)
    (event : Option Bool) :
    StopsAt x (after ++ DirNode.allFilesOf d.dirs) { visit := .waiting name survey, event } := by
  have honce := List.Nodup.of_map Task.path hnodup
  have hx : x ∈ d.files := by simp [hfiles]
  have hoffering : ∀ s, Reaches (breaksAt x) { visit := .waiting name survey, event } s →
      s.traversal.Offering (breaksAt x) (survey.tree name) := fun s hs =>
    Traversal.offering_breaksAt hnodup hd hx hs.traversal
  refine
    { goesOn := ?goesOn, ends := not_endless, comes := ?comes, raises := ?raises, once := ?once
      spent := ?spent, stays := ?stays, unlisted := ?unlisted }
  case goesOn =>
    intro s _
    refine (Visit.exists_step (breaksAt x) s.cancelled s.visit).imp id ?_
    rintro ⟨action, visit, hvisit⟩
    exact ⟨_, action, visit, hvisit, rfl⟩
  case comes =>
    intro hgoing s hs hended hcalm
    have hsteps : Reaches (breaksAt x) { visit := .waiting name survey, event } s :=
      ReflTransGen.mono (fun _ _ hadvance => Or.inl hadvance) _ _ hs
    have hadvances := ReflTransGen.lift traversal (fun _ _ h => Advance.traversal h) _ _ hs
    have hstill := Traversal.going_of_calm hadvances hgoing hcalm
    have hmem := hd.mem_offered honce (fun _ => eq_of_breaksAt) hx
    exact (hoffering s hsteps).not_calm_of_ended hmem (breaksAt_self x) hstill hended hcalm
  case raises =>
    intro s t hs hcalm ht hended
    obtain ⟨hraised, hcancelled⟩ :=
      (hoffering t (hs.trans ht)).raised hended (ht.traversal.not_calm hcalm)
    exact ⟨hraised, t.cancelled_iff.mp hcancelled⟩
  case once => exact fun s hs => (hoffering s hs).once hnodup
  case spent =>
    rintro s t hs hcalm ⟨action, visit, hvisit, rfl⟩
    exact ⟨action, visit, hvisit.of_go ((hoffering s hs).spent hcalm), rfl⟩
  case stays => exact fun s hs => (hoffering s hs).stays honce hd hfiles (breaksAt_self x)
  case unlisted =>
    rintro s visit t u _ hnotice ht ⟨action, visit', hvisit, rfl⟩
    have hcancelled : t.cancelled = true := ht.traversal.cancelled rfl
    rw [hcancelled] at hvisit
    exact hvisit.underway_le

end EventScan

namespace Scan

variable {reply : Task → Reply}

theorem dispatchAll_cancelled (hreply : ∀ t, reply t ≠ .cancel) (files : List Task)
    (s : ScanState) : (s.dispatchAll reply files).1.cancelled = s.cancelled := by
  induction files generalizing s with
  | nil => rfl
  | cons t files ih =>
    rw [ScanState.dispatchAll, ScanState.dispatch]
    cases h : reply t with
    | go => exact ih _
    | cancel => exact (hreply t h).elim
    | interrupt => rfl

mutual

theorem cancelled_visit (recurse : Bool) (hreply : ∀ t, reply t ≠ .cancel) (name : String) :
    (survey : Survey) → (s : ScanState) → ∀ {node : DirNode} {s' : ScanState},
      visit recurse reply name survey s = (some node, s') → s'.cancelled = s.cancelled
  | ⟨path, refused, files, subdirs⟩, s, node, s', h => by
    rw [visit] at h
    split at h
    · obtain ⟨-, rfl⟩ := Prod.mk.inj h
      rfl
    · obtain ⟨noted, hn, hsame, -⟩ := exists_noted refused s path (if recurse then 2 else 1)
      have hfiles := dispatchAll_cancelled hreply files noted
      simp only [← hn] at h
      cases hd : noted.dispatchAll reply files with
      | mk s₁ broken =>
        rw [hd] at h hfiles
        cases broken with
        | true => cases h
        | false =>
          cases hall : visitAll recurse reply { name, files, count := files.length } subdirs s₁ with
          | mk result s₂ =>
            simp only [hall] at h
            cases result with
            | none => cases h
            | some node' =>
              obtain ⟨-, rfl⟩ := Prod.mk.inj h
              exact ((cancelled_visitAll recurse hreply subdirs _ s₁ hall).trans hfiles).trans hsame

theorem cancelled_visitAll (recurse : Bool) (hreply : ∀ t, reply t ≠ .cancel) :
    (subs : List Survey) → (node : DirNode) → (s : ScanState) →
      ∀ {node' : DirNode} {s' : ScanState},
        visitAll recurse reply node subs s = (some node', s') → s'.cancelled = s.cancelled
  | [], node, s, node', s', h => by
    obtain ⟨-, rfl⟩ := Prod.mk.inj h
    rfl
  | sub :: subs, node, s, node', s', h => by
    rw [visitAll] at h
    cases hvisit : visit recurse reply (Path.base sub.path) sub s with
    | mk result s₁ =>
      rw [hvisit] at h
      cases result with
      | none => cases h
      | some child =>
        exact (cancelled_visitAll recurse hreply subs _ s₁ h).trans
          (cancelled_visit recurse hreply _ sub s hvisit)

end

open Traversal EventScan

theorem run_breaks_off {h : Host} {request : ScanRequest} {children : List (String × Entry)}
    {glob : Glob} {root : String} {survey : Survey} {full : DirNode} {x : Task}
    (hroot : h.absolute request.root = root) (hdir : h.entry? root = some (.dir children))
    (hglob : Glob.compile? request.pattern = some glob)
    (hsurvey : Survey.ofEntry h ⟨root, glob, request.recurse⟩ root (.dir children) = survey)
    (hx : x ∈ full.offered (breaksAt x))
    (hoffering : ∀ t, Traversal.Reaches (breaksAt x) { visit := .waiting root survey } t →
      t.Offering (breaksAt x) full) :
    ∃ s v, run h request (fun t => if t = x then .interrupt else .go) false = .ok ⟨none, s⟩ ∧
      s.cancelled = true ∧ (moment s v).Offering (breaksAt x) full := by
  obtain ⟨reply, hreply⟩ : ∃ reply : Task → Reply,
      reply = fun t => if t = x then .interrupt else .go := ⟨_, rfl⟩
  have hbreaks : breaksOff reply = breaksAt x := by
    funext t
    rw [breaksOff, hreply, breaksAt]
    by_cases ht : t = x <;> simp [ht]
  have hkeeps : ∀ t, reply t ≠ .cancel := by
    intro t
    rw [hreply]
    by_cases ht : t = x <;> simp [ht]
  obtain ⟨started, hdispatched, hgoing, hrun⟩ := exists_run_eq hroot hdir hglob reply false
  obtain ⟨v, hends, hreaches⟩ := visit_reaches request.recurse reply root survey started
  have hstart : moment started (.waiting root survey) = { visit := .waiting root survey } := by
    simp [moment, hdispatched, hgoing]
  rw [hbreaks, hstart] at hreaches
  have hmoment := hoffering _ hreaches
  rw [hsurvey] at hrun
  rw [← hreply]
  cases hvisit : visit request.recurse reply root survey started with
  | mk result s =>
    rw [hvisit] at hends hmoment
    obtain ⟨last, hlast, hsent, hcancelled⟩ := hrun _ s hvisit
    cases result with
    | none =>
      obtain ⟨sent, rfl⟩ : ∃ sent, v = .raised sent := hends
      have hsame : moment last (.raised sent) = moment s (.raised sent) := by
        rw [moment, moment, hsent, hcancelled]
      exact ⟨last, _, hlast, hcancelled.trans (hmoment.raised rfl id).2, hsame ▸ hmoment⟩
    | some node =>
      obtain rfl : v = .returned node := hends
      have hstill := (cancelled_visit request.recurse hkeeps root survey started hvisit).trans hgoing
      exact (hmoment.not_calm_of_ended hx (breaksAt_self x) hstill rfl trivial).elim

/-- Broken off at a file below its root, a scan stops in every schedule: it breaks off and is
cancelled, whether there was an event for it before or not. The files behind the one in its directory
and those below this directory are not handed on, and none is handed on twice. -/
theorem interrupted_scans_stop {h : Host} {request : ScanRequest} {children : List (String × Entry)}
    {glob : Glob} (hcwd : Path.isAbsolute h.cwd = true)
    (hdir : h.entry? (h.absolute request.root) = some (.dir children))
    (hglob : Glob.compile? request.pattern = some glob) (hwell : (Entry.dir children).WellNamed)
    {d : DirNode} {level : Nat} {x : Task} {before after : List Task}
    (hd : (Walk.tree h glob request.recurse (h.absolute request.root) [] (h.absolute request.root)
      (.dir children)).Holds (level + 1) d)
    (hfiles : d.files = before ++ x :: after) :
    let root := h.absolute request.root
    let survey := Survey.ofEntry h ⟨root, glob, request.recurse⟩ root (.dir children)
    let left := after ++ DirNode.allFilesOf d.dirs
    (∀ event, StopsAt x left { visit := .waiting root survey, event }) ∧
    ∃ s, run h request (fun t => if t = x then .interrupt else .go) false = .ok ⟨none, s⟩ ∧
      s.cancelled = true ∧ (s.dispatched.map Task.path).Nodup ∧
      ∀ t ∈ x :: left, t ∉ s.dispatched := by
  intro root survey left
  have htree : survey.tree root = _ := tree_survey hcwd glob request.recurse request.root hwell
  have hnodup : ((survey.tree root).allFiles.map Task.path).Nodup :=
    htree ▸ nodup_paths_tree hcwd glob request.recurse request.root hwell
  have honce := List.Nodup.of_map Task.path hnodup
  have hx : x ∈ d.files := by simp [hfiles]
  rw [← htree] at hd
  have hmem := hd.mem_offered honce (fun _ => eq_of_breaksAt) hx
  obtain ⟨s, v, hrun, hcancelled, hoffering⟩ := run_breaks_off rfl hdir hglob rfl hmem
    fun t ht => offering_breaksAt hnodup hd hx ht
  exact ⟨stopsAt hnodup hd hfiles, s, hrun, hcancelled, hoffering.once hnodup,
    hoffering.stays honce hd hfiles (breaksAt_self x)⟩

/-- A file in a directory with another file behind it and a directory below. -/
theorem interrupted_scans_stop_below :
    let below : List (String × Entry) :=
      [("y.txt", .file [] 0), ("low", .dir [("z.txt", .file [] 0)]), ("x.txt", .file [] 0)]
    let children : List (String × Entry) :=
      [("b", .dir below), ("a", .dir [("f.txt", .file [] 0)]), ("g.txt", .file [] 0)]
    let h : Host :=
      { root := .dir [("d", .dir children)], cwd := "/d", environment := ⟨[], [], "/"⟩ }
    let request : ScanRequest := { root := ".", pattern := "*.txt" }
    let glob : Glob := ⟨[.anyText, .char '.', .char 't', .char 'x', .char 't']⟩
    let x : Task := { path := "/d/b/x.txt", relative := "b/x.txt", name := "x.txt" }
    let y : Task := { path := "/d/b/y.txt", relative := "b/y.txt", name := "y.txt" }
    let z : Task := { path := "/d/b/low/z.txt", relative := "b/low/z.txt", name := "z.txt" }
    StopsAt x [y, z]
        { visit := .waiting "/d" (Survey.ofEntry h ⟨"/d", glob, true⟩ "/d" (.dir children)) } ∧
      ∃ s, run h request (fun t => if t = x then .interrupt else .go) false = .ok ⟨none, s⟩ ∧
        s.cancelled = true ∧ ∀ t ∈ [x, y, z], t ∉ s.dispatched := by
  intro below children h request glob x y z
  have hroot : h.absolute request.root = "/d" := by decide +kernel
  have hdir : h.entry? (h.absolute request.root) = some (.dir children) := by
    rw [hroot]
    rfl
  have hwell : (Entry.dir children).WellNamed := by
    simp [children, below, Entry.WellNamed, Entry.AllWellNamed]
    decide +kernel
  have hglob : Glob.compile? request.pattern = some glob := by decide +kernel
  obtain ⟨d, hd⟩ : ∃ d, d = Walk.tree h glob true "/d/b" ["b"] "b" (.dir below) := ⟨_, rfl⟩
  have hholds : (Walk.tree h glob true "/d" [] "/d" (.dir children)).Holds 1 d := by
    have hdirs : d ∈ Walk.dirs h glob true "/d" [] children := hd ▸ List.mem_cons_self
    exact .deeper (List.mem_mergeSort.mpr hdirs) (.root d)
  have hfiles : d.files = [x, y] := by
    have hnames : (below.filter fun c => glob.matches c.1 && h.entryIsFile "/d/b" c).map Prod.fst =
        ["y.txt", "x.txt"] := by decide +kernel
    have hsorted : (["y.txt", "x.txt"].mergeSort fun a b => a ≤ b) = ["x.txt", "y.txt"] := by
      simp [List.mergeSort]
    have hwalk : d.files = Walk.files h glob "/d/b" ["b"] below := by rw [hd]; rfl
    rw [hwalk, Walk.files, hnames, hsorted]
    decide +kernel
  have hfurther : DirNode.allFilesOf d.dirs = [z] := by
    rw [hd]
    decide +kernel
  obtain ⟨hstops, s, hrun, hcancelled, -, hleft⟩ := @interrupted_scans_stop h request children glob
    (by decide +kernel) hdir hglob hwell d 0 x [] [y] (hroot ▸ hholds) hfiles
  rw [hfurther, hroot] at hstops
  rw [hfurther] at hleft
  exact ⟨hstops none, s, hrun, hcancelled, hleft⟩

end Scan
end FileSweep
