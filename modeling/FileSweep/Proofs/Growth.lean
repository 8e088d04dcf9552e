import FileSweep.Proofs.Parsing

/-! Commands that go on. Nothing that reading does takes back what was read: a step that has ended
stays as it is, and of the step begun the path and the redirections that are connected stay, while
its arguments may become more. So the steps of a command are there in every command that begins with
it, and only the last of them may have grown. -/
namespace FileSweep

/-- A list that has gone on: every element but the last is still in its place, the last may have
become another that is related to it, and more may follow. -/
def GoesOn {α : Type} (R : α → α → Prop) (xs ys : List α) : Prop :=
  ∀ i x, xs[i]? = some x → ∃ y, ys[i]? = some y ∧ R x y ∧ (i + 1 < xs.length → y = x)

namespace GoesOn

variable {α β : Type} {R : α → α → Prop} {xs ys zs : List α}

theorem of_prefix (hrefl : ∀ x, R x x) (h : xs <+: ys) : GoesOn R xs ys := by
  obtain ⟨more, rfl⟩ := h
  intro i x hx
  have hi : i < xs.length := (List.getElem?_eq_some_iff.mp hx).1
  exact ⟨x, by rw [List.getElem?_append_left hi, hx], hrefl x, fun _ => rfl⟩

theorem of_last (hrefl : ∀ x, R x x) (front : List α) {x y : α} (h : R x y) :
    GoesOn R (front ++ [x]) (front ++ [y]) := by
  intro i z hz
  rcases Nat.lt_or_ge i front.length with hi | hi
  · rw [List.getElem?_append_left hi] at hz
    exact ⟨z, by rw [List.getElem?_append_left hi, hz], hrefl z, fun _ => rfl⟩
  · have hlast : i = front.length := by
      have hlength := (List.getElem?_eq_some_iff.mp hz).1
      rw [List.length_append, List.length_singleton] at hlength
      omega
    subst hlast
    obtain rfl : x = z := by simpa using hz
    refine ⟨y, by simp, h, fun hmore => ?_⟩
    rw [List.length_append, List.length_singleton] at hmore
    omega

theorem length_le (h : GoesOn R xs ys) : xs.length ≤ ys.length := by
  rcases Nat.eq_zero_or_pos xs.length with hzero | hpos
  · omega
  · obtain ⟨y, hy, -⟩ := h (xs.length - 1) _ (List.getElem?_eq_getElem (by omega))
    have hlast := (List.getElem?_eq_some_iff.mp hy).1
    omega

theorem trans (htrans : ∀ x y z, R x y → R y z → R x z) (hxy : GoesOn R xs ys)
    (hyz : GoesOn R ys zs) : GoesOn R xs zs := by
  intro i x hx
  obtain ⟨y, hy, hxy', hsame⟩ := hxy i x hx
  obtain ⟨z, hz, hyz', hsame'⟩ := hyz i y hy
  refine ⟨z, hz, htrans x y z hxy' hyz', fun hmore => ?_⟩
  rw [hsame' (Nat.lt_of_lt_of_le hmore hxy.length_le), hsame hmore]

theorem dropLast_prefix (h : GoesOn R xs ys) : xs.dropLast <+: ys := by
  rw [List.prefix_iff_getElem?]
  intro i hi
  rw [List.length_dropLast] at hi
  obtain ⟨y, hy, -, hsame⟩ := h i _ (List.getElem?_eq_getElem (by omega))
  rw [hy, hsame (by omega), List.getElem_dropLast]

theorem exists_of_getLast? (h : GoesOn R xs ys) {x : α} (hx : x ∈ xs.getLast?) :
    ∃ y, ys[xs.length - 1]? = some y ∧ R x y := by
  rw [List.getLast?_eq_getElem?, Option.mem_def] at hx
  obtain ⟨y, hy, hxy, -⟩ := h _ x hx
  exact ⟨y, hy, hxy⟩

theorem map {S : β → β → Prop} {f : α → β} (hf : ∀ x y, R x y → S (f x) (f y))
    (h : GoesOn R xs ys) : GoesOn S (xs.map f) (ys.map f) := by
  intro i b hb
  rw [List.getElem?_map, Option.map_eq_some_iff] at hb
  obtain ⟨x, hx, rfl⟩ := hb
  obtain ⟨y, hy, hxy, hsame⟩ := h i x hx
  refine ⟨f y, by rw [List.getElem?_map, hy]; rfl, hf x y hxy, fun hmore => ?_⟩
  rw [hsame (by simpa using hmore)]

end GoesOn

/-- What more words can make of a step: it keeps its path and the redirections that are connected,
its arguments may become more, and once its operator has come it is what it is. -/
structure Outline.GrowsInto (o p : Outline) : Prop where
  path : p.path = o.path
  slots : ∀ h : Handle, (o.slots.slot h).isSet = true → p.slots.slot h = o.slots.slot h
  arguments : o.arguments <+: p.arguments
  ended : o.continuation ≠ .terminate → p = o

namespace Outline.GrowsInto

theorem refl (o : Outline) : o.GrowsInto o := ⟨rfl, fun _ _ => rfl, List.prefix_refl _, fun _ => rfl⟩

theorem trans {o p q : Outline} (hop : o.GrowsInto p) (hpq : p.GrowsInto q) : o.GrowsInto q where
  path := hpq.path.trans hop.path
  slots h hset := by
    have hp := hop.slots h hset
    rw [hpq.slots h (hp ▸ hset), hp]
  arguments := hop.arguments.trans hpq.arguments
  ended h := by
    have hp := hop.ended h
    rw [hpq.ended (hp ▸ h), hp]

end Outline.GrowsInto

namespace ParseState

def outlines (st : ParseState) : List Outline := (st.endStep .terminate).steps

theorem outlines_of_none {st : ParseState} (hd : st.draft = none) : st.outlines = st.steps := by
  simp [outlines, endStep, hd]

theorem outlines_of_some {st : ParseState} {d : Draft} (hd : st.draft = some d) :
    st.outlines = st.steps ++ [⟨d.path, st.words, .terminate, d.slots⟩] := by
  simp [outlines, endStep, hd]

/-- What reading leads from one state to another adds to the steps. -/
def Grows (st st' : ParseState) : Prop := GoesOn Outline.GrowsInto st.outlines st'.outlines

namespace Grows

variable {st : ParseState}

theorem refl (st : ParseState) : st.Grows st :=
  GoesOn.of_prefix Outline.GrowsInto.refl (List.prefix_refl _)

theorem trans {a b c : ParseState} (hab : a.Grows b) (hbc : b.Grows c) : a.Grows c :=
  GoesOn.trans (fun _ _ _ => Outline.GrowsInto.trans) hab hbc

theorem of_draft {st' : ParseState} {d d' : Draft} (hd : st.draft = some d)
    (hd' : st'.draft = some d') (hsteps : st'.steps = st.steps) (hpath : d'.path = d.path)
    (hslots : ∀ h : Handle, (d.slots.slot h).isSet = true → d'.slots.slot h = d.slots.slot h)
    (hwords : st.words <+: st'.words) : st.Grows st' := by
  rw [Grows, outlines_of_some hd, outlines_of_some hd', hsteps]
  exact GoesOn.of_last Outline.GrowsInto.refl st.steps ⟨hpath, hslots, hwords, fun h => absurd rfl h⟩

theorem openRedirection (st : ParseState) (source : Handle) (append : Bool) :
    st.Grows (st.openRedirection source append) := refl st

/-- A slot that is connected is not connected again. -/
theorem connect (st : ParseState) (r : Redirection) : st.Grows (st.connect r) := by
  unfold ParseState.connect
  split
  next d p hd hp =>
    refine of_draft hd rfl rfl rfl (fun h hset => ?_) (List.prefix_refl _)
    simp only
    split
    next => rfl
    next hfree =>
      have hother : h ≠ p.source := fun hsame => hfree (hsame ▸ hset)
      rw [Slots.slot_fill, if_neg hother]
  next => exact refl st

theorem addWord (st : ParseState) (w : List Char) : st.Grows (st.addWord w) := by
  unfold ParseState.addWord
  split
  next => exact refl st
  next =>
    simp only
    split
    next hd =>
      rw [Grows, outlines_of_none hd, outlines_of_some rfl]
      exact GoesOn.of_prefix Outline.GrowsInto.refl (List.prefix_append _ _)
    next d hd hp =>
      exact of_draft hd hd rfl rfl (fun _ _ => rfl) (List.prefix_append _ _)
    next d p hd hp => exact connect st _

theorem endStep (st : ParseState) (k : Continuation) : st.Grows (st.endStep k) := by
  unfold ParseState.endStep
  split
  next hd =>
    rw [Grows, outlines_of_none hd, outlines_of_none rfl]
    exact GoesOn.of_prefix Outline.GrowsInto.refl (List.prefix_refl _)
  next d hd =>
    rw [Grows, outlines_of_some hd, outlines_of_none rfl]
    exact GoesOn.of_last Outline.GrowsInto.refl st.steps
      ⟨rfl, fun _ _ => rfl, List.prefix_refl _, fun h => absurd rfl h⟩

theorem kept (start : ParseState) : Kept start.Grows where
  word st w h := h.trans (addWord st w)
  redirect st source append h := h.trans (openRedirection st source append)
  duplicate st _ h := h.trans (connect st _)
  finish st k _ h := h.trans (endStep st k)

theorem scan (st : ParseState) (words : List String) : st.Grows (words.foldl scanWord st) :=
  (kept st).scan (refl st) words

end Grows
end ParseState

structure Step.GrowsInto (s t : Step) : Prop where
  path : t.path = s.path
  slots : ∀ h : Handle, (s.slot h).isSet = true → t.slot h = s.slot h
  args : s.args.toList <+: t.args.toList
  ended : s.continuation ≠ .terminate → t = s

theorem intercalate_prefix {vs ws : List String} (h : vs <+: ws) :
    (String.intercalate " " (vs.map Quoting.quoteIfNeeded)).toList <+:
      (String.intercalate " " (ws.map Quoting.quoteIfNeeded)).toList := by
  obtain ⟨more, rfl⟩ := h
  simp only [String.toList_intercalate, List.map_append]
  generalize (vs.map Quoting.quoteIfNeeded).map String.toList = front
  generalize (more.map Quoting.quoteIfNeeded).map String.toList = back
  induction front with
  | nil => exact List.nil_prefix
  | cons v front ih =>
    cases front with
    | nil => cases back <;> simp [List.intercalate_cons_cons]
    | cons u front =>
      simp only [List.cons_append, List.intercalate_cons_cons] at ih ⊢
      exact List.prefix_append_right_inj _ |>.mpr ih

theorem Outline.GrowsInto.step {o p : Outline} (h : o.GrowsInto p) : o.step.GrowsInto p.step where
  path := h.path
  slots := h.slots
  args := intercalate_prefix h.arguments
  ended hk := congrArg Outline.step (h.ended hk)

namespace Chain

/-- A command that goes on has at least its steps. All but the last are as they were, and the last
has its path and its redirections, which no later one replaces, and the arguments that it had before
any others; if an operator ended it, it is the same. -/
theorem parse_append (xs ys : List String) :
    (parse xs).length ≤ (parse (xs ++ ys)).length ∧
      (parse xs).steps.dropLast <+: (parse (xs ++ ys)).steps ∧
      ∀ last ∈ (parse xs).steps.getLast?,
        ∃ grown, (parse (xs ++ ys)).steps[(parse xs).length - 1]? = some grown ∧
          last.GrowsInto grown := by
  have hgrows : (ParseState.scanAll xs).Grows (ParseState.scanAll (xs ++ ys)) := by
    rw [ParseState.scanAll, ParseState.scanAll, List.foldl_append]
    exact ParseState.Grows.scan _ ys
  have hsteps : GoesOn Step.GrowsInto (parse xs).steps (parse (xs ++ ys)).steps :=
    GoesOn.map (fun _ _ => Outline.GrowsInto.step) hgrows
  exact ⟨hsteps.length_le, hsteps.dropLast_prefix, fun last hlast => hsteps.exists_of_getLast? hlast⟩

/-- The first step is as it was. The second has the target that its output has first, whatever
comes later, and an argument more. -/
theorem parse_append_of_second_redirection :
    let xs := ["a", "x", "&&", "b", "y z", ">", "f"]
    let ys := [">>", "g", "w", "|", "c"]
    (parse xs).steps.dropLast <+: (parse (xs ++ ys)).steps ∧
      (parse xs).steps.getLast?.map (fun s => (s.args, s.continuation)) =
        some ("\"y z\"", .terminate) ∧
      ∃ grown, (parse (xs ++ ys)).steps[1]? = some grown ∧ grown.args = "\"y z\" w" ∧
        grown.continuation = .pipe ∧ grown.slot Handle.output = ⟨.file, some "f", false⟩ := by
  intro xs ys
  have hlast : (parse xs).steps.getLast?.map (fun s => (s.args, s.continuation)) =
      some ("\"y z\"", .terminate) := by decide +kernel
  obtain ⟨-, hfront, hgrown⟩ := parse_append xs ys
  obtain ⟨last, hmem, -⟩ := Option.map_eq_some_iff.mp hlast
  obtain ⟨grown, hstep, -⟩ := hgrown last hmem
  have hshape : (parse (xs ++ ys)).steps[1]?.map
      (fun s => (s.args, s.continuation, s.slot Handle.output)) =
      some ("\"y z\" w", .pipe, ⟨.file, some "f", false⟩) := by decide +kernel
  have hindex : (parse xs).length - 1 = 1 := by decide +kernel
  rw [hindex] at hstep
  rw [hstep] at hshape
  simp only [Option.map_some, Option.some.injEq, Prod.mk.injEq] at hshape
  exact ⟨hfront, hlast, grown, hstep, hshape.1, hshape.2.1, hshape.2.2⟩

end Chain
end FileSweep
