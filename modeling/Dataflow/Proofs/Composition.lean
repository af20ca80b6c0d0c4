import Dataflow.Proofs.Layout

/-!
# What composing an expression adds to a builder

`Expression.composes` says that a composition which succeeds has done just this: it has placed the
layout of the expression, moved the track to the layout's track, taken one group for each leaf in
order, and changed nothing else. `Grown` says what a builder has got in nodes, edges and groups;
`Composed` adds how its numbering has moved on.
-/

set_option autoImplicit false
set_option relaxedAutoImplicit false

namespace Dataflow

variable {ε σ : Type}

/-! ### What a computation has added -/

/-- Adds groups in order, unless they are there. -/
def insertGroups (groups taken : List (GroupId × Spec ε σ)) : List (GroupId × Spec ε σ) :=
  taken.foldl (fun groups (group, spec) ↦ Builder.insertGroup group spec groups) groups

/-- A builder `last` is `b` with placements added and groups taken. -/
structure Grown (b : Builder ε σ) (ps : List (Placement ε σ)) (taken : List (GroupId × Spec ε σ))
    (last : Builder ε σ) : Prop where
  nodes : last.nodes = (b.placeAll ps).nodes
  edges : last.edges = (b.placeAll ps).edges
  mode : last.mode = b.mode
  context : last.context = b.context
  groups : last.groups = insertGroups b.groups taken
  fits : ∀ p ∈ ps, p.Fits

namespace Grown

theorem refl (b : Builder ε σ) : Grown b [] [] b where
  nodes := rfl
  edges := rfl
  mode := rfl
  context := rfl
  groups := rfl
  fits := by simp

theorem length_nodes {b last : Builder ε σ} {ps : List (Placement ε σ)}
    {taken : List (GroupId × Spec ε σ)} (h : Grown b ps taken last) :
    last.nodes.length = b.nodes.length + ps.length := by
  rw [h.nodes, Builder.length_nodes_placeAll]

theorem trans {b middle last : Builder ε σ} {ps qs : List (Placement ε σ)}
    {front back : List (GroupId × Spec ε σ)} (h : Grown b ps front middle)
    (h' : Grown middle qs back last) : Grown b (ps ++ qs) (front ++ back) last where
  nodes := by
    rw [h'.nodes, Builder.placeAll_append]
    exact (Builder.placeAll_congr h.nodes h.edges qs).1
  edges := by
    rw [h'.edges, Builder.placeAll_append]
    exact (Builder.placeAll_congr h.nodes h.edges qs).2
  mode := h'.mode.trans h.mode
  context := h'.context.trans h.context
  groups := by
    rw [h'.groups, h.groups]
    exact List.foldl_append.symm
  fits := by
    intro p hp
    rcases List.mem_append.mp hp with hp | hp
    · exact h.fits p hp
    · exact h'.fits p hp

/-- A builder that has grown by one placement. -/
theorem place (b : Builder ε σ) {p : Placement ε σ} (hp : p.Fits) : Grown b [p] [] (b.place p) where
  nodes := rfl
  edges := rfl
  mode := rfl
  context := rfl
  groups := rfl
  fits := by
    intro q hq
    rwa [List.mem_singleton.mp hq]

/-- Taking the next group adds no node. -/
theorem allocateGroup (b : Builder ε σ) (spec : Spec ε σ) :
    Grown b [] [(b.nextGroup, spec)] (b.allocateGroup spec) where
  nodes := rfl
  edges := rfl
  mode := rfl
  context := rfl
  groups := rfl
  fits := by simp

/-- What was added in another context was added. -/
theorem leave {b last : Builder ε σ} {ps : List (Placement ε σ)} {taken : List (GroupId × Spec ε σ)}
    {context : Context} (h : Grown (b.enter context) ps taken last) :
    Grown b ps taken (last.leave b.context) where
  nodes := h.nodes.trans (Builder.placeAll_congr (b := b.enter context) (c := b) rfl rfl ps).1
  edges := h.edges.trans (Builder.placeAll_congr (b := b.enter context) (c := b) rfl rfl ps).2
  mode := h.mode
  context := rfl
  groups := h.groups
  fits := h.fits

/-- Remembering an expansion adds nothing. -/
theorem remember {b last : Builder ε σ} {ps : List (Placement ε σ)}
    {taken : List (GroupId × Spec ε σ)} (h : Grown b ps taken last)
    (memo : List (ExpansionKey × Track)) : Grown b ps taken { last with memo } where
  nodes := h.nodes
  edges := h.edges
  mode := h.mode
  context := h.context
  groups := h.groups
  fits := h.fits

end Grown

/-- A builder `last` is `b` with the placements of leaves added, whose groups were taken in
order. -/
structure Composed (b : Builder ε σ) (ps : List (Placement ε σ)) (leaves : List (Leaf ε σ))
    (last : Builder ε σ) : Prop where
  grown : Grown b ps (groupsFrom b.context.scope (b.ordinals b.context) leaves) last
  ordinal : last.ordinals b.context = b.ordinals b.context + leaves.length
  memo : last.memo = b.memo

namespace Composed

theorem refl (b : Builder ε σ) : Composed b [] [] b where
  grown := Grown.refl b
  ordinal := rfl
  memo := rfl

theorem trans {b middle last : Builder ε σ} {ps qs : List (Placement ε σ)}
    {front back : List (Leaf ε σ)} (h : Composed b ps front middle)
    (h' : Composed middle qs back last) : Composed b (ps ++ qs) (front ++ back) last where
  grown := by
    have hback := h'.grown
    rw [h.grown.context, h.ordinal] at hback
    rw [groupsFrom_append]
    exact h.grown.trans hback
  ordinal := by
    have hordinal := h'.ordinal
    rw [h.grown.context, h.ordinal] at hordinal
    rw [hordinal, List.length_append, Nat.add_assoc]
  memo := h'.memo.trans h.memo

theorem place (b : Builder ε σ) {p : Placement ε σ} (hp : p.Fits) :
    Composed b [p] [] (b.place p) where
  grown := Grown.place b hp
  ordinal := rfl
  memo := rfl

theorem allocateGroup (b : Builder ε σ) (leaf : Leaf ε σ) :
    Composed b [] [leaf] (b.allocateGroup leaf.spec) where
  grown := Grown.allocateGroup b leaf.spec
  ordinal := by
    change (if b.context = b.context then b.ordinals b.context + 1 else _) = _
    rw [if_pos rfl, List.length_singleton]
  memo := rfl

end Composed

namespace Track

theorem expectWidth_eq_ok {t : Track} {operator : String} {width : Nat} {u : Unit} :
    t.expectWidth operator width = .ok u ↔ t.width = width := by
  unfold expectWidth
  split_ifs with h <;> simp [h]

theorem requireLabel_eq_ok {t : Track} {operator : String} {port : PortRef} :
    t.requireLabel operator = .ok port ↔ t.label = some port := by
  unfold requireLabel
  cases t.label <;> simp

end Track

namespace Expression

open Build

/-! ### Leaves are laid out -/

theorem run_addTrainer_ok {spec : Spec ε σ} {group : GroupId} {left : Track} {b last : Builder ε σ}
    {u : Unit} (hwidth : left.width = spec.arity.inputs)
    (h : run (addTrainer spec group left) b = (.ok u, last)) :
    left.label.isSome = true ∧ Composed b [.ofLeaf spec group left .trainer] [] last := by
  simp only [addTrainer, run_bind_ok, run_check_ok, run_addNode, Prod.mk.injEq, Except.ok.injEq]
    at h
  obtain ⟨label, _, ⟨hlabel, rfl⟩, _, _, ⟨rfl, rfl⟩, _, middle, hfeatures, hlast⟩ := h
  have hlabel := Track.requireLabel_eq_ok.mp hlabel
  have hinputs : (Placement.ofLeaf spec group left .trainer).inputs = left.ports ++ [label] := by
    rw [Placement.ofLeaf, hlabel]
    rfl
  obtain ⟨rfl, hfits⟩ := run_connect_last_ok (p := .ofLeaf spec group left .trainer) hinputs hwidth
    hfeatures hlast
  refine ⟨?_, Composed.place b hfits⟩
  rw [hlabel]
  rfl

theorem run_addApplier_ok {spec : Spec ε σ} {group : GroupId} {left right : Track}
    {b last : Builder ε σ} (h : run (addApplier spec group left) b = (.ok right, last)) :
    right = left.rebased b.nodes.length spec.arity.outputs ∧
      Composed b [.ofLeaf spec group left .applier] [] last := by
  simp only [addApplier, run_bind_ok, run_addNode, run_pure, Prod.mk.injEq, Except.ok.injEq] at h
  obtain ⟨_, _, ⟨rfl, rfl⟩, _, _, hports, rfl, rfl⟩ := h
  obtain ⟨rfl, hfits⟩ := run_connectAll_ok (p := .ofLeaf spec group left .applier) hports
  exact ⟨rfl, Composed.place b hfits⟩

/-- A composition that succeeds has placed the layout of the expression and moved the track past it,
and all leaves were admissible. -/
def Composes (expression : Expression ε σ) : Prop :=
  ∀ (left right : Track) (b last : Builder ε σ),
    run (expression.compose left) b = (.ok right, last) →
      let laid := expression.layout b.context.shape b.context.scope b.nodes.length
        (b.ordinals b.context) left
      right = laid.2 ∧ Composed b laid.1 expression.leaves last ∧
        ∀ leaf ∈ expression.leaves, leaf.Admissible b.context.shape left.label.isSome

theorem composes_mapper (spec : Spec ε σ) : (mapper spec).Composes := by
  intro left right b last h
  rw [compose, composeMapper] at h
  simp only [run_bind_ok, run_check_ok, run_allocateGroup, run_get, Prod.mk.injEq,
    Except.ok.injEq] at h
  obtain ⟨_, _, ⟨hwidth, rfl⟩, _, _, ⟨rfl, rfl⟩, _, _, ⟨rfl, rfl⟩, h⟩ := h
  have hwidth := Track.expectWidth_eq_ok.mp hwidth
  have hgroup : Composed b [] [.mapper spec] (b.allocateGroup spec) :=
    Composed.allocateGroup b (.mapper spec)
  rw [hgroup.grown.context] at h
  by_cases htrain : b.context.shape = .train ∧ spec.stateful
  · have hkinds : (Leaf.mapper spec).kinds b.context.shape = [.trainer, .applier] := if_pos htrain
    rw [if_pos htrain] at h
    obtain ⟨_, middle, htrainer, happlier⟩ := run_bind_ok.mp h
    obtain ⟨hlabelled, hfit⟩ := run_addTrainer_ok hwidth htrainer
    obtain ⟨rfl, huse⟩ := run_addApplier_ok happlier
    simp only [layout, Leaf.placements, Leaf.outlet, hkinds]
    refine ⟨?_, hgroup.trans (hfit.trans huse), fun leaf hleaf ↦ ?_⟩
    · rw [hfit.grown.length_nodes]
      rfl
    · rw [leaves, List.mem_singleton] at hleaf
      rw [hleaf]
      exact fun _ _ ↦ hlabelled
  · have hkinds : (Leaf.mapper spec).kinds b.context.shape = [.applier] := if_neg htrain
    rw [if_neg htrain] at h
    obtain ⟨rfl, huse⟩ := run_addApplier_ok h
    simp only [layout, Leaf.placements, Leaf.outlet, hkinds]
    refine ⟨rfl, hgroup.trans huse, fun leaf hleaf ↦ ?_⟩
    rw [leaves, List.mem_singleton] at hleaf
    rw [hleaf]
    exact fun hshape hstateful ↦ absurd ⟨hshape, hstateful⟩ htrain

theorem composes_consumer (spec : Spec ε σ) : (consumer spec).Composes := by
  intro left right b last h
  rw [compose, composeConsumer] at h
  by_cases hstateful : spec.stateful = true
  · simp only [hstateful, not_true_eq_false, if_false, run_bind_ok, run_check_ok, run_allocateGroup,
      run_get, Prod.mk.injEq, Except.ok.injEq] at h
    obtain ⟨_, _, ⟨hwidth, rfl⟩, _, _, ⟨rfl, rfl⟩, _, _, ⟨rfl, rfl⟩, h⟩ := h
    have hwidth := Track.expectWidth_eq_ok.mp hwidth
    have hgroup : Composed b [] [.consumer spec] (b.allocateGroup spec) :=
      Composed.allocateGroup b (.consumer spec)
    rw [hgroup.grown.context] at h
    cases hshape : b.context.shape with
    | train =>
      simp only [hshape, run_bind_ok, run_pure, Prod.mk.injEq, Except.ok.injEq] at h
      obtain ⟨_, _, htrainer, rfl, rfl⟩ := h
      obtain ⟨hlabelled, hfit⟩ := run_addTrainer_ok hwidth htrainer
      refine ⟨rfl, hgroup.trans hfit, fun leaf hleaf ↦ ?_⟩
      rw [leaves, List.mem_singleton] at hleaf
      rw [hleaf]
      exact ⟨hstateful, fun _ ↦ hlabelled⟩
    | apply =>
      simp only [hshape] at h
      obtain ⟨rfl, huse⟩ := run_addApplier_ok h
      refine ⟨rfl, hgroup.trans huse, fun leaf hleaf ↦ ?_⟩
      rw [leaves, List.mem_singleton] at hleaf
      rw [hleaf]
      exact ⟨hstateful, fun hnot ↦ by cases hnot⟩
  · simp [hstateful] at h

/-- What composing branches onto one track does when every branch composes. -/
theorem run_composeBranches_ok {branches : List (Expression ε σ)}
    (hbranches : ∀ branch ∈ branches, branch.Composes) {left : Track} {ports : List PortRef}
    {b last : Builder ε σ} (h : run (composeBranches branches left) b = (.ok ports, last)) :
    let laid := branchLayout b.context.shape b.context.scope branches b.nodes.length
      (b.ordinals b.context) left
    ports = laid.2 ∧ Composed b laid.1 (branchLeaves branches) last ∧
      ∀ leaf ∈ branchLeaves branches, leaf.Admissible b.context.shape left.label.isSome := by
  induction branches generalizing ports b with
  | nil =>
    rw [composeBranches, run_pure] at h
    obtain ⟨hports, rfl⟩ := Prod.mk.inj h
    exact ⟨(Except.ok.inj hports).symm, Composed.refl b, by simp [branchLeaves]⟩
  | cons branch rest ih =>
    simp only [composeBranches, run_bind_ok, run_pure, Prod.mk.injEq, Except.ok.injEq] at h
    obtain ⟨track, middle, hfirst, others, _, hrest, rfl, rfl⟩ := h
    obtain ⟨rfl, hcomposed, hadmissible⟩ :=
      hbranches branch List.mem_cons_self left track b middle hfirst
    obtain ⟨rfl, hothers, hadmissible'⟩ :=
      ih (fun other hother ↦ hbranches other (List.mem_cons_of_mem _ hother)) hrest
    rw [hcomposed.grown.context] at hadmissible'
    rw [hcomposed.grown.context, hcomposed.ordinal, hcomposed.grown.length_nodes] at hothers ⊢
    refine ⟨rfl, hcomposed.trans hothers, fun leaf hleaf ↦ ?_⟩
    rcases List.mem_append.mp hleaf with hleaf | hleaf
    · exact hadmissible leaf hleaf
    · exact hadmissible' leaf hleaf

/-- Composition that succeeds lays the expression out. -/
theorem composes (expression : Expression ε σ) : expression.Composes := by
  induction expression using Expression.induction with
  | mapper spec => exact composes_mapper spec
  | consumer spec => exact composes_consumer spec
  | sequence first second ihfirst ihsecond =>
    intro left right b last h
    rw [compose, run_bind_ok] at h
    obtain ⟨track, middle, hfirst, hsecond⟩ := h
    obtain ⟨rfl, hcomposed, hadmissible⟩ := ihfirst left track b middle hfirst
    obtain ⟨rfl, hback, hadmissible'⟩ := ihsecond _ right middle last hsecond
    rw [hcomposed.grown.context, label_layout] at hadmissible'
    rw [hcomposed.grown.context, hcomposed.ordinal, hcomposed.grown.length_nodes] at hback ⊢
    refine ⟨rfl, hcomposed.trans hback, fun leaf hleaf ↦ ?_⟩
    rcases List.mem_append.mp hleaf with hleaf | hleaf
    · exact hadmissible leaf hleaf
    · exact hadmissible' leaf hleaf
  | parallel branches ih =>
    intro left right b last h
    rw [compose] at h
    cases branches with
    | nil => simp at h
    | cons branch rest =>
      simp only [List.isEmpty_cons, Bool.false_eq_true, if_false, run_bind_ok, run_pure,
        Prod.mk.injEq, Except.ok.injEq] at h
      obtain ⟨ports, _, hports, rfl, rfl⟩ := h
      obtain ⟨rfl, hcomposed⟩ := run_composeBranches_ok ih hports
      exact ⟨rfl, hcomposed⟩

end Expression

namespace Operator

open Build

/-- An expansion that is remembered is found, and adds nothing. -/
theorem run_expand_of_lookup {operator : Operator ε σ} {left right : Track} {b : Builder ε σ}
    (h : b.memo.lookup ⟨operator.id, b.context, left⟩ = some right) :
    run (operator.expand left) b = (.ok right, b) := by
  unfold expand
  rw [run_bind, run_get]
  dsimp only
  rw [run_bind, run_get]
  dsimp only
  rw [h, run_pure]

/-- What expanding does that was not done before: it composes, and remembers a result. -/
theorem run_expand_of_new {id : Nat} (expression : Expression ε σ) {left : Track} {b : Builder ε σ}
    (hnew : b.memo.lookup ⟨id, b.context, left⟩ = none) :
    run (expand ⟨id, expression⟩ left) b =
      match run (expression.compose left) b with
      | (.ok right, last) =>
        (.ok right, { last with memo := (⟨id, b.context, left⟩, right) :: last.memo })
      | (.error e, last) => (.error e, last) := by
  unfold expand
  rw [run_bind, run_get]
  dsimp only
  rw [run_bind, run_get]
  dsimp only
  rw [hnew, run_bind]
  rcases run (expression.compose left) b with ⟨e | right, last⟩ <;> rfl

end Operator

end Dataflow
