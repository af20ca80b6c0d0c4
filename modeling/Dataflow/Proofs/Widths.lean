import Dataflow.Proofs.Ports

/-!
# Widths are checked when operators are composed

Whether an expression can be composed onto a track shows from the number of ports of the track
alone. `Expression.check` is that check. It goes through the mappers and consumers from left to
right, says what is wrong with the first one that does not fit, and otherwise gives the number of
ports behind the expression.

Composing on a builder agrees with the check (`Expression.agrees_compose`). If it succeeds, the
check has accepted, and the track behind the expression has the width that the check gives. If it
fails on a track of ports that exist, the check fails in the same way, because then no binding of
ports is refused. What the check reports is not mistaken for a refused binding either
(`FlowError.Fault.connect_ne`).
-/

set_option autoImplicit false
set_option relaxedAutoImplicit false

namespace Dataflow

variable {ε σ α : Type}

/-! ### Faults -/

namespace FlowError

/-- An operator stands behind a track of another width than it needs. -/
def misfit (operator : String) (needed given : Nat) : FlowError :=
  .composition operator s!"expects {needed} input port(s) but the left side provides {given}"

/-- An operator is to be trained where there is no label. -/
def unlabelled (operator : String) : FlowError :=
  .composition operator "training requires a label but none is available"

/-- A consumer has an actor that cannot be trained. -/
def untrainable (operator : String) : FlowError :=
  .composition operator "a consumer requires a stateful actor"

/-- Parallel branches are missing. -/
def branchless : FlowError :=
  .composition "parallel" "no branches given"

/-- What may be wrong with a leaf, or with parallel branches. -/
inductive Fault : FlowError → Prop
  | misfit (operator : String) (needed given : Nat) : Fault (misfit operator needed given)
  | unlabelled (operator : String) : Fault (unlabelled operator)
  | untrainable (operator : String) : Fault (untrainable operator)
  | branchless : Fault branchless

end FlowError

open FlowError

/-! ### The check -/

/-- The number of ports behind a leaf on a track of a width, or what is wrong with the leaf. -/
def Leaf.check (shape : Shape) (labelled : Bool) : Leaf ε σ → Nat → Except FlowError Nat
  | mapper spec, width =>
    if width ≠ spec.arity.inputs then .error (misfit spec.name spec.arity.inputs width)
    else if shape = .train ∧ spec.stateful ∧ ¬ labelled then .error (unlabelled spec.name)
    else .ok spec.arity.outputs
  | consumer spec, width =>
    if ¬ spec.stateful then .error (untrainable spec.name)
    else if width ≠ spec.arity.inputs then .error (misfit spec.name spec.arity.inputs width)
    else if shape = .train ∧ ¬ labelled then .error (unlabelled spec.name)
    else .ok (if shape = .train then width else spec.arity.outputs)

namespace Expression

mutual

/-- The number of ports behind an expression on a track of a width, or what is wrong with the first
leaf, from left to right, that does not fit. -/
def check (shape : Shape) (labelled : Bool) : Expression ε σ → Nat → Except FlowError Nat
  | mapper spec, width => (Leaf.mapper spec).check shape labelled width
  | consumer spec, width => (Leaf.consumer spec).check shape labelled width
  | sequence first second, width => do
    let middle ← check shape labelled first width
    check shape labelled second middle
  | parallel branches, width =>
    if branches.isEmpty then .error branchless else checkBranches shape labelled branches width

/-- The number of ports of all branches on a track of a width, side by side. -/
def checkBranches (shape : Shape) (labelled : Bool) :
    List (Expression ε σ) → Nat → Except FlowError Nat
  | [], _ => .ok 0
  | branch :: rest, width => do
    let front ← check shape labelled branch width
    let back ← checkBranches shape labelled rest width
    return front + back

end

end Expression

/-! ### Faults and refused bindings -/

/-- The first character of the text of a composition error. -/
def FlowError.initial? : FlowError → Option Char
  | .composition _ text => text.toList.head?
  | _ => none

theorem FlowError.initial?_append {operator front back : String} {c : Char}
    (h : initial? (.composition operator front) = some c) :
    initial? (.composition operator (front ++ back)) = some c := by
  rw [initial?] at h ⊢
  rw [String.toList_append, List.head?_append, h, Option.some_or]

theorem FlowError.Fault.initial {e : FlowError} (h : e.Fault) :
    e.initial? ∈ [some 'e', some 't', some 'a', some 'n'] := by
  cases h with
  | misfit operator needed given =>
    exact List.mem_of_getElem? (i := 0)
      (congrArg some (initial?_append (initial?_append (initial?_append rfl)))).symm
  | unlabelled operator => exact List.mem_of_getElem? (i := 1) rfl
  | untrainable operator => exact List.mem_of_getElem? (i := 2) rfl
  | branchless => exact List.mem_of_getElem? (i := 3) rfl

/-- Why ports cannot be bound: a node does not exist, a port is not declared, or the input port is
taken. -/
theorem Builder.initial_connect {b : Builder ε σ} {tail : PortRef} {head : NodeId} {input : Nat}
    {e : FlowError} (h : b.connect tail head input = .error e) :
    e.initial? = some 'u' ∨ e.initial? = some 'i' ∨ e.initial? = some 'o' := by
  unfold Builder.connect Builder.node at h
  cases hhead : b.nodes[head]? with
  | none =>
    simp only [hhead, bind, Except.bind, Except.error.injEq] at h
    subst h
    exact .inl (initial?_append (initial?_append rfl))
  | some target =>
    simp only [hhead, bind, Except.bind, throw, throwThe, MonadExceptOf.throw] at h
    by_cases hinput : target.arity.inputs ≤ input
    · rw [if_pos hinput] at h
      cases h
      exact .inr (.inl (initial?_append (initial?_append (initial?_append (initial?_append rfl)))))
    · rw [if_neg hinput] at h
      cases htail : b.nodes[tail.node]? with
      | none =>
        rw [htail] at h
        cases h
        exact .inl (initial?_append (initial?_append rfl))
      | some source =>
        rw [htail] at h
        dsimp only at h
        by_cases hport : source.arity.outputs ≤ tail.port
        · rw [if_pos hport] at h
          cases h
          exact .inr (.inr
            (initial?_append (initial?_append (initial?_append (initial?_append rfl)))))
        · rw [if_neg hport] at h
          cases hbound : boundPort? b.edges head input with
          | none =>
            rw [hbound] at h
            cases h
          | some bound =>
            rw [hbound] at h
            cases h
            exact .inr (.inl (initial?_append (initial?_append (initial?_append (initial?_append
              (initial?_append rfl))))))

/-- No binding of ports fails with a fault that the check reports: the texts start differently. -/
theorem FlowError.Fault.connect_ne {e : FlowError} (h : e.Fault) (b : Builder ε σ) (tail : PortRef)
    (head : NodeId) (input : Nat) : b.connect tail head input ≠ .error e := by
  intro hconnect
  have hmem := h.initial
  rcases Builder.initial_connect hconnect with hinitial | hinitial | hinitial
  all_goals simp [hinitial] at hmem

theorem bind_eq_error {β : Type} {body : Except FlowError α} {next : α → Except FlowError β}
    {e : FlowError} (h : body >>= next = .error e) :
    body = .error e ∨ ∃ a, next a = .error e := by
  cases body with
  | error e' => exact .inl (congrArg _ (Except.error.inj h))
  | ok a => exact .inr ⟨a, h⟩

theorem Leaf.fault_check {leaf : Leaf ε σ} {shape : Shape} {labelled : Bool} {width : Nat}
    {e : FlowError} (h : leaf.check shape labelled width = .error e) : e.Fault := by
  cases leaf with
  | mapper spec =>
    rw [check] at h
    split_ifs at h
    · rw [← Except.error.inj h]
      exact .misfit ..
    · rw [← Except.error.inj h]
      exact .unlabelled ..
  | consumer spec =>
    rw [check] at h
    split_ifs at h
    · rw [← Except.error.inj h]
      exact .misfit ..
    · rw [← Except.error.inj h]
      exact .unlabelled ..
    · rw [← Except.error.inj h]
      exact .untrainable ..

namespace Expression

theorem fault_checkBranches {branches : List (Expression ε σ)} {shape : Shape} {labelled : Bool}
    {width : Nat} {e : FlowError}
    (hbranches : ∀ branch ∈ branches, branch.check shape labelled width = .error e → e.Fault)
    (h : checkBranches shape labelled branches width = .error e) : e.Fault := by
  induction branches with
  | nil =>
    rw [checkBranches] at h
    cases h
  | cons branch rest ih =>
    rw [checkBranches] at h
    rcases bind_eq_error h with h | ⟨front, h⟩
    · exact hbranches branch List.mem_cons_self h
    · rcases bind_eq_error h with h | ⟨back, h⟩
      · exact ih (fun other hother ↦ hbranches other (List.mem_cons_of_mem _ hother)) h
      · cases h

/-- What the check reports is a fault of a leaf, or of parallel branches that are missing. -/
theorem fault_check (expression : Expression ε σ) {shape : Shape} {labelled : Bool}
    {width : Nat} {e : FlowError} (h : expression.check shape labelled width = .error e) :
    e.Fault := by
  induction expression using Expression.induction generalizing width with
  | mapper spec => exact Leaf.fault_check h
  | consumer spec => exact Leaf.fault_check h
  | sequence first second ihfirst ihsecond =>
    rw [check] at h
    rcases bind_eq_error h with h | ⟨middle, h⟩
    · exact ihfirst h
    · exact ihsecond h
  | parallel branches ih =>
    rw [check] at h
    split_ifs at h
    · rw [← Except.error.inj h]
      exact .branchless
    · exact fault_checkBranches (fun branch hbranch ↦ ih branch hbranch) h

open Build

/-! ### Composing agrees with the check -/

/-- An outcome agrees with a verdict. If there is a result, the verdict gives its measure; a failure
is the failure of the verdict, at least if `sure` holds. -/
structure Agrees (sure : Prop) (measure : α → Nat) (outcome : Except FlowError α)
    (verdict : Except FlowError Nat) : Prop where
  sound : ∀ a, outcome = .ok a → verdict = .ok (measure a)
  complete : sure → ∀ e, outcome = .error e → verdict = .error e

/-- What `agrees_compose` says of an expression. -/
def Checked (expression : Expression ε σ) : Prop :=
  ∀ (left : Track) (b : Builder ε σ),
    Agrees (b.Closed ∧ left.Declared b.nodes) Track.width (run (expression.compose left) b).1
      (expression.check b.context.shape left.label.isSome left.width)

/-- A computation that fails agrees with the same failure. -/
theorem agrees_error {sure : Prop} {measure : α → Nat} {outcome : Except FlowError α}
    {e : FlowError} (h : outcome = .error e) : Agrees sure measure outcome (.error e) where
  sound _ hok := nomatch h.symm.trans hok
  complete _ _ he' := congrArg _ (Except.error.inj (h.symm.trans he'))

/-- A computation whose results all have one measure, and that has one if `sure` holds, agrees with
that measure. -/
theorem agrees_ok {sure : Prop} {measure : α → Nat} {outcome : Except FlowError α} {n : Nat}
    (hmeasure : ∀ a, outcome = .ok a → measure a = n) (hsure : sure → ∃ a, outcome = .ok a) :
    Agrees sure measure outcome (.ok n) where
  sound a hok := congrArg _ (hmeasure a hok).symm
  complete h e he := by
    obtain ⟨a, ha⟩ := hsure h
    cases ha.symm.trans he

/-- Without a label no trainer is added. -/
theorem run_addTrainer_unlabelled {spec : Spec ε σ} {left : Track} (group : GroupId)
    (b : Builder ε σ) (hlabel : ¬ left.label.isSome = true) :
    run (addTrainer spec group left) b = (.error (unlabelled spec.name), b) := by
  rw [addTrainer, Track.requireLabel, Option.not_isSome_iff_eq_none.mp hlabel]
  rfl

/-- What composing a mapper does where its width fits. -/
theorem run_composeMapper {spec : Spec ε σ} {left : Track} (b : Builder ε σ)
    (hwidth : left.width = spec.arity.inputs) :
    run (composeMapper spec left) b =
      run (if b.context.shape = .train ∧ spec.stateful then do
            addTrainer spec b.nextGroup left
            addApplier spec b.nextGroup left
          else addApplier spec b.nextGroup left) (b.allocateGroup spec) := by
  rw [composeMapper, Track.expectWidth, if_pos hwidth]
  rfl

/-- What composing a consumer does where its width fits. -/
theorem run_composeConsumer {spec : Spec ε σ} {left : Track} (b : Builder ε σ)
    (hstateful : spec.stateful = true) (hwidth : left.width = spec.arity.inputs) :
    run (composeConsumer spec left) b =
      run (match b.context.shape with
          | .train => do
            addTrainer spec b.nextGroup left
            return left
          | .apply => addApplier spec b.nextGroup left) (b.allocateGroup spec) := by
  rw [composeConsumer, Track.expectWidth, if_pos hwidth, if_neg (not_not_intro hstateful)]
  rfl

/-- Fitting a leaf and then using it succeeds behind ports that exist. -/
theorem exists_fit_use {spec : Spec ε σ} (group : GroupId) {left : Track} {b : Builder ε σ}
    (hb : b.Closed) (hleft : left.Declared b.nodes) (hwidth : left.width = spec.arity.inputs)
    (hlabel : left.label.isSome = true) :
    ∃ right, (run (do
      addTrainer spec group left
      addApplier spec group left) b).1 = .ok right := by
  have hfit := run_addTrainer group hb hleft hwidth hlabel
  have hgrown := (run_addTrainer_ok hwidth hfit).2.grown
  have huse := run_addApplier group (hgrown.closed hb) (hgrown.declared hleft) hwidth
  exact ⟨_, congrArg Prod.fst (run_bind_ok.mpr ⟨(), _, hfit, huse⟩)⟩

theorem checked_mapper (spec : Spec ε σ) : (mapper spec).Checked := by
  intro left b
  rw [compose, check, Leaf.check]
  by_cases hwidth : left.width = spec.arity.inputs
  · rw [if_neg (not_not_intro hwidth), run_composeMapper b hwidth]
    by_cases htrain : b.context.shape = .train ∧ spec.stateful
    · rw [if_pos htrain]
      by_cases hlabel : left.label.isSome = true
      · rw [if_neg fun hfault ↦ hfault.2.2 hlabel]
        refine agrees_ok (fun right hok ↦ ?_) fun hsure ↦
          exists_fit_use (b := b.allocateGroup spec) _ hsure.1 hsure.2 hwidth hlabel
        obtain ⟨_, _, -, huse⟩ := run_bind_ok.mp (Prod.ext hok rfl)
        obtain ⟨rfl, -⟩ := run_addApplier_ok huse
        exact Track.width_rebased
      · rw [if_pos ⟨htrain.1, htrain.2, hlabel⟩]
        refine agrees_error ?_
        rw [run_bind, run_addTrainer_unlabelled _ _ hlabel]
    · rw [if_neg htrain, if_neg fun hfault ↦ htrain ⟨hfault.1, hfault.2.1⟩]
      refine agrees_ok (fun right hok ↦ ?_) fun hsure ↦
        ⟨_, congrArg Prod.fst (run_addApplier (b := b.allocateGroup spec) _ hsure.1 hsure.2 hwidth)⟩
      obtain ⟨rfl, -⟩ := run_addApplier_ok (Prod.ext hok rfl)
      exact Track.width_rebased
  · rw [if_pos hwidth]
    refine agrees_error ?_
    rw [composeMapper, Track.expectWidth, if_neg hwidth]
    rfl

theorem checked_consumer (spec : Spec ε σ) : (consumer spec).Checked := by
  intro left b
  rw [compose, check, Leaf.check]
  by_cases hstateful : spec.stateful = true
  · rw [if_neg (not_not_intro hstateful)]
    by_cases hwidth : left.width = spec.arity.inputs
    · rw [if_neg (not_not_intro hwidth), run_composeConsumer b hstateful hwidth]
      cases b.context.shape with
      | train =>
        rw [if_pos rfl]
        by_cases hlabel : left.label.isSome = true
        · rw [if_neg fun hfault ↦ hfault.2 hlabel]
          refine agrees_ok (fun right hok ↦ ?_) fun hsure ↦ ⟨left, congrArg Prod.fst
            (run_bind_ok.mpr ⟨(), _, run_addTrainer (b := b.allocateGroup spec) _ hsure.1 hsure.2
              hwidth hlabel, rfl⟩)⟩
          obtain ⟨_, _, -, hleft⟩ := run_bind_ok.mp (Prod.ext hok rfl)
          rw [← Except.ok.inj (congrArg Prod.fst hleft)]
        · rw [if_pos ⟨rfl, hlabel⟩]
          refine agrees_error ?_
          rw [run_bind, run_addTrainer_unlabelled _ _ hlabel]
      | apply =>
        rw [if_neg (by simp), if_neg (by simp)]
        refine agrees_ok (fun right hok ↦ ?_) fun hsure ↦ ⟨_, congrArg Prod.fst
          (run_addApplier (b := b.allocateGroup spec) _ hsure.1 hsure.2 hwidth)⟩
        obtain ⟨rfl, -⟩ := run_addApplier_ok (Prod.ext hok rfl)
        exact Track.width_rebased
    · rw [if_pos hwidth]
      refine agrees_error ?_
      rw [composeConsumer, Track.expectWidth, if_neg hwidth, if_neg (not_not_intro hstateful)]
      rfl
  · rw [if_pos hstateful]
    refine agrees_error ?_
    rw [composeConsumer, if_pos hstateful]
    rfl

/-- What composing one part and then another comes to. -/
theorem Agrees.bind {β : Type} {sure : Prop} {measure : α → Nat} {total : β → Nat}
    {body : Build ε σ α} {next : α → Build ε σ β} {b : Builder ε σ} {verdict : Except FlowError Nat}
    {rest : Nat → Except FlowError Nat} (h : Agrees sure measure (run body b).1 verdict)
    (hnext : ∀ a after, run body b = (.ok a, after) →
      Agrees sure total (run (next a) after).1 (rest (measure a))) :
    Agrees sure total (run (body >>= next) b).1 (verdict >>= rest) := by
  rw [run_bind]
  rcases hrun : run body b with ⟨e | a, after⟩
  · rw [hrun] at h
    refine ⟨fun a hok ↦ (nomatch hok), fun hsure e' he' ↦ ?_⟩
    rw [h.complete hsure e rfl]
    exact congrArg _ (Except.error.inj he')
  · rw [hrun] at h
    rw [h.sound a rfl]
    exact hnext a after hrun

theorem Agrees.mono {sure safe : Prop} {measure : α → Nat} {outcome : Except FlowError α}
    {verdict : Except FlowError Nat} (h : Agrees sure measure outcome verdict)
    (himp : safe → sure) : Agrees safe measure outcome verdict :=
  ⟨h.sound, fun hsafe ↦ h.complete (himp hsafe)⟩

theorem agrees_composeBranches {branches : List (Expression ε σ)}
    (hbranches : ∀ branch ∈ branches, branch.Checked) (left : Track) (b : Builder ε σ) :
    Agrees (b.Closed ∧ left.Declared b.nodes) List.length (run (composeBranches branches left) b).1
      (checkBranches b.context.shape left.label.isSome branches left.width) := by
  induction branches generalizing b with
  | nil =>
    rw [composeBranches, checkBranches]
    refine agrees_ok (fun ports hok ↦ ?_) fun _ ↦ ⟨[], rfl⟩
    rw [← Except.ok.inj hok]
    rfl
  | cons branch rest ih =>
    rw [composeBranches, checkBranches]
    refine (hbranches branch List.mem_cons_self left b).bind fun track middle hfirst ↦ ?_
    have hgrown := (branch.composes left track b middle hfirst).2.1.grown
    have hrest := ih (fun other hother ↦ hbranches other (List.mem_cons_of_mem _ hother)) middle
    rw [hgrown.context] at hrest
    refine (hrest.mono fun hsure ↦ ⟨hgrown.closed hsure.1, hgrown.declared hsure.2⟩).bind
      fun ports last _ ↦ agrees_ok (fun all hok ↦ ?_) fun _ ↦ ⟨_, rfl⟩
    rw [← Except.ok.inj hok, List.length_append]
    rfl

/-- Composing agrees with the check: if it succeeds, the check has accepted with the width of the
track behind the expression, and if it fails on a track of ports that exist, so does the check. -/
theorem agrees_compose (expression : Expression ε σ) : expression.Checked := by
  induction expression using Expression.induction with
  | mapper spec => exact checked_mapper spec
  | consumer spec => exact checked_consumer spec
  | sequence first second ihfirst ihsecond =>
    intro left b
    rw [compose, check]
    refine (ihfirst left b).bind fun track middle hfirst ↦ ?_
    have hgrown := (first.composes left track b middle hfirst).2.1.grown
    have hsecond := ihsecond track middle
    rw [hgrown.context, label_compose hfirst] at hsecond
    exact hsecond.mono fun hsure ↦ ⟨hgrown.closed hsure.1, declared_compose hfirst hsure.2⟩
  | parallel branches ih =>
    intro left b
    rw [compose, check]
    by_cases hempty : branches.isEmpty = true
    · rw [if_pos hempty, if_pos hempty]
      exact agrees_error rfl
    · rw [if_neg hempty, if_neg hempty, ← bind_pure (checkBranches _ _ _ _)]
      refine (agrees_composeBranches ih left b).bind fun ports last _ ↦
        agrees_ok (fun right hok ↦ ?_) fun _ ↦ ⟨_, rfl⟩
      rw [← Except.ok.inj hok]
      rfl

end Expression

/-! ### What the check accepts -/

/-- All inputs that the node of a placement declares are bound. -/
def Placement.Filled (p : Placement ε σ) : Prop :=
  p.inputs.length = (p.kind.arity p.spec.arity).inputs

namespace Leaf

/-- When the check accepts a leaf, and the width it gives: that of the last node if this is an
applier, else the width before the leaf. -/
theorem check_eq_ok {leaf : Leaf ε σ} {shape : Shape} {labelled : Bool} {width n : Nat} :
    leaf.check shape labelled width = .ok n ↔
      width = leaf.spec.arity.inputs ∧ leaf.Admissible shape labelled ∧
        n = if (leaf.kinds shape).getLast? = some .applier then leaf.spec.arity.outputs
          else width := by
  cases leaf with
  | mapper spec =>
    rw [check, Admissible, Leaf.spec]
    cases shape <;> by_cases hstateful : spec.stateful = true <;>
      by_cases hwidth : width = spec.arity.inputs <;> by_cases hlabel : labelled = true <;>
      simp [hstateful, hwidth, hlabel, kinds, eq_comm]
  | consumer spec =>
    rw [check, Admissible, Leaf.spec]
    cases shape <;> by_cases hstateful : spec.stateful = true <;>
      by_cases hwidth : width = spec.arity.inputs <;> by_cases hlabel : labelled = true <;>
      simp [hstateful, hwidth, hlabel, kinds, eq_comm]

/-- The nodes of a leaf that the check accepts have all their inputs bound. -/
theorem filled_placements {leaf : Leaf ε σ} {shape : Shape} {left : Track} {n : Nat}
    (h : leaf.check shape left.label.isSome left.width = .ok n) (group : GroupId) :
    ∀ p ∈ leaf.placements shape group left, p.Filled := by
  obtain ⟨hwidth, hadmissible, -⟩ := check_eq_ok.mp h
  intro p hp
  obtain ⟨kind, hkind, rfl⟩ := List.mem_map.mp hp
  rcases cases_kinds hkind with rfl | rfl
  · obtain ⟨label, hlabel⟩ :=
      Option.isSome_iff_exists.mp (hadmissible.labelled_of_trainer hkind)
    simp only [Placement.Filled, Placement.ofLeaf, if_true, hlabel, Option.toList_some,
      List.length_append, List.length_singleton]
    exact congrArg (· + 1) hwidth
  · exact hwidth

theorem width_outlet {leaf : Leaf ε σ} {shape : Shape} {left : Track} {n : Nat}
    (h : leaf.check shape left.label.isSome left.width = .ok n) (node : Nat) :
    (leaf.outlet shape node left).width = n := by
  obtain ⟨-, -, rfl⟩ := check_eq_ok.mp h
  unfold outlet
  split_ifs
  · exact Track.width_rebased
  · rfl

end Leaf

theorem bind_eq_ok {β : Type} {body : Except FlowError α} {next : α → Except FlowError β} {b : β} :
    body >>= next = .ok b ↔ ∃ a, body = .ok a ∧ next a = .ok b := by
  cases body <;> simp [bind, Except.bind]

namespace Expression

variable {shape : Shape}

/-- The check accepts branches if it accepts each of them, with the sum of their widths. -/
theorem checkBranches_cons {labelled : Bool} {branch : Expression ε σ}
    {rest : List (Expression ε σ)} {width n : Nat} :
    checkBranches shape labelled (branch :: rest) width = .ok n ↔
      ∃ front back, branch.check shape labelled width = .ok front ∧
        checkBranches shape labelled rest width = .ok back ∧ front + back = n := by
  rw [checkBranches]
  simp only [bind_eq_ok, pure, Except.pure, Except.ok.injEq]
  constructor
  · rintro ⟨front, hfront, back, hback, hsum⟩
    exact ⟨front, back, hfront, hback, hsum⟩
  · rintro ⟨front, back, hfront, hback, hsum⟩
    exact ⟨front, hfront, back, hback, hsum⟩

/-- What `laid_of_check` says of an expression. -/
def LaidFilled (shape : Shape) (expression : Expression ε σ) : Prop :=
  ∀ (left : Track) (n : Nat), expression.check shape left.label.isSome left.width = .ok n →
    ∀ scope node leaf, (expression.layout shape scope node leaf left).2.width = n ∧
      ∀ p ∈ (expression.layout shape scope node leaf left).1, p.Filled

theorem laid_of_checkBranches {branches : List (Expression ε σ)}
    (hbranches : ∀ branch ∈ branches, branch.LaidFilled shape) {left : Track} {n : Nat}
    (h : checkBranches shape left.label.isSome branches left.width = .ok n)
    (scope node leaf : Nat) :
    (branchLayout shape scope branches node leaf left).2.length = n ∧
      ∀ p ∈ (branchLayout shape scope branches node leaf left).1, p.Filled := by
  induction branches generalizing n node leaf with
  | nil =>
    rw [checkBranches] at h
    rw [← Except.ok.inj h]
    exact ⟨rfl, fun p hp ↦ nomatch hp⟩
  | cons branch rest ih =>
    obtain ⟨front, back, hfront, hback, rfl⟩ := checkBranches_cons.mp h
    obtain ⟨hwidth, hfilled⟩ :=
      hbranches branch List.mem_cons_self left front hfront scope node leaf
    obtain ⟨hwidth', hfilled'⟩ :=
      ih (fun other hother ↦ hbranches other (List.mem_cons_of_mem _ hother)) hback
        (node + (branch.layout shape scope node leaf left).1.length) (leaf + branch.leaves.length)
    rw [← hwidth, ← hwidth']
    refine ⟨List.length_append, fun p hp ↦ ?_⟩
    rcases List.mem_append.mp hp with hp | hp
    · exact hfilled p hp
    · exact hfilled' p hp

/-- An expression that the check accepts is laid out with the width that the check gives, and all
inputs of its nodes are bound. -/
theorem laid_of_check (expression : Expression ε σ) : expression.LaidFilled shape := by
  induction expression using Expression.induction with
  | mapper spec =>
    exact fun left n h scope node leaf ↦ ⟨Leaf.width_outlet h node, Leaf.filled_placements h _⟩
  | consumer spec =>
    exact fun left n h scope node leaf ↦ ⟨Leaf.width_outlet h node, Leaf.filled_placements h _⟩
  | sequence first second ihfirst ihsecond =>
    intro left n h scope node leaf
    rw [check] at h
    obtain ⟨middle, hfirst, hsecond⟩ := bind_eq_ok.mp h
    obtain ⟨hwidth, hfilled⟩ := ihfirst left middle hfirst scope node leaf
    rw [← hwidth, ← label_layout shape scope first node leaf left] at hsecond
    obtain ⟨hwidth', hfilled'⟩ := ihsecond _ n hsecond scope
      (node + (first.layout shape scope node leaf left).1.length) (leaf + first.leaves.length)
    refine ⟨hwidth', fun p hp ↦ ?_⟩
    rcases List.mem_append.mp hp with hp | hp
    · exact hfilled p hp
    · exact hfilled' p hp
  | parallel branches ih =>
    intro left n h scope node leaf
    rw [check] at h
    split_ifs at h
    exact laid_of_checkBranches ih h scope node leaf

theorem admissible_of_checkBranches {branches : List (Expression ε σ)} {labelled : Bool}
    {width n : Nat}
    (hbranches : ∀ branch ∈ branches, ∀ m, branch.check shape labelled width = .ok m →
      ∀ leaf ∈ branch.leaves, leaf.Admissible shape labelled)
    (h : checkBranches shape labelled branches width = .ok n) :
    ∀ leaf ∈ branchLeaves branches, leaf.Admissible shape labelled := by
  induction branches generalizing n with
  | nil => exact fun leaf hleaf ↦ nomatch hleaf
  | cons branch rest ih =>
    obtain ⟨front, back, hfront, hback, -⟩ := checkBranches_cons.mp h
    intro leaf hleaf
    rcases List.mem_append.mp hleaf with hleaf | hleaf
    · exact hbranches branch List.mem_cons_self front hfront leaf hleaf
    · exact ih (fun other hother ↦ hbranches other (List.mem_cons_of_mem _ hother)) hback leaf hleaf

/-- Leaves of an expression that the check accepts are admissible. -/
theorem admissible_of_check (expression : Expression ε σ) {labelled : Bool} {width n : Nat}
    (h : expression.check shape labelled width = .ok n) :
    ∀ leaf ∈ expression.leaves, leaf.Admissible shape labelled := by
  induction expression using Expression.induction generalizing width n with
  | mapper spec =>
    intro leaf hleaf
    rw [List.mem_singleton.mp hleaf]
    exact (Leaf.check_eq_ok.mp h).2.1
  | consumer spec =>
    intro leaf hleaf
    rw [List.mem_singleton.mp hleaf]
    exact (Leaf.check_eq_ok.mp h).2.1
  | sequence first second ihfirst ihsecond =>
    rw [check] at h
    obtain ⟨middle, hfirst, hsecond⟩ := bind_eq_ok.mp h
    intro leaf hleaf
    rcases List.mem_append.mp hleaf with hleaf | hleaf
    · exact ihfirst hfirst leaf hleaf
    · exact ihsecond hsecond leaf hleaf
  | parallel branches ih =>
    rw [check] at h
    split_ifs at h
    change ∀ leaf ∈ branchLeaves branches, _
    exact admissible_of_checkBranches (fun branch hbranch _ ↦ ih branch hbranch) h

end Expression
namespace Operator

open Build

/-- Expanding an operator for the first time on a track, in a context of its own, lays its
expression out with the groups of that context numbered from zero, and remembers it. The check has
accepted the expression. -/
theorem run_expand_ok {operator : Operator ε σ} {context : Context} {left right : Track}
    {b last : Builder ε σ} (hnew : b.memo.lookup ⟨operator.id, context, left⟩ = none)
    (h : run (inContext context (operator.expand left)) b = (.ok right, last)) :
    let laid := operator.expression.layout context.shape context.scope b.nodes.length 0 left
    right = laid.2 ∧
      Grown b laid.1 (groupsFrom context.scope 0 operator.expression.leaves) last ∧
      last.memo = (⟨operator.id, context, left⟩, right) :: b.memo ∧
      operator.expression.check context.shape left.label.isSome left.width = .ok right.width := by
  obtain ⟨after, hexpand, rfl⟩ := run_inContext_ok.mp h
  rw [run_expand_of_new (b := b.enter context) operator.expression hnew] at hexpand
  rcases hcompose : run (operator.expression.compose left) (b.enter context) with
    ⟨e | track, composed⟩
  · rw [hcompose] at hexpand
    cases hexpand
  · rw [hcompose] at hexpand
    obtain ⟨hright, rfl⟩ := Prod.mk.inj hexpand
    obtain rfl := Except.ok.inj hright
    obtain ⟨htrack, hcomposed, -⟩ := operator.expression.composes left track _ composed hcompose
    have hcheck := (operator.expression.agrees_compose left (b.enter context)).sound track
    rw [hcompose] at hcheck
    have hstart : (b.enter context).ordinals (b.enter context).context = 0 := if_pos rfl
    have hgrown := hcomposed.grown.remember ((⟨operator.id, context, left⟩, track) :: composed.memo)
    rw [hstart] at htrack hgrown
    exact ⟨htrack, hgrown.leave, congrArg _ hcomposed.memo, hcheck rfl⟩

end Operator

end Dataflow
