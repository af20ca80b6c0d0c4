import Dataflow.Proofs.Keeping
import Dataflow.Proofs.Widths

/-!
# Expansion is a sound and complete check of widths

An operator is expanded on a builder that may have a past: nodes and edges of any kind, groups taken
in several contexts, earlier expansions that succeeded or failed, and a memo of those that
succeeded. `Builder.Attained` describes such builders. Whatever was done, no edge of the builder
enters a node that does not exist, and what is remembered of the operator is what the check says of
it (`Builder.Attained.closed_remembered`).

So whether an expansion is found in the memo or made anew, it comes to what the check says
(`Operator.checksOut_expand`). It succeeds exactly if the check accepts, and the track behind it has
the width that the check gives, the label of the track before it, and ports that exist. If it fails,
it fails with the first fault from left to right, and never with a refused binding
(`Operator.expansion_checksOut`).
-/

set_option autoImplicit false
set_option relaxedAutoImplicit false

namespace Dataflow

variable {ε σ : Type}

open Build

/-! ### What is remembered of an operator -/

namespace Operator

/-- What is remembered of an expansion of the operator agrees with the check: the width, the label
passed on, and ports that the track before it has or that exist. -/
structure Recorded (operator : Operator ε σ) (nodes : List (Node ε σ)) (key : ExpansionKey)
    (right : Track) : Prop where
  check : operator.expression.check key.context.shape key.left.label.isSome key.left.width =
    .ok right.width
  label : right.label = key.left.label
  ports : ∀ port ∈ right.ports, port ∈ key.left.ports ∨ port.Declared nodes

/-- All expansions of the operator that are remembered agree with the check. -/
def Remembered (operator : Operator ε σ) (b : Builder ε σ) : Prop :=
  ∀ key right, (key, right) ∈ b.memo → key.operator = operator.id →
    operator.Recorded b.nodes key right

theorem Remembered.of_nodes {operator : Operator ε σ} {b after : Builder ε σ}
    (h : operator.Remembered b) (hmemo : after.memo = b.memo) {more : List (Node ε σ)}
    (hnodes : after.nodes = b.nodes ++ more) : operator.Remembered after := by
  intro key right hmem hid
  rw [hmemo] at hmem
  have hrecorded := h key right hmem hid
  refine ⟨hrecorded.check, hrecorded.label, fun port hport ↦ ?_⟩
  rw [hnodes]
  exact (hrecorded.ports port hport).imp_right fun hdeclared ↦ hdeclared.append more

end Operator

namespace Builder

/-- The builders that the operations lead to, where the memo is filled by expanding operators. The
given operator may have been expanded on any tracks, and failed on some. Of other operators anything
may be remembered. -/
inductive Attained (operator : Operator ε σ) : Builder ε σ → Prop
  | new (mode : Mode) : Attained operator (Builder.new mode)
  | addNode {b : Builder ε σ} (h : Attained operator b) (kind : NodeKind) (spec : Spec ε σ)
      (group : Option GroupId) (arity : Arity) :
      Attained operator (b.addNodeWithArity kind spec group arity)
  | connect {b after : Builder ε σ} (h : Attained operator b) {tail : PortRef} {head : NodeId}
      {input : Nat} (hstep : b.connect tail head input = .ok after) : Attained operator after
  | addStateEdge {b after : Builder ε σ} (h : Attained operator b) {tail head : NodeId}
      (hstep : b.addStateEdge tail head = .ok after) : Attained operator after
  | allocateGroup {b : Builder ε σ} (h : Attained operator b) (spec : Spec ε σ) :
      Attained operator (b.allocateGroup spec)
  | enter {b : Builder ε σ} (h : Attained operator b) (context : Context) :
      Attained operator (b.enter context)
  | leave {b : Builder ε σ} (h : Attained operator b) (former : Context) :
      Attained operator (b.leave former)
  | expanded {b : Builder ε σ} (h : Attained operator b) (expansion : Option Expansion) :
      Attained operator { b with expansion }
  | expand {b : Builder ε σ} (h : Attained operator b) (left : Track) :
      Attained operator (run (operator.expand left) b).2
  | remember {b : Builder ε σ} (h : Attained operator b) (key : ExpansionKey)
      (hother : key.operator ≠ operator.id) (right : Track) :
      Attained operator { b with memo := (key, right) :: b.memo }

theorem nodes_enter (b : Builder ε σ) (context : Context) : (b.enter context).nodes = b.nodes := rfl

/-- A builder has grown from another: nodes and edges were added, none of the edges enters a node
that does not exist, and nothing was remembered. -/
structure Enlarged (b last : Builder ε σ) : Prop where
  nodes : ∃ more, last.nodes = b.nodes ++ more
  closed : last.Closed
  memo : last.memo = b.memo
  context : last.context = b.context

theorem Closed.addNode {b : Builder ε σ} (h : b.Closed) (kind : NodeKind) (spec : Spec ε σ)
    (group : Option GroupId) (arity : Arity) :
    (b.addNodeWithArity kind spec group arity).Closed := by
  intro edge hedge
  have hlength : (b.addNodeWithArity kind spec group arity).nodes.length = b.nodes.length + 1 :=
    List.length_append
  rw [hlength]
  rcases List.mem_append.mp hedge with hedge | hedge
  · exact Nat.lt_succ_of_lt (h edge hedge)
  · obtain ⟨trainer, -, -, -, rfl⟩ := mem_stateEdges hedge
    exact Nat.lt_succ_self _

theorem Closed.addEdge {b : Builder ε σ} (h : b.Closed) (edge : Edge) {target : Node ε σ}
    (htarget : b.nodes[edge.head]? = some target) :
    ({ b with edges := b.edges ++ [edge] } : Builder ε σ).Closed := by
  intro other hother
  rcases List.mem_append.mp hother with hother | hother
  · exact h other hother
  · rw [List.mem_singleton.mp hother]
    exact (List.getElem?_eq_some_iff.mp htarget).1

theorem Closed.connect {b after : Builder ε σ} (h : b.Closed) {tail : PortRef} {head : NodeId}
    {input : Nat} (hstep : b.connect tail head input = .ok after) : after.Closed := by
  obtain ⟨⟨target, htarget, -⟩, -, -, rfl⟩ := connect_eq_ok.mp hstep
  exact h.addEdge (.data tail head input) htarget

/-- Nodes are added behind those that are there. -/
theorem stable_nodes (b : Builder ε σ) :
    Stable fun after ↦ ∃ more, after.nodes = b.nodes ++ more where
  addNode after kind spec group hafter := by
    obtain ⟨more, hmore⟩ := hafter
    refine ⟨more ++ [⟨after.nodes.length, kind, spec, group, kind.arity spec.arity⟩], ?_⟩
    rw [← List.append_assoc, ← hmore]
    rfl
  connect after last tail head input hafter hstep := by
    obtain ⟨-, -, -, rfl⟩ := connect_eq_ok.mp hstep
    exact hafter
  allocateGroup after spec hafter := hafter

/-- Composing enlarges a builder, whether it succeeds or fails. -/
theorem stable_enlarged (b : Builder ε σ) : Stable b.Enlarged where
  addNode last kind spec group h :=
    ⟨b.stable_nodes.addNode last kind spec group h.nodes, h.closed.addNode kind spec group _,
      h.memo, h.context⟩
  connect last after tail head input h hstep := by
    have hclosed := h.closed.connect hstep
    obtain ⟨-, -, -, rfl⟩ := connect_eq_ok.mp hstep
    exact ⟨h.nodes, hclosed, h.memo, h.context⟩
  allocateGroup last spec h := ⟨h.nodes, h.closed, h.memo, h.context⟩

theorem Closed.enlarged_compose {b : Builder ε σ} (h : b.Closed) (expression : Expression ε σ)
    (left : Track) : b.Enlarged (run (expression.compose left) b).2 :=
  expression.keeps_compose b.stable_enlarged left b
    ⟨⟨[], (List.append_nil _).symm⟩, h, rfl, rfl⟩

end Builder

/-! ### One expansion -/

/-- An outcome of composing onto a track is what a verdict says. -/
structure ChecksOut (verdict : Except FlowError Nat) (left : Track)
    (outcome : Except FlowError Track × Builder ε σ) : Prop where
  width : outcome.1.map Track.width = verdict
  declared : ∀ right, outcome.1 = .ok right → right.Declared outcome.2.nodes
  label : ∀ right, outcome.1 = .ok right → right.label = left.label
  fault : ∀ e, outcome.1 = .error e → e.Fault
  unrefused : ∀ e, outcome.1 = .error e → ∀ (c : Builder ε σ) (tail : PortRef) (head : NodeId)
    (input : Nat), c.connect tail head input ≠ .error e

/-- Composing on a track of ports that exist comes to what the check says. -/
theorem Expression.checksOut_compose (expression : Expression ε σ) {left : Track} {b : Builder ε σ}
    (hb : b.Closed) (hleft : left.Declared b.nodes) :
    ChecksOut (expression.check b.context.shape left.label.isSome left.width) left
      (run (expression.compose left) b) := by
  have hagrees := expression.agrees_compose left b
  rcases hrun : run (expression.compose left) b with ⟨e | right, last⟩
  · rw [hrun] at hagrees
    have hcheck := hagrees.complete ⟨hb, hleft⟩ e rfl
    have hfault := expression.fault_check hcheck
    refine ⟨hcheck.symm, nofun, nofun, fun e' he' ↦ ?_, fun e' he' ↦ ?_⟩
    · rw [← Except.error.inj he']
      exact hfault
    · rw [← Except.error.inj he']
      exact hfault.connect_ne
  · rw [hrun] at hagrees
    refine ⟨(hagrees.sound right rfl).symm, fun track htrack ↦ ?_, fun track htrack ↦ ?_, nofun,
      nofun⟩
    · rw [← Except.ok.inj htrack]
      exact declared_compose hrun hleft
    · rw [← Except.ok.inj htrack]
      exact label_compose hrun

namespace Operator

/-- What is remembered is found among the expansions of the operator. -/
theorem Remembered.of_lookup {operator : Operator ε σ} {b : Builder ε σ} (h : operator.Remembered b)
    {left right : Track} (hlookup : b.memo.lookup ⟨operator.id, b.context, left⟩ = some right) :
    operator.Recorded b.nodes ⟨operator.id, b.context, left⟩ right := by
  obtain ⟨front, back, hmemo, -⟩ := List.lookup_eq_some_iff.mp hlookup
  refine h _ right ?_ rfl
  rw [hmemo]
  exact List.mem_append_right _ List.mem_cons_self

/-- Expanding the operator, on whatever track, leaves no edge into nowhere, and remembers what
agrees with the check. -/
theorem Remembered.expand {operator : Operator ε σ} {b : Builder ε σ} (h : operator.Remembered b)
    (hb : b.Closed) (left : Track) :
    (run (operator.expand left) b).2.Closed ∧
      operator.Remembered (run (operator.expand left) b).2 := by
  cases hlookup : b.memo.lookup ⟨operator.id, b.context, left⟩ with
  | some right =>
    rw [run_expand_of_lookup hlookup]
    exact ⟨hb, h⟩
  | none =>
    have henlarged := hb.enlarged_compose operator.expression left
    obtain ⟨more, hmore⟩ := henlarged.nodes
    have hkept := h.of_nodes henlarged.memo hmore
    rw [run_expand_of_new operator.expression hlookup]
    rcases hrun : run (operator.expression.compose left) b with ⟨e | right, last⟩
    · rw [hrun] at henlarged hkept
      exact ⟨henlarged.closed, hkept⟩
    · rw [hrun] at henlarged hkept
      refine ⟨henlarged.closed, fun key track hmem hid ↦ ?_⟩
      rcases List.mem_cons.mp hmem with heq | hmem
      · obtain ⟨rfl, rfl⟩ := Prod.mk.inj heq
        have hsound := (operator.expression.agrees_compose left b).sound track
        rw [hrun] at hsound
        have hports := Expression.cases_ports_compose hrun
        exact ⟨hsound rfl, Expression.label_compose hrun, hports⟩
      · exact hkept key track hmem hid

/-- Expanding on a track of ports that exist comes to what the check says. -/
theorem checksOut_expand {operator : Operator ε σ} {left : Track} {b : Builder ε σ}
    (hb : b.Closed) (hmemo : operator.Remembered b) (hleft : left.Declared b.nodes) :
    ChecksOut (operator.expression.check b.context.shape left.label.isSome left.width) left
      (run (operator.expand left) b) := by
  cases hlookup : b.memo.lookup ⟨operator.id, b.context, left⟩ with
  | some right =>
    have hrecorded := hmemo.of_lookup hlookup
    rw [run_expand_of_lookup hlookup]
    refine ⟨hrecorded.check.symm, fun track htrack ↦ ?_, fun track htrack ↦ ?_, nofun, nofun⟩
    · obtain rfl := Except.ok.inj htrack
      refine ⟨fun port hport ↦ ?_, fun port hport ↦ ?_⟩
      · exact (hrecorded.ports port hport).elim (hleft.ports port) fun hport ↦ hport
      · rw [hrecorded.label] at hport
        exact hleft.label port hport
    · obtain rfl := Except.ok.inj htrack
      exact hrecorded.label
  | none =>
    have hchecks := operator.expression.checksOut_compose hb hleft
    rw [run_expand_of_new operator.expression hlookup]
    rcases hrun : run (operator.expression.compose left) b with ⟨e | right, last⟩
    · rw [hrun] at hchecks
      exact hchecks
    · rw [hrun] at hchecks
      exact ⟨hchecks.width, hchecks.declared, hchecks.label, nofun, nofun⟩

end Operator

/-! ### Builders with a past -/

namespace Builder.Attained

variable {operator : Operator ε σ} {b : Builder ε σ}

theorem closed_remembered (h : b.Attained operator) : b.Closed ∧ operator.Remembered b := by
  induction h with
  | new mode => simp [Closed, Operator.Remembered, Builder.new]
  | addNode h kind spec group arity ih =>
    exact ⟨ih.1.addNode kind spec group arity, ih.2.of_nodes rfl rfl⟩
  | connect h hstep ih =>
    have hclosed := ih.1.connect hstep
    obtain ⟨-, -, -, rfl⟩ := connect_eq_ok.mp hstep
    exact ⟨hclosed, ih.2⟩
  | @addStateEdge b after h tail head hstep ih =>
    obtain ⟨-, ⟨target, htarget⟩, rfl⟩ := addStateEdge_eq_ok.mp hstep
    exact ⟨ih.1.addEdge (.state tail head) htarget, ih.2⟩
  | allocateGroup h spec ih => exact ih
  | enter h context ih => exact ih
  | leave h former ih => exact ih
  | expanded h expansion ih => exact ih
  | expand h left ih => exact ih.2.expand ih.1 left
  | remember h key hother right ih =>
    refine ⟨ih.1, fun key track hmem hid ↦ ?_⟩
    rcases List.mem_cons.mp hmem with heq | hmem
    · obtain ⟨rfl, rfl⟩ := Prod.mk.inj heq
      exact absurd hid hother
    · exact ih.2 key track hmem hid

end Builder.Attained

theorem Builder.stable_attained (operator : Operator ε σ) :
    Builder.Stable (Builder.Attained operator) where
  addNode _ kind spec group h := h.addNode kind spec group (kind.arity spec.arity)
  connect _ _ _ _ _ h hstep := h.connect hstep
  allocateGroup _ spec h := h.allocateGroup spec

/-- Expanding other operators leads to builders of the same kind. -/
theorem Builder.Attained.expand_other {operator : Operator ε σ} {b : Builder ε σ}
    (h : b.Attained operator) {other : Operator ε σ} (hother : other.id ≠ operator.id)
    (left : Track) :
    (run (other.expand left) b).2.Attained operator :=
  other.keeps_expand (Builder.stable_attained operator) left
    (fun context right _ h ↦ h.remember ⟨other.id, context, left⟩ hother right) b h

/-- Expanding adds nodes behind those that are there. -/
theorem Operator.nodes_expand (operator : Operator ε σ) (left : Track) (b : Builder ε σ) :
    ∃ more, (run (operator.expand left) b).2.nodes = b.nodes ++ more :=
  operator.keeps_expand b.stable_nodes left (fun _ _ _ h ↦ h) b ⟨[], (List.append_nil _).symm⟩

/-- Ports that exist still exist after an expansion. -/
theorem Track.Declared.expand {t : Track} {b : Builder ε σ} (h : t.Declared b.nodes)
    (operator : Operator ε σ) (left : Track) :
    t.Declared (run (operator.expand left) b).2.nodes := by
  obtain ⟨more, hmore⟩ := operator.nodes_expand left b
  rw [hmore]
  exact h.append more

/-- Expansion is a sound and complete check. On a builder with any past and a track of ports that
exist, an operator is expanded exactly if the check accepts its expression. The track behind it has
the width that the check gives, ports that exist, and the label of the track before it. A failure is
the first fault of the check, and not a refused binding. The same holds where the expression stands
inside another one and is composed without regard to the memo. -/
theorem Operator.expansion_checksOut {operator : Operator ε σ} {b : Builder ε σ}
    (hb : b.Attained operator) {left : Track} (hleft : left.Declared b.nodes) :
    ChecksOut (operator.expression.check b.context.shape left.label.isSome left.width) left
        (run (operator.expand left) b) ∧
      ChecksOut (operator.expression.check b.context.shape left.label.isSome left.width) left
        (run (operator.expression.compose left) b) := by
  obtain ⟨hclosed, hremembered⟩ := hb.closed_remembered
  exact ⟨checksOut_expand hclosed hremembered hleft,
    operator.expression.checksOut_compose hclosed hleft⟩

/-- A column that was fitted to and is handed on, twice. -/
def scaler : Spec Unit Unit :=
  { name := "scale", behavior := .pure fun inputs ↦ Halt.lift (Builtin.firstInput inputs)
    stateful := true, arity := ⟨1, 2⟩ }

/-- A model of two columns. -/
def model : Spec Unit Unit :=
  { name := "model", behavior := .pure fun inputs ↦ Halt.lift (Builtin.firstInput inputs)
    stateful := true, arity := ⟨2, 1⟩ }

/-- A scaler, and behind it two models side by side. -/
def modelling : Operator Unit Unit :=
  ⟨0, .sequence (.mapper scaler) (.parallel [.consumer model, .mapper model])⟩

/-- A model where only one column is given. -/
def misplaced : Operator Unit Unit :=
  ⟨1, .consumer model⟩

/-- The track behind a source of features and label. -/
def sourced : Track :=
  ⟨[⟨0, 0⟩], some ⟨0, 1⟩⟩

/-- A builder with a source that has a label. -/
def opened : Builder Unit Unit :=
  (Builder.new .train).addNodeWithArity .source scaler none ⟨0, 2⟩

/-- A builder on which one operator was expanded and another one failed, back in a train context. -/
def visited : Builder Unit Unit :=
  (run (misplaced.expand sourced) (run (modelling.expand sourced) opened).2).2.enter ⟨0, .train⟩

theorem attained_visited : visited.Attained modelling :=
  ((((Builder.Attained.new .train).addNode .source scaler none ⟨0, 2⟩).expand sourced).expand_other
    (by decide : misplaced.id ≠ modelling.id) sourced).enter ⟨0, .train⟩

theorem declared_visited : sourced.Declared visited.nodes := by
  have hopened : sourced.Declared opened.nodes := by
    refine ⟨fun port hport ↦ ?_, fun port hport ↦ ?_⟩
    · obtain rfl := List.mem_singleton.mp hport
      exact ⟨_, rfl, by decide⟩
    · obtain rfl := Option.mem_some.mp hport
      exact ⟨_, rfl, by decide⟩
  have hvisited := (hopened.expand modelling sourced).expand misplaced sourced
  rwa [← Builder.nodes_enter _ ⟨0, .train⟩] at hvisited

theorem expansion_checksOut_modelling :
    ChecksOut (.ok 3) sourced (run (modelling.expand sourced) visited) ∧
      ChecksOut (.ok 3) sourced (run (modelling.expression.compose sourced) visited) :=
  Operator.expansion_checksOut attained_visited declared_visited

end Dataflow
