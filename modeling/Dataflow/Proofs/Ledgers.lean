import Dataflow.Proofs.Bookkeeping

/-!
# Builders are in order at any time

Whatever calls are made to a builder that keeps books (`Ledger.Reached`), its nodes are numbered by
position, its edges join ports that exist, no input port is bound twice, and its books hold just the
ports that are bound (`Ledger.InOrder`). A script is a tree of calls, so this is by induction on
scripts: an expansion goes on with the script of the operator one level deeper, and what is done in
a context is a script as well.

A script ends in the context and at the depth where it started (`Script.keeps_at`). This holds of
all ledgers, also of those whose books are wrong.
-/

set_option autoImplicit false
set_option relaxedAutoImplicit false

namespace Dataflow

variable {ε σ α β : Type}

open Book

namespace Book

/-! ### What computations keep -/

/-- A computation keeps a property of ledgers, whether it succeeds or fails. -/
def Keeps (P : Ledger ε σ → Prop) (body : Book ε σ α) : Prop :=
  ∀ l : Ledger ε σ, P l → P (run body l).2

variable {P : Ledger ε σ → Prop}

theorem keeps_pure (a : α) : Keeps P (pure a : Book ε σ α) := fun _ h ↦ h

theorem keeps_get : Keeps P (get : Book ε σ (Ledger ε σ)) := fun _ h ↦ h

theorem keeps_result (r : Except FlowError α) : Keeps P (result r : Book ε σ α) := fun _ h ↦ h

theorem keeps_modify {f : Ledger ε σ → Ledger ε σ} (h : ∀ l, P l → P (f l)) :
    Keeps P (modify f : Book ε σ PUnit) := h

theorem keeps_bind {body : Book ε σ α} {next : α → Book ε σ β} (h : Keeps P body)
    (hnext : ∀ a, Keeps P (next a)) : Keeps P (body >>= next) := by
  intro l hl
  have hbody := h l hl
  rw [run_bind]
  rcases hrun : run body l with ⟨e | a, after⟩
  · rw [hrun] at hbody
    exact hbody
  · rw [hrun] at hbody
    exact hnext a after hbody

theorem keeps_outcome {body : Book ε σ α} (h : Keeps P body) : Keeps P body.outcome := h

/-- Expanding keeps what composing one level deeper and remembering keep. -/
theorem keeps_expand {operator : Nat} {compose : Track → Book ε σ Track} {left : Track}
    (h : Keeps P (nested (compose left)))
    (hremember : ∀ (l : Ledger ε σ) (memo : List (ExpansionKey × Track)), P l →
      P { l with builder := { l.builder with memo } }) : Keeps P (expand operator compose left) := by
  intro l hl
  have hnested := h l hl
  rw [run_expand]
  split_ifs
  · exact hnested
  · cases l.builder.memo.lookup ⟨operator, l.builder.context, left⟩ with
    | some track => exact hl
    | none =>
      rcases hrun : run (nested (compose left)) l with ⟨e | track, after⟩
      · rw [hrun] at hnested
        exact hnested
      · rw [hrun] at hnested
        exact hremember after _ hnested

end Book

/-! ### Where a ledger stands -/

/-- A ledger stands in a context, at a depth. -/
def Ledger.At (context : Context) (depth : Nat) (l : Ledger ε σ) : Prop :=
  l.builder.context = context ∧ l.depth = depth

/-- What is said of where a ledger stands: of its context, its depth and its ordinals. -/
def Ledger.Stands (Q : Context → Nat → (Context → Nat) → Prop) (l : Ledger ε σ) : Prop :=
  Q l.builder.context l.depth l.builder.ordinals

namespace Book

variable {Q : Context → Nat → (Context → Nat) → Prop} {context : Context} {depth : Nat}

theorem keeps_stands_pushEdge (edge : Edge) :
    Keeps (Ledger.Stands (ε := ε) (σ := σ) Q) (pushEdge edge) := fun _ h ↦ h

theorem keeps_stands_enroll (id : NodeId) (kind : NodeKind) (group : Option GroupId) :
    Keeps (Ledger.Stands (ε := ε) (σ := σ) Q) (enroll id kind group) := by
  cases group with
  | none => cases kind <;> exact keeps_pure _
  | some group =>
    cases kind with
    | trainer => exact keeps_modify fun _ h ↦ h
    | applier =>
      refine keeps_bind keeps_get fun l ↦ ?_
      cases l.trainers group with
      | none => exact keeps_pure _
      | some trainer => exact keeps_stands_pushEdge _
    | source => exact keeps_pure _
    | sink => exact keeps_pure _

theorem keeps_stands_addNodeWithArity (kind : NodeKind) (spec : Spec ε σ) (group : Option GroupId)
    (arity : Arity) : Keeps (Ledger.Stands Q) (addNodeWithArity kind spec group arity) :=
  keeps_bind keeps_get fun _ ↦ keeps_bind (keeps_modify fun _ h ↦ h) fun _ ↦
    keeps_bind (keeps_stands_enroll _ kind group) fun _ ↦ keeps_pure _

theorem keeps_stands_connect (tail : PortRef) (head : NodeId) (input : Nat) :
    Keeps (Ledger.Stands (ε := ε) (σ := σ) Q) (connect tail head input) :=
  keeps_bind keeps_get fun _ ↦ keeps_bind (keeps_result _) fun _ ↦
    keeps_bind (keeps_modify fun _ h ↦ h) fun _ ↦ keeps_stands_pushEdge _

theorem keeps_stands_connectAll (ports : List PortRef) (head : NodeId) :
    Keeps (Ledger.Stands (ε := ε) (σ := σ) Q) (connectAll ports head) := by
  unfold connectAll
  generalize 0 = input
  induction ports generalizing input with
  | nil => exact keeps_pure ()
  | cons port rest ih =>
    exact keeps_bind (keeps_stands_connect port head input) fun _ ↦ ih (input + 1)

theorem keeps_stands_addStateEdge (tail head : NodeId) :
    Keeps (Ledger.Stands (ε := ε) (σ := σ) Q) (addStateEdge tail head) :=
  keeps_bind keeps_get fun _ ↦ keeps_bind (keeps_result _) fun _ ↦
    keeps_bind keeps_get fun _ ↦ keeps_bind (keeps_result _) fun _ ↦ keeps_stands_pushEdge _

theorem keeps_at_nested {body : Book ε σ α} (h : Keeps (Ledger.At context (depth + 1)) body) :
    Keeps (Ledger.At context depth) (nested body) := by
  intro l hl
  have hbody := h { l with depth := l.depth + 1 } ⟨hl.1, congrArg (· + 1) hl.2⟩
  rw [run_nested]
  exact ⟨hbody.1, congrArg (· - 1) hbody.2⟩

/-- The former context is entered again, whatever was done in between. -/
theorem keeps_at_inContext {inner : Context} {body : Book ε σ α}
    (h : Keeps (Ledger.At inner depth) body) :
    Keeps (Ledger.At context depth) (inContext inner body) := by
  intro l hl
  have hbody := h { l with builder := l.builder.enter inner } ⟨rfl, hl.2⟩
  rw [run_inContext]
  exact ⟨hl.1, hbody.2⟩

end Book

/-- An operation leaves a ledger where it stands. -/
theorem Operation.keeps_at (operation : Operation ε σ α) (context : Context) (depth : Nat) :
    Keeps (Ledger.At context depth) operation.book := by
  -- where a ledger stands is a relation that ignores the ordinals
  let Q : Context → Nat → (Context → Nat) → Prop := fun c d _ ↦ c = context ∧ d = depth
  change Keeps (Ledger.Stands Q) operation.book
  cases operation with
  | allocateGroup spec => exact fun _ h ↦ h
  | addNode kind spec group => exact keeps_stands_addNodeWithArity kind spec group _
  | addNodeWithArity kind spec group arity =>
    exact keeps_stands_addNodeWithArity kind spec group arity
  | connect tail head input => exact keeps_stands_connect tail head input
  | connectAll ports head => exact keeps_stands_connectAll ports head
  | addStateEdge tail head => exact keeps_stands_addStateEdge tail head
  | publish expansion => exact keeps_modify fun _ h ↦ h

namespace Script

/-- A script leaves a ledger where it stands. -/
theorem keeps_at {α : Type} (script : Script ε σ α) (context : Context) (depth : Nat) :
    Keeps (Ledger.At context depth) script.book := by
  induction script generalizing context depth with
  | done result => exact keeps_result result
  | look next ih => exact keeps_bind keeps_get fun l ↦ ih l.builder context depth
  | call operation next ih =>
    exact keeps_bind (keeps_outcome (operation.keeps_at context depth)) fun r ↦ ih r context depth
  | expand operator compose left next ihcompose ihnext =>
    exact keeps_bind (keeps_outcome (keeps_expand
      (keeps_at_nested (ihcompose left context (depth + 1))) fun _ _ h ↦ h)) fun r ↦
        ihnext r context depth
  | inContext inner body next ihbody ihnext =>
    exact keeps_bind (keeps_outcome (keeps_at_inContext (ihbody inner depth))) fun r ↦
      ihnext r context depth

end Script

/-! ### Books stay right -/

namespace Book

theorem keeps_consistent_nested {body : Book ε σ α} (h : Keeps Ledger.Consistent body) :
    Keeps Ledger.Consistent (nested body) := by
  intro l hl
  have hbody := h { l with depth := l.depth + 1 } ⟨hl.assembled, hl.bound_eq, hl.trainers_eq⟩
  exact ⟨hbody.assembled, hbody.bound_eq, hbody.trainers_eq⟩

theorem keeps_consistent_inContext {context : Context} {body : Book ε σ α}
    (h : Keeps Ledger.Consistent body) : Keeps Ledger.Consistent (inContext context body) := by
  intro l hl
  have hbody := h { l with builder := l.builder.enter context }
    ⟨hl.assembled.enter context, hl.bound_eq, hl.trainers_eq⟩
  exact ⟨hbody.assembled.leave l.builder.context, hbody.bound_eq, hbody.trainers_eq⟩

theorem keeps_consistent_expand {operator : Nat} {compose : Track → Book ε σ Track} {left : Track}
    (h : Keeps Ledger.Consistent (compose left)) :
    Keeps Ledger.Consistent (expand operator compose left) :=
  keeps_expand (keeps_consistent_nested h) fun _ memo hl ↦
    ⟨hl.assembled.remember memo, hl.bound_eq, hl.trainers_eq⟩

end Book

theorem Operation.keeps_consistent (operation : Operation ε σ α) :
    Keeps Ledger.Consistent operation.book := by
  have hfollows : Follows (fun _ ↦ True) operation.book operation.build := operation.follows
  exact fun l hl ↦ (hfollows l hl trivial).2.1

theorem Script.keeps_consistent {α : Type} (script : Script ε σ α) :
    Keeps Ledger.Consistent script.book := by
  induction script with
  | done result => exact keeps_result result
  | look next ih => exact keeps_bind keeps_get fun l ↦ ih l.builder
  | call operation next ih => exact keeps_bind (keeps_outcome operation.keeps_consistent) ih
  | expand operator compose left next ihcompose ihnext =>
    exact keeps_bind (keeps_outcome (keeps_consistent_expand (ihcompose left))) ihnext
  | inContext context body next ihbody ihnext =>
    exact keeps_bind (keeps_outcome (keeps_consistent_inContext ihbody)) ihnext

/-! ### Ledgers that can be reached -/

/-- The ledgers that come about by calls, also in the middle of an expansion or in another
context. -/
inductive Ledger.Reached : Ledger ε σ → Prop
  | new (mode : Mode) : Reached (Ledger.new mode)
  | call {l : Ledger ε σ} (h : Reached l) {α : Type} (operation : Operation ε σ α) :
    Reached (run operation.book l).2
  | expand {l : Ledger ε σ} (h : Reached l) (operator : Nat) (compose : Track → Script ε σ Track)
    (left : Track) : Reached (run (Book.expand operator (fun left ↦ (compose left).book) left) l).2
  | inContext {l : Ledger ε σ} (h : Reached l) {α : Type} (context : Context)
    (body : Script ε σ α) : Reached (run (Book.inContext context body.book) l).2
  | composing {l : Ledger ε σ} (h : Reached l) : Reached { l with depth := l.depth + 1 }
  | within {l : Ledger ε σ} (h : Reached l) (context : Context) :
    Reached { l with builder := l.builder.enter context }

theorem Ledger.Reached.consistent {l : Ledger ε σ} (h : l.Reached) : l.Consistent := by
  induction h with
  | new mode => exact ⟨.new mode, fun _ _ ↦ rfl, fun _ ↦ rfl⟩
  | call h operation ih => exact operation.keeps_consistent _ ih
  | expand h operator compose left ih =>
    exact keeps_consistent_expand (compose left).keeps_consistent _ ih
  | inContext h context body ih =>
    exact keeps_consistent_inContext body.keeps_consistent _ ih
  | composing h ih => exact ⟨ih.assembled, ih.bound_eq, ih.trainers_eq⟩
  | within h context ih => exact ⟨ih.assembled.enter context, ih.bound_eq, ih.trainers_eq⟩

/-- What can be relied on at any time. -/
structure Ledger.InOrder (l : Ledger ε σ) : Prop where
  id_eq : ∀ (k : Nat) (node : Node ε σ), l.builder.nodes[k]? = some node → node.id = k
  ends : ∀ edge ∈ l.builder.edges,
    edge.tail < l.builder.nodes.length ∧ edge.head < l.builder.nodes.length
  output : ∀ tail head input, Edge.data tail head input ∈ l.builder.edges →
    ∃ source, l.builder.nodes[tail.node]? = some source ∧ tail.port < source.arity.outputs
  input : ∀ tail head input, Edge.data tail head input ∈ l.builder.edges →
    ∃ target, l.builder.nodes[head]? = some target ∧ input < target.arity.inputs
  once : ∀ head input, bindings l.builder.edges head input ≤ 1
  bound_iff : ∀ tail head input,
    l.bound (head, input) = some tail ↔ .data tail head input ∈ l.builder.edges

theorem Ledger.Consistent.inOrder {l : Ledger ε σ} (h : l.Consistent) : l.InOrder where
  id_eq := h.assembled.linked.id_eq
  ends edge hedge :=
    ⟨h.assembled.linked.tail_lt edge hedge, h.assembled.linked.head_lt edge hedge⟩
  output := h.assembled.linked.port
  input := h.assembled.slotted.declared
  once := h.assembled.slotted.bindings_le
  bound_iff tail head input := by
    rw [h.bound_eq, boundPort?_eq_some_iff (h.assembled.slotted.bindings_le head input)]

namespace Book

/-- A port that is not bound leaves everything as it was. -/
theorem connect_unchanged {tail : PortRef} {head : NodeId} {input : Nat} {l after : Ledger ε σ}
    {e : FlowError} (h : run (connect tail head input) l = (.error e, after)) : after = l := by
  rw [run_connect] at h
  cases hcheck : l.connectable tail head input with
  | ok u =>
    rw [hcheck] at h
    cases (Prod.mk.inj h).1
  | error e' =>
    rw [hcheck] at h
    exact (Prod.mk.inj h).2.symm

theorem addStateEdge_unchanged {tail head : NodeId} {l after : Ledger ε σ} {e : FlowError}
    (h : run (addStateEdge tail head) l = (.error e, after)) : after = l := by
  rw [run_addStateEdge] at h
  cases hstep : l.builder.addStateEdge tail head with
  | ok b =>
    rw [hstep] at h
    cases (Prod.mk.inj h).1
  | error e' =>
    rw [hstep] at h
    exact (Prod.mk.inj h).2.symm

end Book

/-- Whatever calls are made, also from within an expansion or a context and also if some fail, the
ledger is in order. An expansion or a change of context ends where it started, whether it succeeds
or fails, and an edge that is refused changes nothing. So building looks nothing up that is not
there, and does not report that a port is not declared or is bound more than once. -/
theorem Ledger.Reached.keeps_order {l : Ledger ε σ} (h : l.Reached) :
    l.InOrder ∧
    (∀ (operator : Nat) (compose : Track → Script ε σ Track) (left : Track),
      let after := (run (Book.expand operator (fun left ↦ (compose left).book) left) l).2
      after.builder.context = l.builder.context ∧ after.depth = l.depth) ∧
    (∀ (α : Type) (context : Context) (body : Script ε σ α),
      let after := (run (Book.inContext context body.book) l).2
      after.builder.context = l.builder.context ∧ after.depth = l.depth) ∧
    (∀ tail head input e after,
      run (Book.connect tail head input) l = (.error e, after) → after = l) ∧
    (∀ tail head e after, run (Book.addStateEdge tail head) l = (.error e, after) → after = l) ∧
    (Tabled.build l.builder).map Prod.fst = Halt.lift l.builder.build ∧
    ∀ e, l.builder.build = .error e → ∀ (label : String) (input : Nat),
      e ≠ .composition label s!"edge into undeclared input port {input}" ∧
      ∀ count : Nat, 1 < count → e ≠ .composition label
        s!"input port {input} has {count} predecessors, expected exactly 1" := by
  have hassembled := h.consistent.assembled
  refine ⟨h.consistent.inOrder, fun operator compose left ↦ ?_, fun α context body ↦ ?_,
    fun _ _ _ _ _ ↦ connect_unchanged, fun _ _ _ _ ↦ addStateEdge_unchanged, ?_,
    fun e he label input ↦ ?_⟩
  · exact keeps_expand (keeps_at_nested ((compose left).keeps_at l.builder.context (l.depth + 1)))
      (fun _ _ h ↦ h) l ⟨rfl, rfl⟩
  · exact keeps_at_inContext (body.keeps_at context l.depth) l ⟨rfl, rfl⟩
  · rw [Tabled.build_eq_lift hassembled]
    cases l.builder.build <;> rfl
  · rcases hassembled.build_cases with ⟨-, g, hg⟩ | ⟨-, e', hfault, he'⟩
    · cases hg.symm.trans he
    · obtain rfl := Except.error.inj (he'.symm.trans he)
      exact ⟨hfault.ne_undeclared label input, fun _ ↦ hfault.ne_bound_again label input⟩

/-- A ledger with two nodes and an edge between them, on which neither an edge that is refused nor
an operator that fails half way leaves anything behind but a node. -/
theorem Ledger.Reached.keeps_order_refused :
    let actor : Spec Unit Unit := Builtin.collector
    let first := (run (Operation.addNode .source actor none).book (Ledger.new .apply)).2
    let ends := (run (Operation.addNode .sink actor none).book first).2
    let joined := (run (Operation.connect ⟨0, 0⟩ 1 0).book ends).2
    let failing : Track → Script Unit Unit Track := fun _ ↦
      .call (.addNode .applier actor none) fun _ ↦ .done (.error .cancelled)
    let after := (run (Book.expand 0 (fun left ↦ (failing left).book) ⟨[], none⟩) joined).2
    joined.Reached ∧ joined.InOrder ∧ joined.builder.edges = [.data ⟨0, 0⟩ 1 0] ∧
      (∃ e, run (Book.connect ⟨0, 0⟩ 1 0) joined = (.error e, joined)) ∧
      after.builder.nodes.length = 3 ∧ after.builder.context = joined.builder.context ∧
      after.depth = joined.depth := by
  intro actor first ends joined failing after
  have hreached : joined.Reached :=
    (((Ledger.Reached.new .apply).call (.addNode .source actor none)).call
      (.addNode .sink actor none)).call (.connect ⟨0, 0⟩ 1 0)
  obtain ⟨horder, hexpand, -, hrefused, -⟩ := hreached.keeps_order
  refine ⟨hreached, horder, rfl, ?_, rfl, hexpand 0 failing ⟨[], none⟩⟩
  have hfails : (run (Book.connect ⟨0, 0⟩ 1 0) joined).1.isOk = false := rfl
  rcases hrun : run (Book.connect ⟨0, 0⟩ 1 0) joined with ⟨e | u, last⟩
  · exact ⟨e, by rw [hrefused _ _ _ _ _ hrun]⟩
  · rw [hrun] at hfails
    cases hfails

end Dataflow
