import Dataflow.Operator
import Dataflow.Proofs.WellFormed

/-!
# Books that are right

The books of a ledger are right if they hold what can be read off its edges and nodes
(`Ledger.Consistent`). Then every operation does to the builder what it does where no books are kept
and what it needs is looked up each time, with the same result, and the books stay right
(`Operation.follows`). An edge that is refused changes nothing at all (`Book.run_connect`,
`Book.run_addStateEdge`), on any ledger.
-/

set_option autoImplicit false
set_option relaxedAutoImplicit false

namespace Dataflow

variable {ε σ α β : Type}

/-! ### Running a computation step by step -/

namespace Book

@[simp] theorem run_pure (a : α) (l : Ledger ε σ) : run (pure a) l = (.ok a, l) := rfl

@[simp] theorem run_get (l : Ledger ε σ) : run (get : Book ε σ (Ledger ε σ)) l = (.ok l, l) := rfl

@[simp] theorem run_modify (f : Ledger ε σ → Ledger ε σ) (l : Ledger ε σ) :
    run (modify f : Book ε σ PUnit) l = (.ok ⟨⟩, f l) := rfl

@[simp] theorem run_pushEdge (edge : Edge) (l : Ledger ε σ) : run (pushEdge edge) l =
    (.ok ⟨⟩, { l with builder := { l.builder with edges := l.builder.edges ++ [edge] } }) := rfl

theorem run_bind (body : Book ε σ α) (next : α → Book ε σ β) (l : Ledger ε σ) :
    run (body >>= next) l =
      match run body l with
      | (.ok a, after) => run (next a) after
      | (.error e, after) => (.error e, after) := by
  change ExceptT.bindCont next (run body l).1 (run body l).2 = _
  rcases run body l with ⟨_ | _, _⟩ <;> rfl

@[simp] theorem run_result (r : Except FlowError α) (l : Ledger ε σ) :
    run (result r) l = (r, l) := rfl

/-- What comes of a computation is handed on, be it a failure. -/
theorem run_outcome_bind (body : Book ε σ α) (next : Except FlowError α → Book ε σ β)
    (l : Ledger ε σ) :
    run (body.outcome >>= next) l = run (next (run body l).1) (run body l).2 := rfl

end Book

/-! ### Calls that may be refused -/

/-- A ledger with a data edge more, also in the books. -/
def Ledger.entered (l : Ledger ε σ) (tail : PortRef) (head : NodeId) (input : Nat) : Ledger ε σ :=
  { l with
    builder := { l.builder with edges := l.builder.edges ++ [.data tail head input] }
    bound := fun slot ↦ if slot = (head, input) then some tail else l.bound slot }

namespace Book

theorem run_connect (tail : PortRef) (head : NodeId) (input : Nat) (l : Ledger ε σ) :
    run (connect tail head input) l =
      match l.connectable tail head input with
      | .ok _ => (.ok (), l.entered tail head input)
      | .error e => (.error e, l) := by
  rw [connect, run_bind, run_get]
  simp only [run_bind, run_result]
  cases l.connectable tail head input <;> rfl

theorem run_addStateEdge (tail head : NodeId) (l : Ledger ε σ) :
    run (addStateEdge tail head) l =
      match l.builder.addStateEdge tail head with
      | .ok builder => (.ok (), { l with builder })
      | .error e => (.error e, l) := by
  rw [addStateEdge, run_bind, run_get, Builder.addStateEdge]
  simp only [run_bind, run_result]
  cases l.builder.node tail "state edge source" with
  | error e => rfl
  | ok source =>
    simp only [run_get]
    cases l.builder.node head "state edge target" <;> rfl

end Book

/-! ### Books that are right -/

/-- What is entered in the books of a ledger is what can be read off its edges and nodes. -/
structure Ledger.Consistent (l : Ledger ε σ) : Prop where
  assembled : l.builder.Assembled
  bound_eq : ∀ head input, l.bound (head, input) = boundPort? l.builder.edges head input
  trainers_eq : ∀ group, l.trainers group = l.builder.trainer? group

namespace Ledger.Consistent

variable {l : Ledger ε σ}

/-- A port that is looked up in the books is bound or refused as if it were looked up among the
edges. -/
theorem connect_eq (h : l.Consistent) (tail : PortRef) (head : NodeId) (input : Nat) :
    l.builder.connect tail head input =
      (l.connectable tail head input).map fun _ ↦ (l.entered tail head input).builder := by
  rw [Builder.connect, connectable, h.bound_eq]
  cases l.builder.node head "target" with
  | error e => rfl
  | ok target =>
    simp only [bind, Except.bind]
    by_cases hinput : target.arity.inputs ≤ input
    · simp only [hinput, if_true]
      rfl
    · simp only [hinput, if_false]
      cases l.builder.node tail.node "source" with
      | error e => rfl
      | ok source =>
        dsimp only
        by_cases hport : source.arity.outputs ≤ tail.port
        · simp only [hport, if_true]
          rfl
        · simp only [hport, if_false]
          cases boundPort? l.builder.edges head input <;> rfl

end Ledger.Consistent

/-! ### Single operations -/

/-- The latest trainer of a group is the node added, if that is a trainer of the group. -/
theorem Builder.trainer?_addNodeWithArity (b : Builder ε σ) (kind : NodeKind) (spec : Spec ε σ)
    (group : Option GroupId) (arity : Arity) (g : GroupId) :
    (b.addNodeWithArity kind spec group arity).trainer? g =
      if kind = .trainer ∧ group = some g then some b.nodes.length else b.trainer? g := by
  unfold trainer? addNodeWithArity
  rw [List.filter_append, List.filter_singleton]
  by_cases hnew : kind = .trainer ∧ group = some g
  · simp [hnew]
  · have hnot : (kind == .trainer && group == some g) = false := by simpa using hnew
    simp [hnot, hnew]

theorem boundPort?_append_data (edges : List Edge) (tail : PortRef) (head : NodeId) (input : Nat)
    (head' : NodeId) (input' : Nat) :
    boundPort? (edges ++ [.data tail head input]) head' input' =
      (boundPort? edges head' input').or
        (if (head', input') = (head, input) then some tail else none) := by
  rw [boundPort?, List.findSome?_append]
  refine congrArg _ ?_
  by_cases hsame : head = head' ∧ input = input'
  · obtain ⟨rfl, rfl⟩ := hsame
    simp [Edge.feeds?]
  · have hother : (head', input') ≠ (head, input) := fun heq ↦
      hsame ⟨(Prod.mk.inj heq).1.symm, (Prod.mk.inj heq).2.symm⟩
    rw [if_neg hother]
    simp [Edge.feeds?, hsame]

theorem boundPort?_append_state (edges : List Edge) {more : List Edge}
    (hstate : ∀ edge ∈ more, ∃ tail head, edge = .state tail head) (head : NodeId) (input : Nat) :
    boundPort? (edges ++ more) head input = boundPort? edges head input := by
  have hnone := bindings_eq_zero_iff.mp (bindings_eq_zero_of_state hstate head input)
  rw [boundPort?] at hnone ⊢
  rw [List.findSome?_append, hnone, Option.or_none]
  rfl

namespace Book

/-- A trainer is entered for its group, and an applier gets the state edge that it would get if its
group's trainer were looked up among the nodes. -/
theorem run_enroll {l : Ledger ε σ} {b : Builder ε σ} (id : NodeId) (kind : NodeKind)
    (group : Option GroupId) (hid : id = b.nodes.length)
    (htrainers : ∀ g, l.trainers g = b.trainer? g) :
    run (enroll id kind group) l =
      (.ok (), { l with
        builder := { l.builder with edges := l.builder.edges ++ b.stateEdges kind group }
        trainers := fun g ↦ if kind = .trainer ∧ group = some g then some id else l.trainers g }) := by
  subst hid
  rcases group with _ | g
  · cases kind <;> simp [enroll, Builder.stateEdges]
  · cases kind with
    | trainer => simp [enroll, Builder.stateEdges, eq_comm]
    | applier =>
      have hfound := htrainers g
      cases htrainer : b.trainer? g with
      | none =>
        rw [htrainer] at hfound
        simp [enroll, run_bind, hfound, Builder.stateEdges, htrainer]
      | some trainer =>
        rw [htrainer] at hfound
        simp [enroll, run_bind, hfound, Builder.stateEdges, htrainer]
    | source => simp [enroll, Builder.stateEdges]
    | sink => simp [enroll, Builder.stateEdges]

/-- A node is added as it is without books. -/
theorem run_addNodeWithArity {l : Ledger ε σ} (h : l.Consistent) (kind : NodeKind)
    (spec : Spec ε σ) (group : Option GroupId) (arity : Arity) :
    run (addNodeWithArity kind spec group arity) l =
      (.ok l.builder.nodes.length, { l with
        builder := l.builder.addNodeWithArity kind spec group arity
        trainers := fun g ↦ if kind = .trainer ∧ group = some g then some l.builder.nodes.length
          else l.trainers g }) := by
  let placed : Ledger ε σ := { l with builder := { l.builder with
    nodes := l.builder.nodes ++ [⟨l.builder.nodes.length, kind, spec, group, arity⟩] } }
  have henroll := run_enroll (l := placed) (b := l.builder) _ kind group rfl h.trainers_eq
  rw [addNodeWithArity, run_bind, run_get]
  simp only [run_bind, run_modify]
  rw [henroll]
  rfl

end Book

theorem Build.run_attempt (step : Builder ε σ → Except FlowError (Builder ε σ))
    (b : Builder ε σ) : Build.run (Build.attempt step) b =
      match step b with
      | .ok next => (.ok (), next)
      | .error e => (.error e, b) := by
  unfold Build.attempt
  rw [Build.run_bind, Build.run_get]
  dsimp only
  cases step b <;> rfl

/-- What an operation does to a builder that keeps no books. -/
def Operation.build : Operation ε σ α → Build ε σ α
  | allocateGroup spec => Build.allocateGroup spec
  | addNode kind spec group => Build.addNode kind spec group
  | addNodeWithArity kind spec group arity => Build.addNodeWithArity kind spec group arity
  | connect tail head input => Build.connect tail head input
  | connectAll ports head => Build.connectAll ports head
  | addStateEdge tail head => Build.addStateEdge tail head
  | publish expansion => modify fun b ↦ { b with expansion := some expansion }

namespace Book

/-- On ledgers whose books are right, at some depths, a computation does to the builder what another
does that keeps no books, and its books stay right. -/
def Follows (deep : Nat → Prop) (book : Book ε σ α) (build : Build ε σ α) : Prop :=
  ∀ l : Ledger ε σ, l.Consistent → deep l.depth →
    Build.run build l.builder = ((run book l).1, (run book l).2.builder) ∧
      (run book l).2.Consistent ∧ (run book l).2.depth = l.depth

variable {deep : Nat → Prop}

theorem follows_result (r : Except FlowError α) :
    Follows deep (result r : Book ε σ α) (Build.check r) := fun l h _ ↦ by
  cases r <;> exact ⟨rfl, h, rfl⟩

theorem follows_pure (a : α) : Follows deep (pure a : Book ε σ α) (pure a) :=
  fun _ h _ ↦ ⟨rfl, h, rfl⟩

theorem Follows.bind {book : Book ε σ α} {build : Build ε σ α} {next : α → Book ε σ β}
    {next' : α → Build ε σ β} (h : Follows deep book build)
    (hnext : ∀ a, Follows deep (next a) (next' a)) :
    Follows deep (book >>= next) (build >>= next') := by
  intro l hl hdepth
  obtain ⟨hrun, hafter, hlevel⟩ := h l hl hdepth
  rw [Build.run_bind, run_bind, hrun]
  rcases hbook : run book l with ⟨e | a, after⟩
  · rw [hbook] at hafter hlevel
    exact ⟨rfl, hafter, hlevel⟩
  · rw [hbook] at hafter hlevel
    obtain ⟨hrun', hlast, hlevel'⟩ := hnext a after hafter (hlevel.symm ▸ hdepth)
    exact ⟨hrun', hlast, hlevel'.trans hlevel⟩

theorem follows_allocateGroup (spec : Spec ε σ) :
    Follows deep (allocateGroup spec) (Build.allocateGroup spec) := fun _ h _ ↦
  ⟨rfl, ⟨h.assembled.allocateGroup spec, h.bound_eq, h.trainers_eq⟩, rfl⟩

theorem follows_addNodeWithArity (kind : NodeKind) (spec : Spec ε σ) (group : Option GroupId)
    (arity : Arity) : Follows deep (addNodeWithArity kind spec group arity)
      (Build.addNodeWithArity kind spec group arity) := by
  intro l h _
  rw [run_addNodeWithArity h]
  refine ⟨rfl, ⟨h.assembled.addNode kind spec group arity, fun head input ↦ ?_, fun g ↦ ?_⟩, rfl⟩
  · have hstate := l.builder.exists_state_of_mem_stateEdges kind group
    exact (h.bound_eq head input).trans (boundPort?_append_state _ hstate head input).symm
  · rw [Builder.trainer?_addNodeWithArity, ← h.trainers_eq g]

theorem follows_connect (tail : PortRef) (head : NodeId) (input : Nat) :
    Follows deep (connect tail head input : Book ε σ Unit) (Build.connect tail head input) := by
  intro l h _
  have hconnect := h.connect_eq tail head input
  rw [run_connect, Build.connect, Build.run_attempt, hconnect]
  cases hcheck : l.connectable tail head input with
  | error e => exact ⟨rfl, h, rfl⟩
  | ok u =>
    rw [hcheck] at hconnect
    obtain ⟨-, -, hfree, -⟩ := Builder.connect_eq_ok.mp hconnect
    refine ⟨rfl, ⟨h.assembled.connect hconnect, fun head' input' ↦ ?_, h.trainers_eq⟩, rfl⟩
    change (if (head', input') = (head, input) then some tail else l.bound (head', input')) =
      boundPort? (l.builder.edges ++ [.data tail head input]) head' input'
    rw [boundPort?_append_data, h.bound_eq]
    split_ifs with hsame
    · obtain ⟨rfl, rfl⟩ := Prod.mk.inj hsame
      rw [hfree]
      rfl
    · rw [Option.or_none]

theorem follows_connectAll (ports : List PortRef) (head : NodeId) :
    Follows deep (connectAll ports head : Book ε σ Unit) (Build.connectAll ports head) := by
  unfold connectAll Build.connectAll
  generalize 0 = input
  induction ports generalizing input with
  | nil => exact follows_pure ()
  | cons port rest ih => exact (follows_connect port head input).bind fun _ ↦ ih (input + 1)

theorem follows_addStateEdge (tail head : NodeId) :
    Follows deep (addStateEdge tail head : Book ε σ Unit) (Build.addStateEdge tail head) := by
  intro l h _
  rw [run_addStateEdge, Build.addStateEdge, Build.run_attempt]
  cases hstep : l.builder.addStateEdge tail head with
  | error e => exact ⟨rfl, h, rfl⟩
  | ok after =>
    obtain ⟨-, -, hafter⟩ := Builder.addStateEdge_eq_ok.mp hstep
    refine ⟨rfl, ⟨h.assembled.addStateEdge hstep, fun head' input' ↦ ?_, fun g ↦ ?_⟩, rfl⟩
    · have hstate : ∀ edge ∈ [Edge.state tail head], ∃ tail head, edge = .state tail head :=
        fun edge hedge ↦ ⟨tail, head, List.mem_singleton.mp hedge⟩
      rw [hafter, boundPort?_append_state _ hstate, ← h.bound_eq]
    · rw [hafter, h.trainers_eq]
      rfl

end Book

open Book

/-- An operation does to a builder with books what it does to one without. -/
theorem Operation.follows {deep : Nat → Prop} (operation : Operation ε σ α) :
    Book.Follows deep operation.book operation.build := by
  cases operation with
  | allocateGroup spec => exact follows_allocateGroup spec
  | addNode kind spec group => exact follows_addNodeWithArity kind spec group _
  | addNodeWithArity kind spec group arity => exact follows_addNodeWithArity kind spec group arity
  | connect tail head input => exact follows_connect tail head input
  | connectAll ports head => exact follows_connectAll ports head
  | addStateEdge tail head => exact follows_addStateEdge tail head
  | publish expansion =>
    exact fun _ h _ ↦ ⟨rfl, ⟨h.assembled.expanded (some expansion), h.bound_eq, h.trainers_eq⟩, rfl⟩

/-! ### Expansions and contexts -/

namespace Book

/-- A nested computation starts one level deeper, and ends one level higher. -/
theorem run_nested (body : Book ε σ α) (l : Ledger ε σ) :
    run (nested body) l =
      ((run body { l with depth := l.depth + 1 }).1,
        { (run body { l with depth := l.depth + 1 }).2 with
          depth := (run body { l with depth := l.depth + 1 }).2.depth - 1 }) := rfl

theorem run_inContext (context : Context) (body : Book ε σ α) (l : Ledger ε σ) :
    run (inContext context body) l =
      ((run body { l with builder := l.builder.enter context }).1,
        { (run body { l with builder := l.builder.enter context }).2 with
          builder := (run body { l with builder := l.builder.enter context }).2.builder.leave
            l.builder.context }) := rfl

theorem run_expand (operator : Nat) (compose : Track → Book ε σ Track) (left : Track)
    (l : Ledger ε σ) :
    run (expand operator compose left) l =
      if 0 < l.depth then run (nested (compose left)) l
      else match l.builder.memo.lookup ⟨operator, l.builder.context, left⟩ with
        | some track => (.ok track, l)
        | none => match run (nested (compose left)) l with
          | (.ok track, after) => (.ok track, { after with builder := { after.builder with
              memo := (⟨operator, l.builder.context, left⟩, track) :: after.builder.memo } })
          | (.error e, after) => (.error e, after) := by
  rw [expand, run_bind, run_get]
  dsimp only
  split_ifs
  · rfl
  · simp only [run_bind, run_get]
    cases l.builder.memo.lookup ⟨operator, l.builder.context, left⟩ with
    | some track => rfl
    | none =>
      simp only [run_bind]
      rcases run (nested (compose left)) l with ⟨e | track, after⟩ <;> rfl

end Book

end Dataflow
