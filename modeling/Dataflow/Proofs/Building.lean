import Dataflow.Graph.Builder

/-!
# Successful computations on a builder

A computation on a builder that succeeds has gone through all of its steps, so what it did can be
read off step by step. `run_bind_ok` takes a sequence of two steps apart; the lemmas after it say
what each operation has done when it succeeded.
-/

set_option autoImplicit false
set_option relaxedAutoImplicit false

namespace Dataflow

variable {ε σ α β : Type}

/-- A computation that does not fail has a result. -/
theorem exists_eq_ok {δ : Type} {result : Except δ α} (h : result.isOk = true) :
    ∃ a, result = .ok a := by
  cases result with
  | error e => cases h
  | ok a => exact ⟨a, rfl⟩

namespace Build

/-! ### Running a computation step by step -/

@[simp] theorem run_pure (a : α) (b : Builder ε σ) : run (pure a) b = (.ok a, b) := rfl

@[simp] theorem run_throw (e : FlowError) (b : Builder ε σ) :
    run (throw e : Build ε σ α) b = (.error e, b) := rfl

@[simp] theorem run_get (b : Builder ε σ) : run (get : Build ε σ (Builder ε σ)) b = (.ok b, b) :=
  rfl

@[simp] theorem run_set (b next : Builder ε σ) :
    run (set next : Build ε σ PUnit) b = (.ok ⟨⟩, next) := rfl

@[simp] theorem run_modify (f : Builder ε σ → Builder ε σ) (b : Builder ε σ) :
    run (modify f : Build ε σ PUnit) b = (.ok ⟨⟩, f b) := rfl

theorem run_bind (body : Build ε σ α) (next : α → Build ε σ β) (b : Builder ε σ) :
    run (body >>= next) b =
      match run body b with
      | (.ok a, after) => run (next a) after
      | (.error e, after) => (.error e, after) := by
  change ExceptT.bindCont next (run body b).1 (run body b).2 = _
  rcases run body b with ⟨_ | _, _⟩ <;> rfl

/-- A sequence succeeds exactly if its first step does and then the rest. -/
theorem run_bind_ok {body : Build ε σ α} {next : α → Build ε σ β} {b last : Builder ε σ} {r : β} :
    run (body >>= next) b = (.ok r, last) ↔
      ∃ a after, run body b = (.ok a, after) ∧ run (next a) after = (.ok r, last) := by
  rw [run_bind]
  rcases run body b with ⟨e | a, after⟩
  · simp
  · simp only [Prod.mk.injEq, Except.ok.injEq]
    constructor
    · intro h
      exact ⟨a, after, ⟨rfl, rfl⟩, h⟩
    · rintro ⟨_, _, ⟨rfl, rfl⟩, h⟩
      exact h

/-! ### What a successful operation has done -/

/-- A check that succeeds has done nothing. -/
theorem run_check_ok {result : Except FlowError α} {b last : Builder ε σ} {a : α} :
    run (check result) b = (.ok a, last) ↔ result = .ok a ∧ b = last := by
  cases result with
  | ok c => simp [check]
  | error e => simp [check]

theorem run_attempt_ok {step : Builder ε σ → Except FlowError (Builder ε σ)} {b last : Builder ε σ}
    {u : Unit} : run (attempt step) b = (.ok u, last) ↔ step b = .ok last := by
  unfold attempt
  rw [run_bind, run_get]
  dsimp only
  cases step b with
  | ok next => simp
  | error e => simp

@[simp] theorem run_allocateGroup (spec : Spec ε σ) (b : Builder ε σ) :
    run (allocateGroup spec) b = (.ok b.nextGroup, b.allocateGroup spec) := rfl

@[simp] theorem run_addNode (kind : NodeKind) (spec : Spec ε σ) (group : Option GroupId)
    (b : Builder ε σ) :
    run (addNode kind spec group) b = (.ok b.nodes.length, b.addNode kind spec group) := rfl

/-- What a computation does in a context it does in a builder that has entered the context. -/
theorem run_inContext_ok {context : Context} {body : Build ε σ α} {b last : Builder ε σ} {a : α} :
    run (inContext context body) b = (.ok a, last) ↔
      ∃ after, run body (b.enter context) = (.ok a, after) ∧ last = after.leave b.context := by
  change ((run body (b.enter context)).1, (run body (b.enter context)).2.leave b.context) = _ ↔ _
  rcases run body (b.enter context) with ⟨r, after⟩
  simp only [Prod.mk.injEq]
  constructor
  · rintro ⟨rfl, rfl⟩
    exact ⟨after, ⟨rfl, rfl⟩, rfl⟩
  · rintro ⟨_, ⟨rfl, rfl⟩, rfl⟩
    exact ⟨rfl, rfl⟩

end Build

namespace Builder

/-- When an output port can be bound to an input port, and what binding them does. -/
theorem connect_eq_ok {b last : Builder ε σ} {tail : PortRef} {head : NodeId} {input : Nat} :
    b.connect tail head input = .ok last ↔
      (∃ target, b.nodes[head]? = some target ∧ input < target.arity.inputs) ∧
      (∃ source, b.nodes[tail.node]? = some source ∧ tail.port < source.arity.outputs) ∧
      boundPort? b.edges head input = none ∧
      last = { b with edges := b.edges ++ [.data tail head input] } := by
  unfold Builder.connect Builder.node
  cases hhead : b.nodes[head]? with
  | none => simp [bind, Except.bind]
  | some target =>
    cases htail : b.nodes[tail.node]? with
    | none => by_cases hinput : target.arity.inputs ≤ input <;> simp [bind, Except.bind, hinput]
    | some source =>
      by_cases hinput : target.arity.inputs ≤ input
      · simp [bind, Except.bind, hinput, Nat.not_lt.mpr hinput]
      · by_cases hport : source.arity.outputs ≤ tail.port
        · simp [bind, Except.bind, hinput, hport, Nat.not_lt.mpr hport]
        · cases boundPort? b.edges head input with
          | none =>
            simp only [Except.bind, bind, hinput, hport, if_false, pure, Except.pure]
            simp [Nat.lt_of_not_le hinput, Nat.lt_of_not_le hport, eq_comm]
          | some bound => simp [bind, Except.bind, hinput, hport]

theorem addStateEdge_eq_ok {b last : Builder ε σ} {tail head : NodeId} :
    b.addStateEdge tail head = .ok last ↔
      (∃ source, b.nodes[tail]? = some source) ∧ (∃ target, b.nodes[head]? = some target) ∧
      last = { b with edges := b.edges ++ [.state tail head] } := by
  unfold Builder.addStateEdge Builder.node
  cases b.nodes[tail]? with
  | none => simp [bind, Except.bind]
  | some source =>
    cases b.nodes[head]? with
    | none => simp [bind, Except.bind]
    | some target => simp [bind, Except.bind, pure, Except.pure, eq_comm]

/-- A graph that is built holds what the builder has accumulated, and what validation found. -/
theorem build_eq_ok {b : Builder ε σ} {g : Graph ε σ} :
    b.build = .ok g ↔
      ∃ found, validate b.nodes b.edges = .ok found ∧
        g = ⟨b.mode, b.nodes, b.edges, b.groups, found.order, found.source, found.sink⟩ := by
  unfold build
  cases validate b.nodes b.edges with
  | error e => simp [bind, Except.bind]
  | ok found => simp [bind, Except.bind, pure, Except.pure, eq_comm]

end Builder

end Dataflow
