import Dataflow.Proofs.Traces

/-!
# Instances in a run

What a run does to instances is what its nodes do. A trainer changes the fit state of the instance
bound to it, and any other node changes no instance, whatever the actors are (`executed`). So along
a run no instance comes or goes and none changes its behaviour; instances that are bound to no node
stay as they are (`Evolves.instances_of_free`); and if no node is a trainer, all of them do
(`Evolves.instances_of_trainless`).
-/

set_option autoImplicit false
set_option relaxedAutoImplicit false

namespace Dataflow

variable {ε σ : Type}

/-! ### One node -/

/-- What it comes to when an instance does the work of a node. Without an instance nothing happens,
and a trainer does nothing without a label. -/
inductive Executed (node : Node ε σ) (id : InstanceId) (inputs : List Payload) (w : World ε σ) :
    Except (Halt FlowError) (List Payload) → World ε σ → Prop
  | idle {e : FlowError} (hidle : w.instances[id]? = none ∨ node.kind = .trainer)
      (hother : (∀ actor, e ≠ .notTrained actor) ∧ e ≠ .cancelled) :
      Executed node id inputs w (.error (.error e)) w
  | applied {actor : Instance ε σ} (hactor : w.instances[id]? = some actor)
      (hkind : node.kind ≠ .trainer) :
      Executed node id inputs w
        (Halt.mapError (FlowError.ofActor node.label)
          (actor.applied w.environment node.arity.outputs inputs))
        { w with environment := (actor.behavior.apply inputs actor.fit w.environment).2 }
  | trained {actor : Instance ε σ} (hactor : w.instances[id]? = some actor)
      (hkind : node.kind = .trainer) (data : List Payload) (label : Payload) :
      Executed node id inputs w
        (Halt.mapError (FlowError.ofActor node.label)
          ((actor.trained w.environment data label).1.map fun _ ↦ []))
        (World.setFit
          { w with environment := (actor.behavior.train data label actor.fit w.environment).2.2 }
          id (actor.trained w.environment data label).2.fit)

theorem executed (node : Node ε σ) (id : InstanceId) (inputs : List Payload) (w : World ε σ) :
    Executed node id inputs w (Action.result (execute node id inputs) w).1
      (Action.result (execute node id inputs) w).2 := by
  rw [execute, Action.result_bind]
  by_cases htrainer : node.kind = .trainer
  · simp only [perform, htrainer]
    cases inputs.getLast? with
    | none => exact .idle (.inr htrainer) ⟨fun actor h ↦ (by cases h), fun h ↦ by cases h⟩
    | some label =>
      cases hactor : w.instances[id]? with
      | none =>
        simp only [Action.result_bind, Action.result_train_of_none hactor]
        exact .idle (.inl hactor) ⟨fun actor h ↦ (by cases h), fun h ↦ by cases h⟩
      | some actor =>
        simp only [Action.result_bind, Action.result_train_of_some hactor]
        exact .trained hactor htrainer inputs.dropLast label
  · have hperform : perform node id inputs = (do
        let result ← Action.apply id inputs
        return result.map fun r ↦ do Halt.lift (unpack node.arity.outputs (← r))) := by
      unfold perform
      split
      · contradiction
      · rfl
    rw [hperform]
    cases hactor : w.instances[id]? with
    | none =>
      simp only [Action.result_bind, Action.result_apply_of_none hactor]
      exact .idle (.inl hactor) ⟨fun actor h ↦ (by cases h), fun h ↦ by cases h⟩
    | some actor =>
      simp only [Action.result_bind, Action.result_apply_of_some hactor]
      exact .applied hactor htrainer

/-- An instance that a node applies gives its outputs, and leaves the environment as it has made
it. -/
theorem result_execute_of_applied {node : Node ε σ} {id : InstanceId} {actor : Instance ε σ}
    {w : World ε σ} (hactor : w.instances[id]? = some actor) (hkind : node.kind ≠ .trainer)
    (inputs : List Payload) :
    Action.result (execute node id inputs) w =
      (Halt.mapError (FlowError.ofActor node.label)
          (actor.applied w.environment node.arity.outputs inputs),
        { w with environment := (actor.behavior.apply inputs actor.fit w.environment).2 }) := by
  have hexecuted := executed node id inputs w
  generalize Action.result (execute node id inputs) w = done at hexecuted ⊢
  obtain ⟨outcome, after⟩ := done
  dsimp only at hexecuted
  cases hexecuted with
  | idle hidle hother =>
    rcases hidle with hnone | htrainer
    · rw [hactor] at hnone
      cases hnone
    · exact absurd htrainer hkind
  | applied hfound hkind =>
    obtain rfl := Option.some.inj (hactor.symm.trans hfound)
    rfl
  | trained hfound htrainer data label => exact absurd htrainer hkind

namespace Executed

variable {node : Node ε σ} {id : InstanceId} {inputs : List Payload} {w after : World ε σ}
  {outcome : Except (Halt FlowError) (List Payload)}

theorem size (h : Executed node id inputs w outcome after) :
    after.instances.size = w.instances.size := by
  cases h with
  | idle hidle hother => rfl
  | applied hactor hkind => rfl
  | trained hactor hkind data label => exact Array.size_modify

theorem instances_of_ne (h : Executed node id inputs w outcome after) {other : InstanceId}
    (hne : id ≠ other) : after.instances[other]? = w.instances[other]? := by
  cases h with
  | idle hidle hother => rfl
  | applied hactor hkind => rfl
  | trained hactor hkind data label => exact World.instances_setFit_of_ne _ hne _

theorem instances_of_kind_ne (h : Executed node id inputs w outcome after)
    (hkind : node.kind ≠ .trainer) : after.instances = w.instances := by
  cases h with
  | idle hidle hother => rfl
  | applied hactor hne => rfl
  | trained hactor htrainer data label => exact absurd htrainer hkind

theorem behavior (h : Executed node id inputs w outcome after) {other : InstanceId}
    {actor : Instance ε σ} (hactor : w.instances[other]? = some actor) :
    ∃ later, after.instances[other]? = some later ∧ later.behavior = actor.behavior := by
  cases h with
  | idle hidle hother => exact ⟨actor, hactor, rfl⟩
  | applied hbound hkind => exact ⟨actor, hactor, rfl⟩
  | trained hbound hkind data label =>
    rw [World.instances_setFit]
    dsimp only
    rw [hactor]
    split_ifs
    · exact ⟨_, rfl, rfl⟩
    · exact ⟨actor, rfl, rfl⟩

end Executed

/-! ### Runs -/

namespace Evolves

variable {g : Graph ε σ} {binding : Binding} {start w : World ε σ} {events : List Event}

theorem size (h : Evolves g binding start events w) :
    w.instances.size = start.instances.size := by
  induction h with
  | refl => rfl
  | told _ message ih => exact ih
  | started _ id ih => exact ih
  | ended _ hnode hactor inputs ih => exact (executed _ _ inputs _).size.trans ih

/-- An instance that is bound to no trainer stays as it is. -/
theorem instances_of_untrained (h : Evolves g binding start events w) {other : InstanceId}
    (hfree : ∀ (k : NodeId) (node : Node ε σ), g.nodes[k]? = some node → node.kind = .trainer →
      binding[k]? ≠ some other) : w.instances[other]? = start.instances[other]? := by
  induction h with
  | refl => rfl
  | told _ message ih => exact ih
  | started _ id ih => exact ih
  | @ended events w _ id node actor hnode hactor inputs ih =>
    have hexecuted := executed node actor inputs w
    by_cases hkind : node.kind = .trainer
    · refine (hexecuted.instances_of_ne ?_).trans ih
      rintro rfl
      exact hfree id node hnode hkind hactor
    · rw [hexecuted.instances_of_kind_ne hkind]
      exact ih

/-- An instance that is bound to no node stays as it is. -/
theorem instances_of_free (h : Evolves g binding start events w) {other : InstanceId}
    (hfree : other ∉ binding) : w.instances[other]? = start.instances[other]? :=
  h.instances_of_untrained fun _ _ _ _ hbound ↦ hfree (List.mem_of_getElem? hbound)

/-- Where nothing is trained, all instances stay as they are. -/
theorem instances_of_trainless (h : Evolves g binding start events w)
    (hkind : ∀ node ∈ g.nodes, node.kind ≠ .trainer) : w.instances = start.instances := by
  induction h with
  | refl => rfl
  | told _ message ih => exact ih
  | started _ id ih => exact ih
  | ended _ hnode hactor inputs ih =>
    exact ((executed _ _ inputs _).instances_of_kind_ne
      (hkind _ (List.mem_of_getElem? hnode))).trans ih

/-- No instance changes its behaviour. -/
theorem behavior (h : Evolves g binding start events w) {other : InstanceId}
    {actor : Instance ε σ} (hactor : start.instances[other]? = some actor) :
    ∃ after, w.instances[other]? = some after ∧ after.behavior = actor.behavior := by
  induction h with
  | refl => exact ⟨actor, hactor, rfl⟩
  | told _ message ih => exact ih
  | started _ id ih => exact ih
  | ended _ hnode hbound inputs ih =>
    obtain ⟨middle, hmiddle, hsame⟩ := ih
    obtain ⟨after, hafter, hkept⟩ := (executed _ _ inputs _).behavior hmiddle
    exact ⟨after, hafter, hkept.trans hsame⟩

section OneTrainer

variable {id : InstanceId} {k : NodeId}
  (honly : ∀ (j : NodeId) (node : Node ε σ), g.nodes[j]? = some node → node.kind = .trainer →
    binding[j]? = some id → j = k)

include honly

/-- Of an instance with one trainer no other node changes anything. -/
theorem instances_execute_of_ne {j : NodeId} {node : Node ε σ} {bound : InstanceId}
    (hnode : g.nodes[j]? = some node) (hbound : binding[j]? = some bound) (hne : j ≠ k)
    (inputs : List Payload) (w : World ε σ) :
    (Action.result (execute node bound inputs) w).2.instances[id]? = w.instances[id]? := by
  have hexecuted := executed node bound inputs w
  by_cases hkind : node.kind = .trainer
  · refine hexecuted.instances_of_ne ?_
    rintro rfl
    exact hne (honly j node hnode hkind hbound)
  · rw [hexecuted.instances_of_kind_ne hkind]

/-- Until its one trainer ends an instance stays as it is. -/
theorem instances_of_pending (h : Evolves g binding start events w)
    (hpending : k ∉ events.filterMap Event.ended?) : w.instances[id]? = start.instances[id]? := by
  induction h with
  | refl => rfl
  | told _ message ih => exact ih hpending
  | @started events w _ other ih =>
    rw [filterMap_ended?_started] at hpending
    exact ih hpending
  | @ended events w _ j node bound hnode hbound inputs ih =>
    rw [List.filterMap_append, List.mem_append, not_or] at hpending
    have hne : j ≠ k := fun hsame ↦ hpending.2 (hsame ▸ List.mem_cons_self)
    exact (instances_execute_of_ne honly hnode hbound hne inputs w).trans (ih hpending.1)

/-- An instance whose one trainer has ended once, with outputs, has been trained once, and with
success. -/
theorem trained_once (h : Evolves g binding start events w) {actor : Instance ε σ}
    (hactor : start.instances[id]? = some actor) (honce : (events.filterMap Event.ended?).Nodup)
    {outputs : List Payload} (hended : .ended k (.ok outputs) ∈ events) {trainer : Node ε σ}
    (htrainer : g.nodes[k]? = some trainer) (hkind : trainer.kind = .trainer)
    (hbound : binding[k]? = some id) :
    ∃ data label env, (actor.behavior.train data label actor.fit env).1 = .ok () ∧
      w.instances[id]? =
        some { actor with fit := (actor.behavior.train data label actor.fit env).2.1 } := by
  induction h with
  | refl => cases hended
  | told _ message ih => exact ih honce hended
  | @started events w _ other ih =>
    rw [filterMap_ended?_started] at honce
    exact ih honce (by simpa using hended)
  | @ended events w hbefore j node bound hnode hbound' inputs ih =>
    rw [List.filterMap_append, List.nodup_append] at honce
    obtain ⟨honce, -, hapart⟩ := honce
    rcases List.mem_append.mp hended with hearlier | hlast
    · have hne : j ≠ k := fun hsame ↦ hapart k
        (List.mem_filterMap.mpr ⟨_, hearlier, rfl⟩) j List.mem_cons_self hsame.symm
      rw [instances_execute_of_ne honly hnode hbound' hne inputs w]
      exact ih honce hearlier
    · obtain ⟨rfl, houtcome⟩ := Event.ended.inj (List.mem_singleton.mp hlast)
      obtain rfl := Option.some.inj (hnode.symm.trans htrainer)
      obtain rfl := Option.some.inj (hbound'.symm.trans hbound)
      have hpending : k ∉ events.filterMap Event.ended? := fun hmem ↦
        hapart k hmem k List.mem_cons_self rfl
      have hfound := (instances_of_pending honly hbefore hpending).trans hactor
      have hexecuted := executed node bound inputs w
      rw [← houtcome] at hexecuted
      generalize (Action.result (execute node bound inputs) w).2 = after at hexecuted ⊢
      generalize hresult : Except.ok outputs = result at hexecuted
      cases hexecuted with
      | idle hidle hother => cases hresult
      | applied hfound' happlies => exact absurd hkind happlies
      | @trained found hfound' htrains data label =>
        obtain rfl := Option.some.inj (hfound.symm.trans hfound')
        refine ⟨data, label, w.environment, ?_, World.instances_setFit_self hfound _⟩
        cases houtcome : (actor.behavior.train data label actor.fit w.environment).1 with
        | ok u => rfl
        | error halt =>
          change _ = Halt.mapError _
            (Except.map _ (actor.behavior.train data label actor.fit w.environment).1) at hresult
          rw [houtcome] at hresult
          cases hresult

end OneTrainer

end Evolves

end Dataflow
