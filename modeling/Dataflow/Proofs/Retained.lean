import Dataflow.Proofs.Executions
import Dataflow.Proofs.FailedLoads

/-!
# What fitting brings about

An actor may have a property of its fit state that comes about when a training or a load succeeds and
that nothing takes away again, not even a training or a load that fails (`Behavior.Retains`). Then
an instance has the property after a run that has trained it (`Evolves.retains`), and after states
have been loaded without a refusal, one of them its own (`Holding.retains_foldl`).

Of a wrapped object, that it counts as trained is such a property (`Mapping.retains_trained`), and an
instance that has it never says that it has not been trained.
-/

set_option autoImplicit false
set_option relaxedAutoImplicit false

namespace Dataflow

variable {ε σ τ : Type}

/-- A property of fit states that a successful training or load brings about and that no training
or load takes away. -/
structure Behavior.Retains (b : Behavior ε σ) (q : σ → Prop) : Prop where
  trained : ∀ data label fit env, (b.train data label fit env).1 = .ok () →
    q (b.train data label fit env).2.1
  train : ∀ data label fit env, q fit → q (b.train data label fit env).2.1
  loaded : ∀ bytes fit, (b.loadState bytes fit).1 = .ok () → q (b.loadState bytes fit).2
  load : ∀ bytes fit, q fit → q (b.loadState bytes fit).2

/-! ### Runs -/

/-- Among these events, a trainer that is bound to an instance has ended with outputs. -/
def Fitted (g : Graph ε σ) (binding : Binding) (events : List Event) (id : InstanceId) : Prop :=
  ∃ k node outputs, g.nodes[k]? = some node ∧ node.kind = .trainer ∧ binding[k]? = some id ∧
    .ended k (.ok outputs) ∈ events

/-- What an instance retains it has after a node was executed if it had it before, or if the node
has trained it. -/
theorem Executed.retains {node : Node ε σ} {bound id : InstanceId} {inputs : List Payload}
    {w after : World ε σ} {outcome : Except (Halt FlowError) (List Payload)}
    (h : Executed node bound inputs w outcome after) {actor : Instance ε σ}
    (hactor : w.instances[id]? = some actor) {q : σ → Prop} (hretains : actor.behavior.Retains q) :
    ∃ later, after.instances[id]? = some later ∧ later.behavior = actor.behavior ∧
      (q actor.fit ∨ (node.kind = .trainer ∧ bound = id ∧ ∃ outputs, outcome = .ok outputs) →
        q later.fit) := by
  cases h with
  | idle hidle hother => exact ⟨actor, hactor, rfl, fun hq ↦ hq.resolve_right fun h ↦ nomatch h.2.2⟩
  | applied hbound hkind =>
    exact ⟨actor, hactor, rfl, fun hq ↦ hq.resolve_right fun h ↦ hkind h.1⟩
  | @trained found hbound hkind data label =>
    by_cases hsame : bound = id
    · subst hsame
      obtain rfl := Option.some.inj (hactor.symm.trans hbound)
      refine ⟨_, World.instances_setFit_self hactor _, rfl, fun hq ↦ ?_⟩
      rcases hq with hq | ⟨-, -, outputs, hok⟩
      · exact hretains.train data label actor.fit w.environment hq
      · refine hretains.trained data label actor.fit w.environment ?_
        change Halt.mapError _ (Except.map _ (actor.behavior.train data label actor.fit
          w.environment).1) = _ at hok
        cases hresult : (actor.behavior.train data label actor.fit w.environment).1 with
        | ok u => rfl
        | error halt =>
          rw [hresult] at hok
          cases hok
    · refine ⟨actor, ?_, rfl, fun hq ↦ hq.resolve_right fun h ↦ hsame h.2.1⟩
      rw [World.instances_setFit_of_ne _ hsame]
      exact hactor

/-- What an instance retains it has after a run if it had it before, or if the run has trained
it. -/
theorem Evolves.retains {g : Graph ε σ} {binding : Binding} {start w : World ε σ}
    {events : List Event} (h : Evolves g binding start events w) {id : InstanceId}
    {actor : Instance ε σ} (hactor : start.instances[id]? = some actor) {q : σ → Prop}
    (hretains : actor.behavior.Retains q) :
    ∃ later, w.instances[id]? = some later ∧ later.behavior = actor.behavior ∧
      (q actor.fit ∨ Fitted g binding events id → q later.fit) := by
  induction h with
  | refl => exact ⟨actor, hactor, rfl, fun hq ↦ hq.resolve_right fun ⟨_, _, _, _, _, _, hmem⟩ ↦
      nomatch hmem⟩
  | told _ message ih => exact ih
  | @started events w _ k ih =>
    obtain ⟨later, hlater, hbehavior, hq⟩ := ih
    refine ⟨later, hlater, hbehavior, fun hor ↦ hq (hor.imp_right ?_)⟩
    rintro ⟨k, node, outputs, hnode, hkind, hbound, hmem⟩
    exact ⟨k, node, outputs, hnode, hkind, hbound, by simpa using hmem⟩
  | @ended events w _ k node bound hnode hbound inputs ih =>
    obtain ⟨mid, hmid, hbehavior, hq⟩ := ih
    obtain ⟨later, hlater, hsame, hstep⟩ :=
      (executed node bound inputs w).retains hmid (hbehavior ▸ hretains)
    refine ⟨later, hlater, hsame.trans hbehavior, fun hor ↦ hstep ?_⟩
    rcases hor with hfit | ⟨k', node', outputs, hnode', hkind, hbound', hmem⟩
    · exact .inl (hq (.inl hfit))
    · rcases List.mem_append.mp hmem with hmem | hmem
      · exact .inl (hq (.inr ⟨k', node', outputs, hnode', hkind, hbound', hmem⟩))
      · rw [List.mem_singleton, Event.ended.injEq] at hmem
        obtain ⟨rfl, houtcome⟩ := hmem
        obtain rfl := Option.some.inj (hnode.symm.trans hnode')
        exact .inr ⟨hkind, Option.some.inj (hbound.symm.trans hbound'), outputs, houtcome.symm⟩

/-! ### Loads -/

/-- What an instance retains it has after it has loaded a state if it had it before, or if the state
was accepted. -/
theorem Instance.retains_loaded {actor : Instance ε σ} {q : σ → Prop}
    (hretains : actor.behavior.Retains q) (bytes : Bytes)
    (hq : q actor.fit ∨ (actor.loaded bytes).1 = .ok ()) : q (actor.loaded bytes).2.fit := by
  rcases hq with hq | hok
  · exact hretains.load bytes actor.fit hq
  · exact hretains.loaded bytes actor.fit hok

namespace Holding

theorem retains_load {held : Holding ε σ} {group : GroupId} {entry : Roster.Pending ε σ}
    {after : Instance ε σ} (hafter : held.load entry group = some after) {q : σ → Prop}
    (hretains : after.behavior.Retains q) :
    ∃ actor, held group = some actor ∧ actor.behavior = after.behavior ∧
      (q actor.fit ∨ (entry.group = group ∧ held.refusal? entry = none) → q after.fit) := by
  unfold load at hafter
  split_ifs at hafter with hgroup
  · obtain ⟨actor, hactor, rfl⟩ := Option.map_eq_some_iff.mp hafter
    replace hretains : actor.behavior.Retains q := hretains
    refine ⟨actor, hactor, rfl, fun hq ↦ Instance.retains_loaded hretains entry.bytes ?_⟩
    refine hq.imp_right fun ⟨_, haccepted⟩ ↦ ?_
    rw [refusal?, ← hgroup, hactor] at haccepted
    dsimp only at haccepted
    cases hresult : (actor.loaded entry.bytes).1 with
    | ok u => rfl
    | error e =>
      rw [hresult] at haccepted
      cases haccepted
  · exact ⟨after, hafter, rfl, fun hq ↦ hq.resolve_right fun h ↦ hgroup h.1.symm⟩

/-- What an instance retains its group has after states have been loaded if it had it before, or if
it is the group of one of them and none was refused. -/
theorem retains_foldl {entries : List (Roster.Pending ε σ)} {held : Holding ε σ} {group : GroupId}
    {after : Instance ε σ}
    (hafter : (Roster.reached entries held).foldl load held group = some after) {q : σ → Prop}
    (hretains : after.behavior.Retains q) :
    ∃ actor, held group = some actor ∧ actor.behavior = after.behavior ∧
      (q actor.fit ∨ (Roster.outcome entries held = .ok () ∧ group ∈ entries.map (·.group)) →
        q after.fit) := by
  induction entries generalizing held with
  | nil => exact ⟨after, hafter, rfl, fun hq ↦ hq.resolve_right fun h ↦ List.not_mem_nil h.2⟩
  | cons entry rest ih =>
    rw [Roster.outcome]
    rw [Roster.reached] at hafter
    cases hrefusal : held.refusal? entry with
    | some e =>
      rw [hrefusal] at hafter
      obtain ⟨actor, hactor, hsame, hstep⟩ := retains_load hafter hretains
      refine ⟨actor, hactor, hsame, fun hq ↦ hstep (.inl (hq.resolve_right fun h ↦ ?_))⟩
      cases h.1
    | none =>
      rw [hrefusal] at hafter
      obtain ⟨mid, hmid, hbehavior, hq⟩ := ih hafter
      obtain ⟨actor, hactor, hsame, hstep⟩ := retains_load hmid (hbehavior ▸ hretains)
      refine ⟨actor, hactor, hsame.trans hbehavior, fun hor ↦ hq ?_⟩
      rcases hor with hfit | ⟨haccepted, hmem⟩
      · exact .inl (hstep (.inl hfit))
      · rw [List.map_cons, List.mem_cons] at hmem
        exact hmem.imp (fun hgroup ↦ hstep (.inr ⟨hgroup.symm, hrefusal⟩)) fun h ↦ ⟨haccepted, h⟩

end Holding

/-! ### Wrapped objects -/

/-- The states that a behaviour with its states among others retains. -/
theorem Behavior.Retains.embed {b : Behavior ε τ} {q : τ → Prop} (h : b.Retains q) {inject : τ → σ}
    {project : σ → Option τ} (hproject : ∀ state, project (inject state) = some state) :
    (b.embed inject project).Retains fun fit ↦ ∃ state, project fit = some state ∧ q state where
  trained data label fit env hok := ⟨_, hproject _, h.trained data label _ env hok⟩
  train data label fit env hq := by
    obtain ⟨state, hstate, hq⟩ := hq
    refine ⟨_, hproject _, ?_⟩
    rw [hstate, Option.getD_some]
    exact h.train data label state env hq
  loaded bytes fit hok := ⟨_, hproject _, h.loaded bytes _ hok⟩
  load bytes fit hq := by
    obtain ⟨state, hstate, hq⟩ := hq
    refine ⟨_, hproject _, ?_⟩
    rw [hstate, Option.getD_some]
    exact h.load bytes state hq

namespace Mapping

variable (m : Mapping ε τ) (initial : τ)

theorem retains_trained : (m.behavior initial).Retains fun wrapped ↦ wrapped.trained = true where
  trained data label wrapped env hok := by
    simp only [behavior] at hok ⊢
    split at hok
    · cases hok
    · split at hok
      · rfl
      · cases hok
  train data label wrapped env hq := by
    simp only [behavior]
    split
    · exact hq
    · split
      · rfl
      · exact hq
  loaded bytes wrapped hok := by
    simp only [behavior] at hok ⊢
    split at hok
    · cases hok
    · cases hok
    · split at hok
      · rfl
      · cases hok
  load bytes wrapped hq := by
    simp only [behavior]
    split
    · exact hq
    · exact hq
    · split
      · rfl
      · exact hq

/-- What a mapping fails with is not that the object has not been trained. -/
theorem mapError_failed_ne_notTrained {α : Type} (result : Except (Halt String) α) :
    Halt.mapError ActorError.failed result ≠ .error (.error .notTrained) := by
  rcases result with (text | _) | value <;> simp [Halt.mapError, Halt.map]

/-- A wrapped object that counts as trained does not say that it has not been trained. -/
theorem apply_ne_notTrained {wrapped : Wrapped τ} (htrained : wrapped.trained = true)
    (inputs : List Payload) (env : Environment ε) :
    ((m.behavior initial).apply inputs wrapped env).1 ≠ .error (.error .notTrained) := by
  have hready : ¬ (m.train.isSome = true ∧ ¬ wrapped.trained = true) := fun h ↦ h.2 htrained
  simp only [behavior, if_neg hready]
  exact mapError_failed_ne_notTrained _

end Mapping

/-- The actor of a spec is a wrapped object, whose states are among those of all actors. -/
def Spec.Wraps (spec : Spec ε σ) : Prop :=
  ∃ (τ : Type) (m : Mapping ε τ) (initial : τ) (inject : Wrapped τ → σ)
    (project : σ → Option (Wrapped τ)), (∀ wrapped, project (inject wrapped) = some wrapped) ∧
      spec.behavior = (m.behavior initial).embed inject project

/-- A wrapped actor retains a property of its fit states that keeps it from saying that it has not
been trained. -/
theorem Spec.Wraps.exists_retains {spec : Spec ε σ} (h : spec.Wraps) :
    ∃ q, spec.behavior.Retains q ∧ ∀ fit, q fit → ∀ inputs env,
      (spec.behavior.apply inputs fit env).1 ≠ .error (.error .notTrained) := by
  obtain ⟨τ, m, initial, inject, project, hproject, hbehavior⟩ := h
  refine ⟨_, hbehavior ▸ (m.retains_trained initial).embed hproject, ?_⟩
  rintro fit ⟨wrapped, hwrapped, htrained⟩ inputs env
  rw [hbehavior]
  change ((m.behavior initial).apply inputs ((project fit).getD _) env).1 ≠ _
  rw [hwrapped, Option.getD_some]
  exact m.apply_ne_notTrained initial htrained inputs env

/-! ### Nodes that have not been trained -/

theorem unpack_ne_notTrained (outputs : Nat) (result : Payload) :
    unpack outputs result ≠ .error .notTrained := by
  unfold unpack
  split
  · simp
  · simp
  · split_ifs <;> simp
  · simp

/-- An instance that never says that it has not been trained is not reported so. -/
theorem Instance.applied_ne_notTrained {actor : Instance ε σ}
    (hnever : ∀ inputs env,
      (actor.behavior.apply inputs actor.fit env).1 ≠ .error (.error .notTrained))
    (env : Environment ε) (outputs : Nat) (inputs : List Payload) :
    actor.applied env outputs inputs ≠ .error (.error .notTrained) := by
  have hthis := hnever inputs env
  unfold applied
  cases hresult : (actor.behavior.apply inputs actor.fit env).1 with
  | error halt =>
    rw [hresult] at hthis
    simpa [bind, Except.bind] using hthis
  | ok payload =>
    change Halt.lift (unpack outputs payload) ≠ _
    have hunpack := unpack_ne_notTrained outputs payload
    cases hparts : unpack outputs payload with
    | ok parts => simp [Halt.lift]
    | error e =>
      rw [hparts] at hunpack
      simpa [Halt.lift] using hunpack

theorem Executed.ne_notTrained {node : Node ε σ} {id : InstanceId} {inputs : List Payload}
    {w after : World ε σ} {outcome : Except (Halt FlowError) (List Payload)}
    (h : Executed node id inputs w outcome after) (hkind : node.kind ≠ .trainer)
    {actor : Instance ε σ} (hactor : w.instances[id]? = some actor)
    (hnever : ∀ inputs env,
      (actor.behavior.apply inputs actor.fit env).1 ≠ .error (.error .notTrained))
    (name : String) : outcome ≠ .error (.error (.notTrained name)) := by
  cases h with
  | idle hidle hother => simpa using hother.1 name
  | trained hfound htrainer data label => exact absurd htrainer hkind
  | applied hfound hne =>
    obtain rfl := Option.some.inj (hactor.symm.trans hfound)
    have hresult := actor.applied_ne_notTrained hnever w.environment node.arity.outputs inputs
    generalize actor.applied w.environment node.arity.outputs inputs = applied at hresult ⊢
    rcases applied with (e | _) | outputs
    · cases e with
      | notTrained => exact absurd rfl hresult
      | _ => simp [Halt.mapError, Halt.map, FlowError.ofActor]
    · simp [Halt.mapError, Halt.map]
    · simp [Halt.mapError]

/-- Where nothing is trained, an instance that never says that it has not been trained does not
raise that error. -/
theorem Evolves.not_raised {g : Graph ε σ} {binding : Binding} {start w : World ε σ}
    {events : List Event} (h : Evolves g binding start events w)
    (hkind : ∀ node ∈ g.nodes, node.kind ≠ .trainer) {k : NodeId} {id : InstanceId}
    {actor : Instance ε σ} (hbound : binding[k]? = some id)
    (hactor : start.instances[id]? = some actor)
    (hnever : ∀ inputs env,
      (actor.behavior.apply inputs actor.fit env).1 ≠ .error (.error .notTrained))
    (name : String) : .ended k (.error (.error (.notTrained name))) ∉ events := by
  induction h with
  | refl => exact List.not_mem_nil
  | told _ message ih => exact ih
  | started _ other ih => simpa using ih
  | @ended events w h other node bound hnode hother inputs ih =>
    intro hmem
    rcases List.mem_append.mp hmem with hmem | hmem
    · exact ih hmem
    · rw [List.mem_singleton, Event.ended.injEq] at hmem
      obtain ⟨rfl, houtcome⟩ := hmem
      obtain rfl := Option.some.inj (hbound.symm.trans hother)
      have hstill : w.instances[id]? = some actor := by
        rw [h.instances_of_trainless hkind, hactor]
      exact (executed node id inputs w).ne_notTrained (hkind node (List.mem_of_getElem? hnode))
        hstill hnever name houtcome.symm

end Dataflow
