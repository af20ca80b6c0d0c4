import Dataflow.Proofs.DirectEvaluation

/-!
# Running a layout follows direct evaluation

The nodes of a layout, run one after another, do what direct evaluation of the expression does.
`Setting.Simulates` compares the two step by step: while direct evaluation succeeds, the run has
recorded what it gives, and where it stops, the run stops for the same reason. Throughout, the
instances of the leaves are what direct evaluation has made of their actors, and no other instance
has changed (`Setting.Mirrors`).

Simulations are put together like the steps they are about: one node is visited for one call
(`Setting.simulates_call`, `Setting.simulates_trainLeaf`), and what follows a step is simulated from
where the step ended (`Setting.Simulates.bind`). `Expression.simulated` is the induction over the
expression.
-/

set_option autoImplicit false
set_option relaxedAutoImplicit false

namespace Dataflow

variable {ε σ α β : Type}

/-! ### The setting of a run -/

/-- A graph made of placements, the context and the world its run starts in, the scope whose groups
are followed, the number of leaves, and the instance of each leaf. -/
structure Setting (ε σ : Type) where
  graph : Graph ε σ
  placements : List (Placement ε σ)
  context : RunContext ε
  start : World ε σ
  scope : Nat
  leaves : Nat
  home : Nat → InstanceId

namespace Setting

/-- The graph has the nodes and inputs of its placements. The nodes of a leaf are bound to the
instance of the leaf, each leaf has its own, and nodes outside of all groups are bound to new
instances. -/
structure Sound (r : Setting ε σ) : Prop where
  live : r.context.cancelled r.start.environment = false
  node : ∀ (k : Nat) (p : Placement ε σ), r.placements[k]? = some p →
    r.graph.nodes[k]? = some (p.node k)
  inputs : ∀ (k : Nat) (p : Placement ε σ), r.placements[k]? = some p → r.graph.inputs k = p.inputs
  leaf : ∀ (k : Nat) (p : Placement ε σ) (i : Nat), r.placements[k]? = some p →
    p.group = some ⟨r.scope, i⟩ → r.context.binding[k]? = some (r.home i)
  plain : ∀ (k : Nat) (p : Placement ε σ), r.placements[k]? = some p → p.group = none →
    ∃ actor, r.context.binding[k]? = some actor ∧
      r.start.instances[actor]? = some p.spec.instantiate ∧ ∀ i < r.leaves, r.home i ≠ actor
  apart : ∀ i < r.leaves, ∀ j < r.leaves, r.home i = r.home j → i = j

/-- A world mirrors a stage of direct evaluation: the instances of the leaves are the actors of the
stage, and nothing else has changed. -/
structure Mirrors (r : Setting ε σ) (s : Stage ε σ) (w : World ε σ) : Prop where
  environment : w.environment = r.start.environment
  leaf : ∀ i < r.leaves, w.instances[r.home i]? = some (s.actors i)
  other : ∀ id, (∀ i < r.leaves, r.home i ≠ id) → w.instances[id]? = r.start.instances[id]?
  isolated : ∀ i < r.leaves, (s.actors i).behavior.Isolated

variable {r : Setting ε σ} {p : Produced} {s : Stage ε σ} {w : World ε σ}

/-- Mirroring looks at instances and environment, and at the actors of the stage. -/
theorem Mirrors.congr (h : r.Mirrors s w) {next : Stage ε σ} {after : World ε σ}
    (hactors : next.actors = s.actors) (hinstances : after.instances = w.instances)
    (henvironment : after.environment = w.environment) : r.Mirrors next after where
  environment := henvironment.trans h.environment
  leaf i hi := by
    rw [hactors, hinstances]
    exact h.leaf i hi
  other id hid := by
    rw [hinstances]
    exact h.other id hid
  isolated i hi := by
    rw [hactors]
    exact h.isolated i hi

/-- The leaf that is trained is trained on both sides. -/
theorem Mirrors.trained (hr : r.Sound) (h : r.Mirrors s w) (hleaf : s.leaf < r.leaves)
    (env : Environment ε) (inputs : List Payload) (label : Payload) {after : World ε σ}
    (hinstances : after.instances =
      (w.setFit (r.home s.leaf) ((s.actors s.leaf).trained env inputs label).2.fit).instances)
    (henvironment : after.environment = w.environment) :
    r.Mirrors (Direct.afterTraining s env inputs label) after where
  environment := henvironment.trans h.environment
  leaf i hi := by
    change _ = some (if i = s.leaf then _ else _)
    rw [hinstances]
    split_ifs with hsame
    · rw [hsame, World.instances_setFit_self (h.leaf s.leaf hleaf)]
      rfl
    · have hne : r.home s.leaf ≠ r.home i := fun hhome ↦
        hsame (hr.apart s.leaf hleaf i hi hhome).symm
      rw [World.instances_setFit_of_ne w hne, h.leaf i hi]
  other id hid := by
    rw [hinstances, World.instances_setFit_of_ne w (hid s.leaf hleaf), h.other id hid]
  isolated i hi := by
    change (if i = s.leaf then _ else _ : Instance ε σ).behavior.Isolated
    split_ifs with hsame
    · exact h.isolated s.leaf hleaf
    · exact h.isolated i hi

/-! ### Simulation -/

/-- The next `count` nodes, run from the outputs `p` in the world `w`, do what a step of direct
evaluation does at the stage `s`. If the step succeeds, it has made one call for each node and
passed `fits` leaves, earlier outputs are kept, and `given` relates the outputs to what the step
gives. -/
def Simulates (r : Setting ε σ) (count fits : Nat) (given : Produced → α → Prop)
    (body : Direct ε σ α) (p : Produced) (s : Stage ε σ) (w : World ε σ) : Prop :=
  match Direct.result body s with
  | (.ok a, next) =>
    ∃ q after,
      Flow.result (Sequential.visitAll r.graph r.context (List.range' s.calls count) p) w =
        (.ok q, after) ∧
      next.calls = s.calls + count ∧ next.leaf = s.leaf + fits ∧ r.Mirrors next after ∧
      (∀ k < s.calls, q k = p k) ∧ given q a
  | (.error h, next) =>
    ∃ after,
      Flow.result (Sequential.visitAll r.graph r.context (List.range' s.calls count) p) w =
        (.error h, after) ∧ r.Mirrors next after

theorem Simulates.of_ok {count fits : Nat} {given : Produced → α → Prop} {body : Direct ε σ α}
    (h : r.Simulates count fits given body p s w) {a : α} {next : Stage ε σ}
    (hbody : Direct.result body s = (.ok a, next)) :
    ∃ q after,
      Flow.result (Sequential.visitAll r.graph r.context (List.range' s.calls count) p) w =
        (.ok q, after) ∧ r.Mirrors next after ∧ given q a := by
  unfold Simulates at h
  rw [hbody] at h
  obtain ⟨q, after, hrun, -, -, hmirrors, -, hgiven⟩ := h
  exact ⟨q, after, hrun, hmirrors, hgiven⟩

theorem Simulates.of_error {count fits : Nat} {given : Produced → α → Prop} {body : Direct ε σ α}
    (h : r.Simulates count fits given body p s w) {halt : Halt FlowError} {next : Stage ε σ}
    (hbody : Direct.result body s = (.error halt, next)) :
    ∃ after,
      Flow.result (Sequential.visitAll r.graph r.context (List.range' s.calls count) p) w =
        (.error halt, after) ∧ r.Mirrors next after := by
  unfold Simulates at h
  rwa [hbody] at h

theorem Simulates.pure {given : Produced → α → Prop} {a : α} (h : r.Mirrors s w) (ha : given p a) :
    r.Simulates 0 0 given (pure a) p s w :=
  ⟨p, w, rfl, rfl, rfl, h, fun _ _ ↦ rfl, ha⟩

/-- Passing a leaf runs no node. -/
theorem Simulates.pass {given : Produced → α → Prop} {a : α} (h : r.Mirrors s w) (ha : given p a) :
    r.Simulates 0 1 given
      (do
        Direct.nextLeaf
        return a) p s w :=
  ⟨p, w, rfl, rfl, rfl, h.congr rfl rfl rfl, fun _ _ ↦ rfl, ha⟩

/-- What follows a step is simulated from where the step ended. -/
theorem Simulates.bind {count more fits others : Nat} {given : Produced → α → Prop}
    {last : Produced → β → Prop} {body : Direct ε σ α} {next : α → Direct ε σ β}
    (h : r.Simulates count fits given body p s w)
    (hnext : ∀ a q after stage, stage.calls = s.calls + count → stage.leaf = s.leaf + fits →
      r.Mirrors stage after → (∀ k < s.calls, q k = p k) → given q a →
      r.Simulates more others last (next a) q stage after) :
    r.Simulates (count + more) (fits + others) last (body >>= next) p s w := by
  unfold Simulates at h ⊢
  rw [Direct.result_bind, ← List.range'_append_1, Sequential.result_visitAll_append]
  rcases hbody : Direct.result body s with ⟨halt | a, stage⟩
  · rw [hbody] at h
    obtain ⟨after, hrun, hmirrors⟩ := h
    refine ⟨after, ?_, hmirrors⟩
    rw [hrun]
  · rw [hbody] at h
    obtain ⟨q, after, hrun, hcalls, hleaf, hmirrors, hkept, hgiven⟩ := h
    have hrest := hnext a q after stage hcalls hleaf hmirrors hkept hgiven
    unfold Simulates at hrest
    rw [hcalls] at hrest
    rw [hrun]
    dsimp only
    rcases hend : Direct.result (next a) stage with ⟨halt | b, final⟩
    · rw [hend] at hrest
      exact hrest
    · rw [hend] at hrest
      obtain ⟨q', after', hrun', hcalls', hleaf', hmirrors', hkept', hlast⟩ := hrest
      refine ⟨q', after', hrun', ?_, ?_, hmirrors', fun k hk ↦ ?_, hlast⟩
      · rw [hcalls', Nat.add_assoc]
      · rw [hleaf', hleaf, Nat.add_assoc]
      · rw [hkept' k (Nat.lt_of_lt_of_le hk (Nat.le_add_right _ _)), hkept k hk]

/-- A step that gives less is simulated as well. -/
theorem Simulates.mono {count fits : Nat} {given weaker : Produced → α → Prop}
    {body : Direct ε σ α} (h : r.Simulates count fits given body p s w)
    (hweaker : ∀ q a, given q a → weaker q a) : r.Simulates count fits weaker body p s w := by
  unfold Simulates at h ⊢
  rcases hbody : Direct.result body s with ⟨halt | a, stage⟩
  · rw [hbody] at h
    exact h
  · rw [hbody] at h
    obtain ⟨q, after, hrun, hcalls, hleaf, hmirrors, hkept, hgiven⟩ := h
    exact ⟨q, after, hrun, hcalls, hleaf, hmirrors, hkept, hweaker q a hgiven⟩

/-! ### One call, one node -/

/-- The instance that does the work of the next node is ready to do it. -/
structure Ready (r : Setting ε σ) (p : Produced) (s : Stage ε σ) (w : World ε σ)
    (placement : Placement ε σ) (inputs : List Payload) (id : InstanceId)
    (actor : Instance ε σ) : Prop where
  placed : r.placements[s.calls]? = some placement
  carried : p.Carries placement.inputs inputs
  bound : r.context.binding[s.calls]? = some id
  present : w.instances[id]? = some actor
  isolated : actor.behavior.Isolated

section Visit

variable {placement : Placement ε σ} {inputs : List Payload} {id : InstanceId}
  {actor : Instance ε σ}

theorem Ready.live (hr : r.Sound) (hm : r.Mirrors s w) :
    r.context.cancelled w.environment = false := by
  rw [hm.environment]
  exact hr.live

theorem Ready.prepare (hr : r.Sound) (h : r.Ready p s w placement inputs id actor) :
    prepare r.graph r.context p (placement.node s.calls) = .ok (id, inputs) := by
  rw [prepare_eq_ok]
  have hports : r.graph.inputs s.calls = placement.inputs := hr.inputs s.calls placement h.placed
  refine ⟨?_, h.bound⟩
  change p.Carries (r.graph.inputs s.calls) inputs
  rw [hports]
  exact h.carried

/-- Visiting the next node records what its work gives. -/
theorem Ready.result_visit_ok (hr : r.Sound) (hm : r.Mirrors s w)
    (h : r.Ready p s w placement inputs id actor) {outputs : List Payload}
    (hwork : ((placement.node s.calls).work actor r.start.environment inputs).1 = .ok outputs) :
    Flow.result (Sequential.visitAll r.graph r.context (List.range' s.calls 1) p) w =
      (.ok (p.record s.calls outputs),
        w.setFit id ((placement.node s.calls).work actor r.start.environment inputs).2.fit) := by
  rw [← hm.environment] at hwork ⊢
  rw [List.range'_one, Sequential.result_visitAll_singleton]
  exact Sequential.result_visit_ok (Ready.live hr hm) (hr.node _ _ h.placed) (h.prepare hr)
    h.present
    h.isolated hwork

/-- Visiting the next node stops the run if its work fails. -/
theorem Ready.result_visit_error (hr : r.Sound) (hm : r.Mirrors s w)
    (h : r.Ready p s w placement inputs id actor) {halt : Halt ActorError}
    (hwork : ((placement.node s.calls).work actor r.start.environment inputs).1 = .error halt) :
    ∃ after,
      Flow.result (Sequential.visitAll r.graph r.context (List.range' s.calls 1) p) w =
        (.error (halt.map (FlowError.ofActor (Direct.place s placement.spec.name))), after) ∧
      after.instances =
        (w.setFit id
          ((placement.node s.calls).work actor r.start.environment inputs).2.fit).instances ∧
      after.environment = w.environment := by
  rw [← hm.environment] at hwork ⊢
  rw [List.range'_one, Sequential.result_visitAll_singleton]
  exact Sequential.result_visit_error (Ready.live hr hm) (hr.node _ _ h.placed) (h.prepare hr)
    h.present h.isolated hwork

/-- The outputs of the next node, as many as it declares. -/
def Outputs (s : Stage ε σ) (outputs : Nat) (q : Produced) (given : List Payload) : Prop :=
  q s.calls = some given ∧ given.length = outputs

/-- A call of an actor is simulated by a node that applies it. -/
theorem simulates_call (hr : r.Sound) (hm : r.Mirrors s w)
    (h : r.Ready p s w placement inputs id actor) (hkind : placement.kind ≠ .trainer) :
    let outputs := (placement.kind.arity placement.spec.arity).outputs
    r.Simulates 1 0 (Outputs s outputs)
      (Direct.call placement.spec.name (actor.applied r.start.environment outputs inputs))
      p s w := by
  intro outputs
  have hwork : (placement.node s.calls).work actor r.start.environment inputs =
      (actor.applied r.start.environment outputs inputs, actor) :=
    Node.work_of_ne hkind actor _ inputs
  unfold Simulates
  rw [Direct.result_call]
  cases happlied : actor.applied r.start.environment outputs inputs with
  | error halt =>
    have hhalt : ((placement.node s.calls).work actor r.start.environment inputs).1 =
        .error halt := by
      rw [hwork, happlied]
    obtain ⟨after, hrun, hinstances, henvironment⟩ := h.result_visit_error hr hm hhalt
    rw [hwork, World.setFit_self h.present] at hinstances
    exact ⟨after, hrun, hm.congr rfl hinstances henvironment⟩
  | ok given =>
    have hgiven : ((placement.node s.calls).work actor r.start.environment inputs).1 =
        .ok given := by
      rw [hwork, happlied]
    have hrun := h.result_visit_ok hr hm hgiven
    rw [hwork, World.setFit_self h.present] at hrun
    refine ⟨_, _, hrun, rfl, rfl, hm.congr rfl rfl rfl, fun k hk ↦ ?_, ?_,
      Instance.length_of_applied_eq_ok happlied⟩
    · exact p.record_of_ne (Nat.ne_of_lt hk) given
    · exact p.record_self s.calls given

theorem Simulates.congr {count fits : Nat} {given : Produced → α → Prop} {body other : Direct ε σ α}
    (h : r.Simulates count fits given body p s w)
    (hsame : Direct.result other s = Direct.result body s) :
    r.Simulates count fits given other p s w := by
  unfold Simulates at h ⊢
  rw [hsame]
  exact h

/-- The instance of the next leaf is ready for a node of the leaf. -/
theorem ready_leaf (hr : r.Sound) (hm : r.Mirrors s w) (hleaf : s.leaf < r.leaves)
    (hplaced : r.placements[s.calls]? = some placement)
    (hgroup : placement.group = some ⟨r.scope, s.leaf⟩)
    (hcarried : p.Carries placement.inputs inputs) :
    r.Ready p s w placement inputs (r.home s.leaf) (s.actors s.leaf) where
  placed := hplaced
  carried := hcarried
  bound := hr.leaf s.calls placement s.leaf hplaced hgroup
  present := hm.leaf s.leaf hleaf
  isolated := hm.isolated s.leaf hleaf

variable {spec : Spec ε σ} {left : Track}

/-- Applying the actor of the next leaf is simulated by its applier. -/
theorem simulates_applyLeaf (hr : r.Sound) (hm : r.Mirrors s w) (hleaf : s.leaf < r.leaves)
    (hplaced : r.placements[s.calls]? = some (.ofLeaf spec ⟨r.scope, s.leaf⟩ left .applier))
    (hcarried : p.Carries left.ports inputs) :
    r.Simulates 1 0 (Outputs s spec.arity.outputs)
      (Direct.applyLeaf r.start.environment spec inputs) p s w := by
  have hready := ready_leaf hr hm hleaf hplaced rfl hcarried
  refine (simulates_call hr hm hready (by simp [Placement.ofLeaf])).congr ?_
  rw [Direct.result_applyLeaf, Direct.result_call]
  rfl

/-- An actor outside of all leaves is applied by a node of its own. -/
theorem simulates_applyNew (hr : r.Sound) (hm : r.Mirrors s w)
    (hplaced : r.placements[s.calls]? = some placement) (hgroup : placement.group = none)
    (hkind : placement.kind ≠ .trainer) (hisolated : placement.spec.behavior.Isolated)
    (hcarried : p.Carries placement.inputs inputs) :
    let outputs := (placement.kind.arity placement.spec.arity).outputs
    r.Simulates 1 0 (Outputs s outputs)
      (Direct.applyNew r.start.environment placement.spec outputs inputs) p s w := by
  obtain ⟨id, hbound, hstart, hne⟩ := hr.plain s.calls placement hplaced hgroup
  have hready : r.Ready p s w placement inputs id placement.spec.instantiate :=
    ⟨hplaced, hcarried, hbound, (hm.other id hne).trans hstart, hisolated⟩
  exact simulates_call hr hm hready hkind

/-- Training the actor of the next leaf is simulated by its trainer. -/
theorem simulates_trainLeaf (hr : r.Sound) (hm : r.Mirrors s w) (hleaf : s.leaf < r.leaves)
    (hplaced : r.placements[s.calls]? = some (.ofLeaf spec ⟨r.scope, s.leaf⟩ left .trainer))
    (hcarried : p.Carries left.ports inputs) {label : Payload}
    (hlabel : p.Carries left.label.toList [label]) :
    r.Simulates 1 0 (fun _ _ ↦ True)
      (Direct.trainLeaf r.start.environment spec inputs (some label)) p s w := by
  have hready := ready_leaf hr hm hleaf hplaced rfl (hcarried.append hlabel)
  have hwork : ((Placement.ofLeaf spec ⟨r.scope, s.leaf⟩ left .trainer).node s.calls).work
      (s.actors s.leaf) r.start.environment (inputs ++ [label]) =
      (((s.actors s.leaf).trained r.start.environment inputs label).1.map fun _ ↦ [],
        ((s.actors s.leaf).trained r.start.environment inputs label).2) :=
    Node.work_trainer rfl _ _ inputs label
  unfold Simulates
  rw [Direct.result_trainLeaf]
  cases htrained : ((s.actors s.leaf).trained r.start.environment inputs label).1 with
  | error halt =>
    have hhalt : (((Placement.ofLeaf spec ⟨r.scope, s.leaf⟩ left .trainer).node s.calls).work
        (s.actors s.leaf) r.start.environment (inputs ++ [label])).1 = .error halt := by
      rw [hwork, htrained]
      rfl
    obtain ⟨after, hrun, hinstances, henvironment⟩ := hready.result_visit_error hr hm hhalt
    rw [hwork] at hinstances
    exact ⟨after, hrun, hm.trained hr hleaf _ inputs label hinstances henvironment⟩
  | ok u =>
    have hgiven : (((Placement.ofLeaf spec ⟨r.scope, s.leaf⟩ left .trainer).node s.calls).work
        (s.actors s.leaf) r.start.environment (inputs ++ [label])).1 = .ok [] := by
      rw [hwork, htrained]
      rfl
    have hrun := hready.result_visit_ok hr hm hgiven
    rw [hwork] at hrun
    refine ⟨_, _, hrun, rfl, rfl, hm.trained hr hleaf _ inputs label rfl rfl, fun k hk ↦ ?_,
      trivial⟩
    exact p.record_of_ne (Nat.ne_of_lt hk) []

end Visit

/-! ### Expressions -/

/-- Outputs of a node are at its output ports. -/
theorem carries_of_outputs {q : Produced} {id : NodeId} {given : List Payload} {outputs : Nat}
    (h : q id = some given) (hlength : given.length = outputs) :
    q.Carries ((List.range outputs).map fun port ↦ ⟨id, port⟩) given := by
  subst hlength
  unfold Produced.Carries
  rw [List.map_map]
  refine List.ext_getElem? fun port ↦ ?_
  rw [List.getElem?_map, List.getElem?_map]
  by_cases hport : port < given.length
  · rw [List.getElem?_range hport, List.getElem?_eq_getElem hport]
    simp [Produced.at?, h, hport]
  · rw [List.getElem?_eq_none (by simpa using hport), List.getElem?_eq_none (by simpa using hport)]
    rfl

/-- Evaluation has arrived at leaves that are laid out next: their placements come next, their track
carries the inputs and the label, and the world mirrors the stage. -/
structure Arrived (r : Setting ε σ) (shape : Shape) (laid : List (Placement ε σ))
    (leaves : List (Leaf ε σ)) (left : Track) (inputs : List Payload) (label : Option Payload)
    (p : Produced) (s : Stage ε σ) (w : World ε σ) : Prop where
  placed : ∀ (k : Nat) (q : Placement ε σ), laid[k]? = some q → r.placements[s.calls + k]? = some q
  room : s.leaf + leaves.length ≤ r.leaves
  admissible : ∀ leaf ∈ leaves, leaf.Admissible shape left.label.isSome
  below : left.Below s.calls
  carried : p.Carries left.ports inputs
  labelled : p.Carries left.label.toList label.toList
  mirrors : r.Mirrors s w

section Leaf

variable {shape : Shape} {leaves : List (Leaf ε σ)} {spec : Spec ε σ} {left : Track}
  {inputs : List Payload} {label : Option Payload}

/-- Where a label is needed there is one. -/
theorem label_eq_some {p : Produced} {left : Track} {label : Option Payload}
    (h : p.Carries left.label.toList label.toList) (hsome : left.label.isSome = true) :
    ∃ payload, label = some payload := by
  obtain ⟨port, hport⟩ := Option.isSome_iff_exists.mp hsome
  rw [hport] at h
  cases label with
  | none => simp [Produced.Carries] at h
  | some payload => exact ⟨payload, rfl⟩

/-- Applying the actor of a leaf and passing on is simulated by the applier of the leaf. -/
theorem simulates_use (hr : r.Sound) (hm : r.Mirrors s w) (hleaf : s.leaf < r.leaves)
    (hplaced : r.placements[s.calls]? = some (.ofLeaf spec ⟨r.scope, s.leaf⟩ left .applier))
    (hcarried : p.Carries left.ports inputs) :
    r.Simulates 1 1
      (fun q outputs ↦ q.Carries (left.rebased s.calls spec.arity.outputs).ports outputs)
      (do
        let outputs ← Direct.applyLeaf r.start.environment spec inputs
        Direct.nextLeaf
        return outputs) p s w := by
  change r.Simulates (1 + 0) (0 + 1) _ _ p s w
  refine (simulates_applyLeaf hr hm hleaf hplaced hcarried).bind ?_
  intro outputs q after stage hcalls hfits hmirrors hkept hgiven
  exact Simulates.pass hmirrors (carries_of_outputs hgiven.1 hgiven.2)

/-- What a track carries it still carries when only nodes behind it have run. -/
theorem carries_kept {q : Produced} {ports : List PortRef} {payloads : List Payload}
    (h : p.Carries ports payloads) (hbelow : ∀ port ∈ ports, port.node < s.calls)
    (hkept : ∀ k < s.calls, q k = p k) : q.Carries ports payloads :=
  h.congr fun port hport ↦ hkept port.node (hbelow port hport)

theorem simulated_mapper (hr : r.Sound)
    (h : r.Arrived shape ((Leaf.mapper spec).placements shape ⟨r.scope, s.leaf⟩ left)
      [.mapper spec] left inputs label p s w) :
    r.Simulates ((Leaf.mapper spec).placements shape ⟨r.scope, s.leaf⟩ left).length 1
      (fun q outputs ↦ q.Carries ((Leaf.mapper spec).outlet shape s.calls left).ports outputs)
      ((Expression.mapper spec).evaluate shape r.start.environment inputs label) p s w := by
  have hleaf : s.leaf < r.leaves := h.room
  have hplaced := h.placed
  rw [Expression.evaluate]
  unfold Leaf.placements at hplaced ⊢
  by_cases htrain : shape = .train ∧ spec.stateful
  · have hkinds : (Leaf.mapper spec).kinds shape = [.trainer, .applier] := if_pos htrain
    have houtlet : (Leaf.mapper spec).outlet shape s.calls left =
        left.rebased (s.calls + 1) spec.arity.outputs := by
      rw [Leaf.outlet, hkinds]
      rfl
    have hsome := h.admissible (.mapper spec) List.mem_cons_self htrain.1 htrain.2
    obtain ⟨payload, rfl⟩ := label_eq_some h.labelled hsome
    rw [hkinds] at hplaced ⊢
    rw [houtlet, if_pos htrain]
    change r.Simulates (1 + 1) (0 + 1) _ _ p s w
    refine (simulates_trainLeaf hr h.mirrors hleaf (hplaced 0 _ rfl) h.carried h.labelled).bind ?_
    intro u q after stage hcalls hfits hmirrors hkept _
    have hnext := hplaced 1 _ rfl
    rw [Nat.add_zero] at hfits
    rw [← hcalls, ← hfits] at hnext
    rw [← hcalls]
    exact simulates_use hr hmirrors (hfits ▸ hleaf) hnext
      (carries_kept h.carried h.below.ports hkept)
  · have hkinds : (Leaf.mapper spec).kinds shape = [.applier] := if_neg htrain
    have houtlet : (Leaf.mapper spec).outlet shape s.calls left =
        left.rebased s.calls spec.arity.outputs := by
      rw [Leaf.outlet, hkinds]
      rfl
    rw [hkinds] at hplaced ⊢
    rw [houtlet, if_neg htrain]
    exact simulates_use hr h.mirrors hleaf (hplaced 0 _ rfl) h.carried

theorem simulated_consumer (hr : r.Sound)
    (h : r.Arrived shape ((Leaf.consumer spec).placements shape ⟨r.scope, s.leaf⟩ left)
      [.consumer spec] left inputs label p s w) :
    r.Simulates ((Leaf.consumer spec).placements shape ⟨r.scope, s.leaf⟩ left).length 1
      (fun q outputs ↦ q.Carries ((Leaf.consumer spec).outlet shape s.calls left).ports outputs)
      ((Expression.consumer spec).evaluate shape r.start.environment inputs label) p s w := by
  have hleaf : s.leaf < r.leaves := h.room
  have hplaced := h.placed
  cases shape with
  | train =>
    rw [Expression.evaluate]
    have hsome := (h.admissible (.consumer spec) List.mem_cons_self).2 rfl
    obtain ⟨payload, rfl⟩ := label_eq_some h.labelled hsome
    change r.Simulates (1 + 0) (0 + 1) _ _ p s w
    simp only [pure_bind]
    refine (simulates_trainLeaf hr h.mirrors hleaf (hplaced 0 _ rfl) h.carried h.labelled).bind ?_
    intro u q after stage hcalls hfits hmirrors hkept _
    exact Simulates.pass hmirrors (carries_kept h.carried h.below.ports hkept)
  | apply =>
    rw [Expression.evaluate]
    exact simulates_use hr h.mirrors hleaf (hplaced 0 _ rfl) h.carried

/-- Evaluation that has arrived at two parts has arrived at the first. -/
theorem Arrived.front {front back : List (Placement ε σ)} {first second : List (Leaf ε σ)}
    (h : r.Arrived shape (front ++ back) (first ++ second) left inputs label p s w) :
    r.Arrived shape front first left inputs label p s w where
  placed k q hq := h.placed k q (by
    rw [List.getElem?_append_left (List.getElem?_eq_some_iff.mp hq).1]
    exact hq)
  room := by
    have hroom := h.room
    rw [List.length_append] at hroom
    omega
  admissible leaf hleaf := h.admissible leaf (List.mem_append_left _ hleaf)
  below := h.below
  carried := h.carried
  labelled := h.labelled
  mirrors := h.mirrors

/-- Past the first of two parts, evaluation has arrived at the second. -/
theorem Arrived.back {front back : List (Placement ε σ)} {first second : List (Leaf ε σ)}
    (h : r.Arrived shape (front ++ back) (first ++ second) left inputs label p s w)
    {track : Track} {outputs : List Payload} {q : Produced} {stage : Stage ε σ} {after : World ε σ}
    (hcalls : stage.calls = s.calls + front.length) (hfits : stage.leaf = s.leaf + first.length)
    (hmirrors : r.Mirrors stage after) (hkept : ∀ k < s.calls, q k = p k)
    (hlabel : track.label = left.label) (hports : ∀ port ∈ track.ports, port.node < stage.calls)
    (hcarried : q.Carries track.ports outputs) :
    r.Arrived shape back second track outputs label q stage after where
  placed k placement hplacement := by
    rw [hcalls, Nat.add_assoc]
    refine h.placed (front.length + k) placement ?_
    rw [List.getElem?_append_right (Nat.le_add_right _ _), Nat.add_sub_cancel_left]
    exact hplacement
  room := by
    have hroom := h.room
    rw [List.length_append] at hroom
    omega
  admissible leaf hleaf := by
    rw [hlabel]
    exact h.admissible leaf (List.mem_append_right _ hleaf)
  below := by
    refine ⟨hports, fun port hport ↦ ?_⟩
    rw [hlabel] at hport
    rw [hcalls]
    exact Nat.lt_of_lt_of_le (h.below.label port hport) (Nat.le_add_right _ _)
  carried := hcarried
  labelled := by
    rw [hlabel]
    exact carries_kept h.labelled
      (fun port hport ↦ h.below.label port (Option.mem_toList.mp hport)) hkept
  mirrors := hmirrors

end Leaf

end Setting

namespace Expression

open Setting

/-- Wherever evaluation has arrived at the expression, running its layout follows it. -/
def Simulated (r : Setting ε σ) (shape : Shape) (expression : Expression ε σ) : Prop :=
  ∀ (left : Track) (inputs : List Payload) (label : Option Payload) (p : Produced) (s : Stage ε σ)
    (w : World ε σ),
    let laid := expression.layout shape r.scope s.calls s.leaf left
    r.Arrived shape laid.1 expression.leaves left inputs label p s w →
      r.Simulates laid.1.length expression.leaves.length
        (fun q outputs ↦ q.Carries laid.2.ports outputs)
        (expression.evaluate shape r.start.environment inputs label) p s w

theorem simulated_branches {r : Setting ε σ} {shape : Shape} {branches : List (Expression ε σ)}
    (hbranches : ∀ branch ∈ branches, branch.Simulated r shape) (left : Track)
    (inputs : List Payload) (label : Option Payload) (p : Produced) (s : Stage ε σ) (w : World ε σ)
    (h : r.Arrived shape (branchLayout shape r.scope branches s.calls s.leaf left).1
      (branchLeaves branches) left inputs label p s w) :
    r.Simulates (branchLayout shape r.scope branches s.calls s.leaf left).1.length
      (branchLeaves branches).length
      (fun q outputs ↦
        q.Carries (branchLayout shape r.scope branches s.calls s.leaf left).2 outputs)
      (evaluateBranches shape r.start.environment branches inputs label) p s w := by
  induction branches generalizing p s w with
  | nil =>
    rw [evaluateBranches]
    exact Simulates.pure h.mirrors rfl
  | cons branch rest ih =>
    rw [branchLayout, branchLeaves] at h
    rw [branchLayout, branchLeaves, List.length_append, List.length_append, evaluateBranches]
    have hfront := h.front
    refine (hbranches branch List.mem_cons_self left inputs label p s w hfront).bind ?_
    intro outputs q after stage hcalls hfits hmirrors hkept hgiven
    have hground := (branch.grounded_layout shape r.scope s.calls s.leaf h.below).2
    have hports : ∀ port ∈ left.ports, port.node < stage.calls := fun port hport ↦ by
      rw [hcalls]
      exact Nat.lt_of_lt_of_le (h.below.ports port hport) (Nat.le_add_right _ _)
    have hback := h.back hcalls hfits hmirrors hkept rfl hports
      (carries_kept h.carried h.below.ports hkept)
    rw [← hcalls, ← hfits] at hback ⊢
    have hrest := ih (fun other hother ↦ hbranches other (List.mem_cons_of_mem _ hother)) q stage
      after hback
    change r.Simulates (_ + 0) (_ + 0) _ _ q stage after
    refine hrest.bind ?_
    intro others q' after' stage' _ _ hmirrors' hkept' hothers
    refine Simulates.pure hmirrors' (Produced.Carries.append ?_ hothers)
    rw [← hcalls] at hground
    exact carries_kept hgiven hground.ports hkept'

/-- Running the layout of an expression follows its direct evaluation. -/
theorem simulated {r : Setting ε σ} (hr : r.Sound) (shape : Shape) (expression : Expression ε σ) :
    expression.Simulated r shape := by
  induction expression using Expression.induction with
  | mapper spec => exact fun left inputs label p s w h ↦ simulated_mapper hr h
  | consumer spec => exact fun left inputs label p s w h ↦ simulated_consumer hr h
  | sequence first second ihfirst ihsecond =>
    intro left inputs label p s w laid h
    rw [leaves] at h
    rw [leaves, evaluate, List.length_append]
    have hlength : laid.1.length =
        (first.layout shape r.scope s.calls s.leaf left).1.length +
          (second.layout shape r.scope
            (s.calls + (first.layout shape r.scope s.calls s.leaf left).1.length)
            (s.leaf + first.leaves.length)
            (first.layout shape r.scope s.calls s.leaf left).2).1.length :=
      List.length_append
    rw [hlength]
    have hfront : r.Arrived shape (first.layout shape r.scope s.calls s.leaf left).1
        first.leaves left inputs label p s w := Arrived.front h
    refine (ihfirst left inputs label p s w hfront).bind ?_
    intro outputs q after stage hcalls hfits hmirrors hkept hgiven
    have hground := (first.grounded_layout shape r.scope s.calls s.leaf h.below).2
    rw [← hcalls] at hground
    have hback := Arrived.back h hcalls hfits hmirrors hkept
      (first.label_layout shape r.scope s.calls s.leaf left) hground.ports hgiven
    rw [← hcalls, ← hfits] at hback ⊢
    have hsecond := ihsecond _ outputs label q stage after hback
    refine hsecond.mono fun q' given hcarries ↦ ?_
    rw [hcalls, hfits] at hcarries
    exact hcarries
  | parallel branches ih =>
    intro left inputs label p s w laid h
    rw [evaluate]
    exact simulated_branches ih left inputs label p s w h

end Expression

end Dataflow
