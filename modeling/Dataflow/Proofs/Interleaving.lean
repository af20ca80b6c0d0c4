import Dataflow.Proofs.Binding
import Dataflow.Proofs.Dependencies

/-!
# Nodes may run in any order that respects their dependencies

`Runs` says what a successful run of one node does at a moment: it takes the inputs that are there,
lets the bound instance do the work, records the outputs and changes the fit state of the instance.
Two nodes of which neither precedes the other commute (`Runs.swap`): neither reads what the other
gives, and if they share an instance they belong to one group, so neither of them trains it, because
a trainer is joined to all other nodes of its group (`Graph.TrainersJoined`).

Hence all orders that respect dependencies come to the same (`RunsAll.perm`). In particular,
whatever nodes have run so far, each after its dependencies, a sequential run that succeeds can be
rearranged so that it runs these nodes first (`Graph.Begun.split`).
-/

set_option autoImplicit false
set_option relaxedAutoImplicit false

namespace Dataflow

variable {ε σ : Type}

/-! ### Changes that commute -/

theorem Produced.record_comm (p : Produced) {first second : NodeId} (h : first ≠ second)
    (outputs others : List Payload) :
    (p.record first outputs).record second others =
      (p.record second others).record first outputs := by
  funext id
  unfold Produced.record
  by_cases hfirst : id = first
  · rw [if_pos hfirst, if_pos hfirst, if_neg]
    rw [hfirst]
    exact h
  · rw [if_neg hfirst, if_neg hfirst]

theorem World.setFit_comm (w : World ε σ) {first second : InstanceId} (h : first ≠ second)
    (fit other : σ) :
    (w.setFit first fit).setFit second other = (w.setFit second other).setFit first fit := by
  have hinstances : ((w.setFit first fit).setFit second other).instances =
      ((w.setFit second other).setFit first fit).instances := by
    refine Array.ext_getElem? fun id ↦ ?_
    simp only [instances_setFit]
    by_cases hfirst : first = id
    · have hsecond : second ≠ id := fun hsame ↦ h (hfirst.trans hsame.symm)
      rw [if_neg hsecond, if_neg hsecond]
    · rw [if_neg hfirst, if_neg hfirst]
  exact congrArg (fun instances ↦ World.mk instances w.environment w.journal) hinstances

/-! ### Running one node -/

/-- What the nodes run so far have given, and the world they have left. -/
structure Moment (ε σ : Type) where
  produced : Produced
  world : World ε σ

/-- At a moment a node can run: its inputs are there, and so is the instance bound to it. -/
structure Called (g : Graph ε σ) (binding : Binding) (s : Moment ε σ) (id : NodeId)
    (node : Node ε σ) (actor : InstanceId) (bound : Instance ε σ) (inputs : List Payload) :
    Prop where
  node_eq : g.nodes[id]? = some node
  carries : s.produced.Carries (g.inputs id) inputs
  actor_eq : binding[id]? = some actor
  bound_eq : s.world.instances[actor]? = some bound

/-- A node runs: its instance does its work, and the outputs are recorded. -/
inductive Runs (g : Graph ε σ) (binding : Binding) (id : NodeId) : Moment ε σ → Moment ε σ → Prop
  | intro {s : Moment ε σ} {node : Node ε σ} {actor : InstanceId} {bound : Instance ε σ}
      {inputs outputs : List Payload} (h : Called g binding s id node actor bound inputs)
      (hwork : (node.work bound s.world.environment inputs).1 = .ok outputs) :
      Runs g binding id s ⟨s.produced.record id outputs,
        s.world.setFit actor (node.work bound s.world.environment inputs).2.fit⟩

/-- Nodes run one after another. -/
inductive RunsAll (g : Graph ε σ) (binding : Binding) :
    List NodeId → Moment ε σ → Moment ε σ → Prop
  | nil (s : Moment ε σ) : RunsAll g binding [] s s
  | cons {id : NodeId} {rest : List NodeId} {s t u : Moment ε σ} (h : Runs g binding id s t)
      (hrest : RunsAll g binding rest t u) : RunsAll g binding (id :: rest) s u

variable {g : Graph ε σ} {binding : Binding} {s t u : Moment ε σ} {id : NodeId} {node : Node ε σ}
  {actor : InstanceId} {bound : Instance ε σ} {inputs : List Payload}

theorem Produced.Carries.unique {p : Produced} {ports : List PortRef}
    {payloads others : List Payload}
    (h : p.Carries ports payloads) (h' : p.Carries ports others) : payloads = others :=
  List.map_injective_iff.mpr ((fun _ _ ↦ Option.some.inj)) (h.symm.trans h')

/-- What a node is called with is determined by the moment. -/
theorem Called.unique (h : Called g binding s id node actor bound inputs) {node' : Node ε σ}
    {actor' : InstanceId} {bound' : Instance ε σ} {inputs' : List Payload}
    (h' : Called g binding s id node' actor' bound' inputs') :
    node = node' ∧ actor = actor' ∧ bound = bound' ∧ inputs = inputs' := by
  obtain rfl : node = node' := Option.some.inj (h.node_eq.symm.trans h'.node_eq)
  obtain rfl : actor = actor' := Option.some.inj (h.actor_eq.symm.trans h'.actor_eq)
  obtain rfl : bound = bound' := Option.some.inj (h.bound_eq.symm.trans h'.bound_eq)
  exact ⟨rfl, rfl, rfl, h.carries.unique h'.carries⟩

theorem Runs.work_eq_ok (h : Runs g binding id s t)
    (hcalled : Called g binding s id node actor bound inputs) :
    ∃ outputs, (node.work bound s.world.environment inputs).1 = .ok outputs ∧
      t = ⟨s.produced.record id outputs,
        s.world.setFit actor (node.work bound s.world.environment inputs).2.fit⟩ := by
  cases h with
  | intro hcalled' hwork =>
    obtain ⟨rfl, rfl, rfl, rfl⟩ := hcalled.unique hcalled'
    exact ⟨_, hwork, rfl⟩

theorem Runs.unique (h : Runs g binding id s t) (h' : Runs g binding id s u) : t = u := by
  cases h with
  | intro hcalled hwork =>
    obtain ⟨outputs, hwork', rfl⟩ := h'.work_eq_ok hcalled
    rw [hwork] at hwork'
    rw [Except.ok.inj hwork']

theorem Runs.environment (h : Runs g binding id s t) :
    t.world.environment = s.world.environment := by
  cases h with
  | intro hcalled hwork => rfl

theorem Runs.produced_of_ne (h : Runs g binding id s t) {other : NodeId} (hne : other ≠ id) :
    t.produced other = s.produced other := by
  cases h with
  | intro hcalled hwork => exact s.produced.record_of_ne hne _

namespace RunsAll

theorem append_iff {front back : List NodeId} :
    RunsAll g binding (front ++ back) s u ↔
      ∃ t, RunsAll g binding front s t ∧ RunsAll g binding back t u := by
  induction front generalizing s with
  | nil =>
    constructor
    · intro h
      exact ⟨s, .nil s, h⟩
    · rintro ⟨t, hnil, h⟩
      cases hnil with
      | nil => exact h
  | cons id rest ih =>
    constructor
    · intro h
      cases h with
      | cons hid hrest =>
        obtain ⟨t, hfront, hback⟩ := ih.mp hrest
        exact ⟨t, .cons hid hfront, hback⟩
    · rintro ⟨t, hfront, hback⟩
      cases hfront with
      | cons hid hrest => exact .cons hid (ih.mpr ⟨t, hrest, hback⟩)

theorem snoc {front : List NodeId} (h : RunsAll g binding front s t) (hid : Runs g binding id t u) :
    RunsAll g binding (front ++ [id]) s u :=
  append_iff.mpr ⟨t, h, .cons hid (.nil u)⟩

theorem unique {front : List NodeId} (h : RunsAll g binding front s t)
    (h' : RunsAll g binding front s u) : t = u := by
  induction h with
  | nil s =>
    cases h' with
    | nil => rfl
  | cons hid hrest ih =>
    cases h' with
    | cons hid' hrest' =>
      obtain rfl := hid.unique hid'
      exact ih hrest'

theorem environment {front : List NodeId} (h : RunsAll g binding front s t) :
    t.world.environment = s.world.environment := by
  induction h with
  | nil s => rfl
  | cons hid hrest ih => exact ih.trans hid.environment

end RunsAll

/-! ### Nodes that do not affect each other -/

/-- Neither of two nodes reads what the other gives, and if they share an instance, neither trains
it. -/
structure Independent (g : Graph ε σ) (binding : Binding) (first second : NodeId) : Prop where
  ne : first ≠ second
  unread : first ∉ g.dependencies second
  unread' : second ∉ g.dependencies first
  untrained : ∀ (node node' : Node ε σ) (actor : InstanceId), g.nodes[first]? = some node →
    g.nodes[second]? = some node' → binding[first]? = some actor → binding[second]? = some actor →
      node.kind ≠ .trainer ∧ node'.kind ≠ .trainer

/-- A call does not depend on a node that it does not read and that leaves its instance alone. -/
theorem Called.congr (h : Called g binding s id node actor bound inputs) {other : NodeId}
    (hne : other ∉ g.dependencies id) {w : World ε σ} (outputs : List Payload)
    (hbound : w.instances[actor]? = some bound) :
    Called g binding ⟨s.produced.record other outputs, w⟩ id node actor bound inputs where
  node_eq := h.node_eq
  carries := by
    refine h.carries.congr fun port hport ↦ Produced.record_of_ne _ ?_ _
    rintro rfl
    exact hne (Graph.mem_dependencies_of_mem_inputs hport)
  actor_eq := h.actor_eq
  bound_eq := hbound

/-- Conversely, a call after such a node could have been made before it. -/
theorem Called.of_record {p : Produced} {w w' : World ε σ} {other : NodeId} {outputs : List Payload}
    (h : Called g binding ⟨p.record other outputs, w'⟩ id node actor bound inputs)
    (hne : other ∉ g.dependencies id) (hbound : w.instances[actor]? = some bound) :
    Called g binding ⟨p, w⟩ id node actor bound inputs where
  node_eq := h.node_eq
  carries := by
    refine h.carries.congr fun port hport ↦ (Produced.record_of_ne _ ?_ _).symm
    rintro rfl
    exact hne (Graph.mem_dependencies_of_mem_inputs hport)
  actor_eq := h.actor_eq
  bound_eq := hbound

/-- Independent nodes commute. -/
theorem Runs.swap {first second : NodeId} (h : Independent g binding first second)
    (hfirst : Runs g binding first s t) (hsecond : Runs g binding second t u) :
    ∃ t', Runs g binding second s t' ∧ Runs g binding first t' u := by
  obtain ⟨p, w⟩ := s
  cases hfirst with
  | @intro node₁ actor₁ bound₁ inputs₁ outputs₁ hcalled₁ hwork₁ =>
    cases hsecond with
    | @intro node₂ actor₂ bound₂ inputs₂ outputs₂ hcalled₂ hwork₂ =>
      have hheld :
          (w.setFit actor₁ (node₁.work bound₁ w.environment inputs₁).2.fit).instances[actor₂]? =
          some bound₂ := hcalled₂.bound_eq
      by_cases hactor : actor₁ = actor₂
      · -- both only apply the instance, so no fit state changes
        subst hactor
        obtain ⟨hidle₁, hidle₂⟩ := h.untrained node₁ node₂ actor₁ hcalled₁.node_eq hcalled₂.node_eq
          hcalled₁.actor_eq hcalled₂.actor_eq
        have hbound₁ : w.instances[actor₁]? = some bound₁ := hcalled₁.bound_eq
        have hkept : w.setFit actor₁ (node₁.work bound₁ w.environment inputs₁).2.fit = w := by
          rw [Node.work_of_ne hidle₁, World.setFit_self hbound₁]
        rw [hkept] at hheld
        have hkept' : w.setFit actor₁ (node₂.work bound₂ w.environment inputs₂).2.fit = w := by
          rw [Node.work_of_ne hidle₂, World.setFit_self hheld]
        have hearly := Runs.intro (hcalled₂.of_record h.unread hheld) hwork₂
        have hlate := Runs.intro (hcalled₁.congr h.unread' outputs₂ hbound₁) hwork₁
        refine ⟨⟨p.record second outputs₂, w⟩, ?_, ?_⟩
        · dsimp only at hearly
          rw [hkept'] at hearly
          exact hearly
        · dsimp only at hlate ⊢
          rw [hkept, Produced.record_comm p h.ne.symm] at hlate
          rw [hkept, hkept']
          exact hlate
      · have hbound₂ : w.instances[actor₂]? = some bound₂ := by
          rwa [World.instances_setFit_of_ne w hactor] at hheld
        have hbound₁ : (w.setFit actor₂ (node₂.work bound₂ w.environment inputs₂).2.fit).instances[
            actor₁]? = some bound₁ := by
          rw [World.instances_setFit_of_ne w (Ne.symm hactor)]
          exact hcalled₁.bound_eq
        have hearly := Runs.intro (hcalled₂.of_record h.unread hbound₂) hwork₂
        have hlate := Runs.intro (hcalled₁.congr h.unread' outputs₂ hbound₁) hwork₁
        refine ⟨_, hearly, ?_⟩
        dsimp only at hlate ⊢
        rw [Produced.record_comm p h.ne.symm, World.setFit_comm w (Ne.symm hactor)] at hlate
        exact hlate

/-! ### Orders that respect dependencies -/

/-- A node that is independent of all nodes before it may run first. -/
theorem RunsAll.front {front back : List NodeId}
    (h : ∀ other ∈ front, Independent g binding other id)
    (hrun : RunsAll g binding (front ++ id :: back) s u) :
    RunsAll g binding (id :: (front ++ back)) s u := by
  induction front generalizing s with
  | nil => exact hrun
  | cons other front ih =>
    cases hrun with
    | cons hother hrest =>
      cases ih (fun k hk ↦ h k (List.mem_cons_of_mem _ hk)) hrest with
      | cons hid hback =>
        obtain ⟨t', hearly, hlate⟩ := hother.swap (h other List.mem_cons_self) hid
        exact .cons hearly (.cons hlate hback)

/-- All orders in which no node stands before one that precedes it come to the same. -/
theorem RunsAll.perm
    (hfree : ∀ first second, first ≠ second → ¬ g.Precedes first second →
      ¬ g.Precedes second first → Independent g binding first second) {order other : List NodeId}
    (hperm : order.Perm other) (hnodup : order.Nodup)
    (horder : order.Pairwise fun first second ↦ ¬ g.Precedes second first)
    (hother : other.Pairwise fun first second ↦ ¬ g.Precedes second first)
    (hrun : RunsAll g binding order s u) : RunsAll g binding other s u := by
  induction other generalizing order s with
  | nil =>
    rw [hperm.eq_nil] at hrun
    exact hrun
  | cons id rest ih =>
    -- the first node of the other order is independent of all that stand before it in this one
    obtain ⟨front, back, rfl⟩ := List.append_of_mem (hperm.mem_iff.mpr List.mem_cons_self)
    have hrest : (front ++ back).Perm rest :=
      (List.perm_cons id).mp (List.perm_middle.symm.trans hperm)
    obtain ⟨hfront, hback⟩ := List.pairwise_append.mp horder
    have hindependent : ∀ k ∈ front, Independent g binding k id := by
      intro k hk
      have hne : k ≠ id := (List.nodup_append.mp hnodup).2.2 k hk id List.mem_cons_self
      have hmem : k ∈ rest := hrest.mem_iff.mp (List.mem_append_left back hk)
      exact hfree k id hne ((List.pairwise_cons.mp hother).1 k hmem)
        (hback.2 k hk id List.mem_cons_self)
    cases hrun.front hindependent with
    | cons hid hremaining =>
      have hsublist : (front ++ back).Sublist (front ++ id :: back) :=
        (List.sublist_cons_self id back).append_left front
      exact .cons hid (ih hrest (hnodup.sublist hsublist) (horder.sublist hsublist)
        (List.pairwise_cons.mp hother).2 hremaining)

namespace Graph

/-- Every trainer is joined, by a path of dependencies, to every other node of its group. -/
def TrainersJoined (g : Graph ε σ) : Prop :=
  ∀ trainer ∈ g.nodes, ∀ node ∈ g.nodes, trainer.kind = .trainer → trainer.group.isSome = true →
    node.group = trainer.group → node.id ≠ trainer.id →
      g.Precedes trainer.id node.id ∨ g.Precedes node.id trainer.id

/-- Some nodes have run, each once and after its dependencies. -/
structure Begun (g : Graph ε σ) (done : List NodeId) : Prop where
  nodup : done.Nodup
  lt : ∀ id ∈ done, id < g.nodes.length
  closed : ∀ id ∈ done, ∀ other ∈ g.dependencies id, other ∈ done
  pairwise : done.Pairwise fun first second ↦ ¬ g.Precedes second first

variable {done : List NodeId}

theorem begun_nil (g : Graph ε σ) : g.Begun [] where
  nodup := List.nodup_nil
  lt _ h := nomatch h
  closed _ h := nomatch h
  pairwise := List.Pairwise.nil

namespace Begun

/-- What precedes a node that has run has run as well. -/
theorem mem_of_precedes (h : g.Begun done) {first second : NodeId} (hpath : g.Precedes first second)
    (hmem : second ∈ done) : first ∈ done := by
  induction hpath with
  | single hdepends => exact h.closed _ hmem _ hdepends
  | tail _ hdepends ih => exact ih (h.closed _ hmem _ hdepends)

theorem snoc (h : g.Begun done) (hid : id < g.nodes.length) (hfresh : id ∉ done)
    (hready : ∀ other ∈ g.dependencies id, other ∈ done) : g.Begun (done ++ [id]) where
  nodup := by
    refine List.nodup_append.mpr ⟨h.nodup, List.pairwise_singleton _ id, fun other hother k hk ↦ ?_⟩
    rw [List.mem_singleton.mp hk]
    rintro rfl
    exact hfresh hother
  lt other hother := by
    rcases List.mem_append.mp hother with hother | hother
    · exact h.lt other hother
    · rwa [List.mem_singleton.mp hother]
  closed k hk other hother := by
    rcases List.mem_append.mp hk with hk | hk
    · exact List.mem_append_left _ (h.closed k hk other hother)
    · rw [List.mem_singleton.mp hk] at hother
      exact List.mem_append_left _ (hready other hother)
  pairwise := by
    refine List.pairwise_append.mpr ⟨h.pairwise, List.pairwise_singleton _ id,
      fun other hother k hk hpath ↦ ?_⟩
    rw [List.mem_singleton.mp hk] at hpath
    exact hfresh (h.mem_of_precedes hpath hother)

/-- The nodes that have run, and then the others in the order of the graph. -/
theorem perm_order (h : g.Begun done) (hg : g.Sound) :
    g.order.Perm (done ++ g.order.filter (· ∉ done)) := by
  refine (List.perm_ext_iff_of_nodup hg.nodup_order ?_).mpr fun id ↦ ?_
  · refine List.nodup_append.mpr ⟨h.nodup, hg.nodup_order.filter _, fun k hk other hother ↦ ?_⟩
    rintro rfl
    exact of_decide_eq_true (List.mem_filter.mp hother).2 hk
  · rw [List.mem_append, List.mem_filter, decide_eq_true_eq, hg.mem_order]
    constructor
    · intro hid
      by_cases hdone : id ∈ done
      · exact .inl hdone
      · exact .inr ⟨hid, hdone⟩
    · rintro (hid | ⟨hid, -⟩)
      · exact h.lt id hid
      · exact hid

theorem pairwise_order (h : g.Begun done) (hg : g.Sound) :
    (done ++ g.order.filter (· ∉ done)).Pairwise fun first second ↦ ¬ g.Precedes second first := by
  refine List.pairwise_append.mpr ⟨h.pairwise, hg.pairwise_order.filter _,
    fun first hfirst second hsecond hpath ↦ ?_⟩
  exact of_decide_eq_true (List.mem_filter.mp hsecond).2 (h.mem_of_precedes hpath hfirst)

/-- A run in the order of the graph can be rearranged so that the nodes that have run come first. -/
theorem split (h : g.Begun done) (hg : g.Sound)
    (hfree : ∀ first second, first ≠ second → ¬ g.Precedes first second →
      ¬ g.Precedes second first → Independent g binding first second)
    (hrun : RunsAll g binding g.order s u) :
    ∃ t, RunsAll g binding done s t ∧ RunsAll g binding (g.order.filter (· ∉ done)) t u :=
  RunsAll.append_iff.mp
    (hrun.perm hfree (h.perm_order hg) hg.nodup_order hg.pairwise_order (h.pairwise_order hg))

/-- When all nodes have run, nothing is left. -/
theorem eq_of_all (h : g.Begun done) (hg : g.Sound)
    (hfree : ∀ first second, first ≠ second → ¬ g.Precedes first second →
      ¬ g.Precedes second first → Independent g binding first second)
    (hall : ∀ id < g.nodes.length, id ∈ done) (hdone : RunsAll g binding done s t) :
    RunsAll g binding g.order s t := by
  have hperm := h.perm_order hg
  have hpairwise := h.pairwise_order hg
  have hnone : g.order.filter (· ∉ done) = [] := by
    refine List.filter_eq_nil_iff.mpr fun id hid hgone ↦ ?_
    exact of_decide_eq_true hgone (hall id (hg.mem_order.mp hid))
  rw [hnone, List.append_nil] at hperm hpairwise
  exact hdone.perm hfree hperm.symm h.nodup hpairwise hg.pairwise_order

end Begun

end Graph

/-! ### Bindings -/

/-- Every node is bound to an instance, which keeps to itself, and nodes share an instance only if
they belong to one group. -/
structure Binding.Fits (binding : Binding) (g : Graph ε σ) (w : World ε σ) : Prop where
  bound : ∀ id < g.nodes.length, ∃ actor bound, binding[id]? = some actor ∧
    w.instances[actor]? = some bound ∧ bound.behavior.Isolated
  apart : ∀ (j k : Nat) (first second : Node ε σ) (actor : InstanceId), j ≠ k →
    g.nodes[j]? = some first → g.nodes[k]? = some second → binding[j]? = some actor →
      binding[k]? = some actor → first.group = second.group ∧ first.group.isSome = true

namespace Binding.Fits

variable {w : World ε σ}

theorem setFit (h : binding.Fits g w) (actor : InstanceId) (fit : σ) :
    binding.Fits g (w.setFit actor fit) where
  bound id hid := by
    obtain ⟨other, bound, hother, hbound, hisolated⟩ := h.bound id hid
    by_cases hsame : actor = other
    · subst hsame
      exact ⟨actor, _, hother, World.instances_setFit_self hbound fit, hisolated⟩
    · refine ⟨other, bound, hother, ?_, hisolated⟩
      rwa [World.instances_setFit_of_ne w hsame]
  apart := h.apart

theorem told (h : binding.Fits g w) (message : Message) : binding.Fits g (w.told message) :=
  ⟨h.bound, h.apart⟩

/-- Binding the nodes of a graph on a roster fits the graph, if the instances they get keep to
themselves. -/
theorem of_isolated {roster bound : Roster ε σ} {world start : World ε σ}
    (h : Roster.Bound g.nodes roster world binding bound start)
    (hisolated : ∀ id ∈ binding, ∀ actor, start.instances[id]? = some actor →
      actor.behavior.Isolated) : binding.Fits g start where
  bound id hid := by
    have hnode : g.nodes[id]? = some g.nodes[id] := List.getElem?_eq_getElem hid
    cases hgroup : g.nodes[id].group with
    | none =>
      obtain ⟨actor, hactor, -, hinstance, -⟩ := h.plain id _ hnode hgroup
      exact ⟨actor, _, hactor, hinstance, hisolated actor (List.mem_of_getElem? hactor) _ hinstance⟩
    | some group =>
      obtain ⟨member, hmember, hactor⟩ := h.grouped id _ group hnode hgroup
      have hlt := h.sound.lt group member hmember
      have hinstance := Array.getElem?_eq_getElem hlt
      exact ⟨member.actor, _, hactor, hinstance,
        hisolated _ (List.mem_of_getElem? hactor) _ hinstance⟩
  apart j k first second actor hne hfirst hsecond hj hk := by
    rcases Nat.lt_or_gt_of_ne hne with hjk | hkj
    · exact h.apart j k first second actor hjk hfirst hsecond hj hk
    · obtain ⟨hgroup, hsome⟩ := h.apart k j second first actor hkj hsecond hfirst hk hj
      rw [hgroup] at hsome
      exact ⟨hgroup.symm, hsome⟩

/-- Binding the nodes of a graph on a roster fits the graph, if all actors keep to themselves. -/
theorem of_bound {roster bound : Roster ε σ} {world start : World ε σ}
    (h : Roster.Bound g.nodes roster world binding bound start)
    (hworld : ∀ (id : InstanceId) (actor : Instance ε σ), world.instances[id]? = some actor →
      actor.behavior.Isolated)
    (hnodes : ∀ node ∈ g.nodes, node.spec.behavior.Isolated) : binding.Fits g start := by
  refine of_isolated h fun id _ actor hactor ↦ ?_
  rcases h.made id actor hactor with hold | ⟨node, hnode, rfl⟩
  · exact hworld id actor hold
  · exact hnodes node hnode

/-- Nodes of which neither precedes the other are independent: if they share an instance they belong
to one group, and a trainer in it would be joined to the other. -/
theorem independent (h : binding.Fits g w) (hg : g.Sound) (hjoined : g.TrainersJoined)
    (first second : NodeId) (hne : first ≠ second) (hpath : ¬ g.Precedes first second)
    (hpath' : ¬ g.Precedes second first) : Independent g binding first second where
  ne := hne
  unread hmem := hpath (.single hmem)
  unread' hmem := hpath' (.single hmem)
  untrained node node' actor hnode hnode' hactor hactor' := by
    obtain ⟨hgroup, hsome⟩ := h.apart first second node node' actor hne hnode hnode' hactor hactor'
    obtain rfl : node.id = first := hg.wired.id_eq first node hnode
    obtain rfl : node'.id = second := hg.wired.id_eq second node' hnode'
    have hmem := List.mem_of_getElem? hnode
    have hmem' := List.mem_of_getElem? hnode'
    constructor
    · intro htrainer
      rcases hjoined node hmem node' hmem' htrainer hsome hgroup.symm hne.symm with hjoin | hjoin
      · exact hpath hjoin
      · exact hpath' hjoin
    · intro htrainer
      rw [hgroup] at hsome
      rcases hjoined node' hmem' node hmem htrainer hsome hgroup hne with hjoin | hjoin
      · exact hpath' hjoin
      · exact hpath hjoin

end Binding.Fits

theorem Runs.fits (h : Runs g binding id s t) (hfits : binding.Fits g s.world) :
    binding.Fits g t.world := by
  cases h with
  | intro hcalled hwork => exact hfits.setFit _ _

theorem RunsAll.fits {front : List NodeId} (h : RunsAll g binding front s t)
    (hfits : binding.Fits g s.world) : binding.Fits g t.world := by
  induction h with
  | nil s => exact hfits
  | cons hid hrest ih => exact ih (hid.fits hfits)

/-! ### What nodes have given -/

/-- A node has given one payload for each of its output ports. -/
def Delivered (g : Graph ε σ) (p : Produced) (id : NodeId) : Prop :=
  ∃ node outputs, g.nodes[id]? = some node ∧ p id = some outputs ∧
    outputs.length = node.arity.outputs

theorem Delivered.self {p : Produced} {node : Node ε σ} {outputs : List Payload}
    (hnode : g.nodes[id]? = some node) (hlength : outputs.length = node.arity.outputs) :
    Delivered g (p.record id outputs) id :=
  ⟨node, outputs, hnode, Produced.record_self _ _ _, hlength⟩

/-- What has been given stays when another node gives its outputs. -/
theorem Delivered.record {p : Produced} {other : NodeId} (h : Delivered g p other)
    (hne : other ≠ id) (outputs : List Payload) : Delivered g (p.record id outputs) other := by
  obtain ⟨node, given, hnode, hgiven, hlength⟩ := h
  exact ⟨node, given, hnode, (Produced.record_of_ne _ hne _).trans hgiven, hlength⟩

theorem delivered_snoc {p : Produced} {done : List NodeId} {node : Node ε σ}
    {outputs : List Payload} (h : ∀ other ∈ done, Delivered g p other)
    (hnode : g.nodes[id]? = some node) (hlength : outputs.length = node.arity.outputs) :
    ∀ other ∈ done ++ [id], Delivered g (p.record id outputs) other := by
  intro other hother
  by_cases hsame : other = id
  · subst hsame
    exact .self hnode hlength
  · exact (h other (by simpa [hsame] using hother)).record hsame outputs

theorem Node.length_of_work_eq_ok (harity : node.arity = node.kind.arity node.spec.arity)
    {env : Environment ε} {outputs : List Payload}
    (h : (node.work bound env inputs).1 = .ok outputs) : outputs.length = node.arity.outputs := by
  by_cases htrainer : node.kind = .trainer
  · have hnone : node.arity.outputs = 0 := by
      rw [harity, htrainer]
      rfl
    rw [hnone]
    unfold Node.work at h
    rw [htrainer] at h
    dsimp only at h
    split at h
    · cases h
    · rename_i label hlabel
      dsimp only at h
      rcases hresult : (bound.trained env inputs.dropLast label).1 with halt | u
      · rw [hresult] at h
        cases h
      · rw [hresult] at h
        rw [← Except.ok.inj h]
        rfl
  · rw [Node.work_of_ne htrainer] at h
    exact Instance.length_of_applied_eq_ok h

theorem Runs.delivered (h : Runs g binding id s t) (hg : g.Sound) :
    Delivered g t.produced id ∧
      ∀ other, Delivered g s.produced other → Delivered g t.produced other := by
  have hself : Delivered g t.produced id := by
    cases h with
    | @intro node actor bound inputs outputs hcalled hwork =>
      have harity := hg.wired.arity node (List.mem_of_getElem? hcalled.node_eq)
      exact .self hcalled.node_eq (Node.length_of_work_eq_ok harity hwork)
  refine ⟨hself, fun other hother ↦ ?_⟩
  by_cases hsame : other = id
  · rwa [hsame]
  · unfold Delivered
    rw [h.produced_of_ne hsame]
    exact hother

theorem RunsAll.delivered {ids : List NodeId} (h : RunsAll g binding ids s t) (hg : g.Sound) :
    (∀ other ∈ ids, Delivered g t.produced other) ∧
      ∀ other, Delivered g s.produced other → Delivered g t.produced other := by
  induction h with
  | nil s => exact ⟨fun _ hother ↦ (nomatch hother), fun _ hother ↦ hother⟩
  | cons hid hrest ih =>
    obtain ⟨hself, hkept⟩ := hid.delivered hg
    refine ⟨fun other hother ↦ ?_, fun other hother ↦ ih.2 other (hkept other hother)⟩
    rcases List.mem_cons.mp hother with rfl | hother
    · exact ih.2 other hself
    · exact ih.1 other hother

theorem Produced.exists_carries {p : Produced} {ports : List PortRef}
    (h : ∀ port ∈ ports, ∃ payload, p.at? port = some payload) :
    ∃ payloads, p.Carries ports payloads := by
  induction ports with
  | nil => exact ⟨[], rfl⟩
  | cons port rest ih =>
    obtain ⟨payload, hpayload⟩ := h port List.mem_cons_self
    obtain ⟨payloads, hrest⟩ := ih fun other hother ↦ h other (List.mem_cons_of_mem _ hother)
    exact ⟨payload :: payloads, congrArg₂ List.cons hpayload hrest⟩

/-- The port that feeds an input is declared by its node. -/
theorem Graph.Sound.port_lt (hg : g.Sound) {port : PortRef} (h : port ∈ g.inputs id) :
    ∃ node, g.nodes[port.node]? = some node ∧ port.port < node.arity.outputs := by
  unfold Graph.inputs at h
  split at h
  · obtain ⟨input, -, hbound⟩ := List.mem_filterMap.mp h
    obtain ⟨edge, hedge, hfeeds⟩ := List.exists_of_findSome?_eq_some hbound
    cases edge with
    | data tail head i =>
      rw [Edge.feeds?] at hfeeds
      split_ifs at hfeeds with hboth
      obtain rfl := Option.some.inj hfeeds
      exact hg.wired.port tail head i hedge
    | state tail head => cases hfeeds
  · cases h

/-- All inputs of a node are there when the nodes it depends on have given what they declare. -/
theorem exists_carries_inputs (hg : g.Sound) {p : Produced}
    (hdelivered : ∀ other ∈ g.dependencies id, Delivered g p other) :
    ∃ inputs, p.Carries (g.inputs id) inputs := by
  refine Produced.exists_carries fun port hport ↦ ?_
  obtain ⟨node, outputs, hnode, houtputs, hlength⟩ :=
    hdelivered port.node (Graph.mem_dependencies_of_mem_inputs hport)
  obtain ⟨node', hnode', hlt⟩ := hg.port_lt hport
  obtain rfl : node = node' := Option.some.inj (hnode.symm.trans hnode')
  rw [← hlength] at hlt
  refine ⟨outputs[port.port], ?_⟩
  unfold Produced.at?
  rw [houtputs, Option.bind_some, List.getElem?_eq_getElem hlt]

/-- A node can run when all that it depends on has given its outputs. -/
theorem exists_called (hg : g.Sound) (hfits : binding.Fits g s.world) (hid : id < g.nodes.length)
    (hdelivered : ∀ other ∈ g.dependencies id, Delivered g s.produced other) :
    ∃ node actor bound inputs, Called g binding s id node actor bound inputs := by
  obtain ⟨actor, bound, hactor, hbound, -⟩ := hfits.bound id hid
  obtain ⟨inputs, hinputs⟩ := exists_carries_inputs hg hdelivered
  exact ⟨_, actor, bound, inputs, List.getElem?_eq_getElem hid, hinputs, hactor, hbound⟩

/-- A node that can run still can, with the same inputs, when one has run that it does not depend
on. -/
theorem Called.after_runs {ended : NodeId} (h : Called g binding s id node actor bound inputs)
    (hruns : Runs g binding ended s t) (hne : ended ∉ g.dependencies id)
    (hfits : binding.Fits g t.world) : ∃ after, Called g binding t id node actor after inputs := by
  obtain ⟨actor', bound', hactor', hbound', -⟩ :=
    hfits.bound id (List.getElem?_eq_some_iff.mp h.node_eq).1
  obtain rfl : actor' = actor := Option.some.inj (hactor'.symm.trans h.actor_eq)
  refine ⟨bound', h.node_eq, h.carries.congr fun port hport ↦ hruns.produced_of_ne ?_, h.actor_eq,
    hbound'⟩
  rintro hsame
  exact hne (hsame ▸ Graph.mem_dependencies_of_mem_inputs hport)

/-! ### The sequential runner -/

/-- What a node is called with is what a runner prepares for it. -/
theorem Called.prepare_eq (h : Called g binding s id node actor bound inputs) (hg : g.Sound)
    {context : RunContext ε} (hbinding : context.binding = binding) :
    prepare g context s.produced node = .ok (actor, inputs) := by
  obtain rfl : node.id = id := hg.wired.id_eq id node h.node_eq
  rw [prepare_eq_ok, hbinding]
  exact ⟨h.carries, h.actor_eq⟩

namespace Sequential

variable {context : RunContext ε}

theorem result_visit_of_runs (hg : g.Sound) (hfits : context.binding.Fits g s.world)
    (hlive : context.cancelled s.world.environment = false) (h : Runs g context.binding id s t) :
    Flow.result (visit g context s.produced id) s.world = (.ok t.produced, t.world) := by
  cases h with
  | @intro node actor bound inputs outputs hcalled hwork =>
    obtain ⟨actor', bound', hactor', hbound', hisolated⟩ :=
      hfits.bound id (List.getElem?_eq_some_iff.mp hcalled.node_eq).1
    obtain rfl : actor' = actor := Option.some.inj (hactor'.symm.trans hcalled.actor_eq)
    obtain rfl : bound' = bound := Option.some.inj (hbound'.symm.trans hcalled.bound_eq)
    exact result_visit_ok hlive hcalled.node_eq (hcalled.prepare_eq hg rfl) hbound' hisolated hwork

theorem runs_of_result_visit (hg : g.Sound) (hfits : context.binding.Fits g s.world)
    (hlive : context.cancelled s.world.environment = false) (hid : id < g.nodes.length)
    {q : Produced} {after : World ε σ}
    (h : Flow.result (visit g context s.produced id) s.world = (.ok q, after)) :
    Runs g context.binding id s ⟨q, after⟩ := by
  have hnode : g.nodes[id]? = some g.nodes[id] := List.getElem?_eq_getElem hid
  have hself : g.nodes[id].id = id := hg.wired.id_eq id _ hnode
  obtain ⟨actor, bound, hactor, hbound, hisolated⟩ := hfits.bound id hid
  cases hprepare : prepare g context s.produced g.nodes[id] with
  | error e =>
    rw [result_visit_of_unready hlive hnode hprepare] at h
    cases (Prod.mk.inj h).1
  | ok ready =>
    obtain ⟨actor', inputs⟩ := ready
    obtain ⟨hcarries, hactor'⟩ := prepare_eq_ok.mp hprepare
    rw [hself] at hcarries hactor'
    obtain rfl : actor' = actor := Option.some.inj (hactor'.symm.trans hactor)
    cases hwork : (g.nodes[id].work bound s.world.environment inputs).1 with
    | ok outputs =>
      have hvisit := result_visit_ok hlive hnode hprepare hbound hisolated hwork
      rw [h] at hvisit
      obtain ⟨hq, rfl⟩ := Prod.mk.inj hvisit
      rw [Except.ok.inj hq]
      exact .intro ⟨hnode, hcarries, hactor, hbound⟩ hwork
    | error halt =>
      obtain ⟨last, hvisit, -⟩ := result_visit_error hlive hnode hprepare hbound hisolated hwork
      rw [h] at hvisit
      cases (Prod.mk.inj hvisit).1

/-- Visiting nodes in order succeeds exactly if they run one after another. -/
theorem result_visitAll_eq_ok (hg : g.Sound) (hfits : context.binding.Fits g s.world)
    (hlive : context.cancelled s.world.environment = false) {ids : List NodeId}
    (hids : ∀ id ∈ ids, id < g.nodes.length) :
    Flow.result (visitAll g context ids s.produced) s.world = (.ok t.produced, t.world) ↔
      RunsAll g context.binding ids s t := by
  induction ids generalizing s with
  | nil =>
    constructor
    · intro h
      obtain ⟨hproduced, hworld⟩ := Prod.mk.inj h
      have hsame : s = t := by
        cases s
        cases t
        exact congrArg₂ Moment.mk (Except.ok.inj hproduced) hworld
      rw [hsame]
      exact .nil t
    · intro h
      cases h with
      | nil => rfl
  | cons id rest ih =>
    have hrest : ∀ k ∈ rest, k < g.nodes.length := fun k hk ↦ hids k (List.mem_cons_of_mem _ hk)
    rw [visitAll, Flow.result_bind]
    constructor
    · intro h
      rcases hvisit : Flow.result (visit g context s.produced id) s.world with ⟨halt | q, after⟩
      · rw [hvisit] at h
        cases (Prod.mk.inj h).1
      · rw [hvisit] at h
        have hruns := runs_of_result_visit hg hfits hlive (hids id List.mem_cons_self) hvisit
        refine .cons hruns ((ih (hruns.fits hfits) ?_ hrest).mp h)
        rw [hruns.environment]
        exact hlive
    · intro h
      cases h with
      | cons hruns hremaining =>
        rw [result_visit_of_runs hg hfits hlive hruns]
        refine (ih (hruns.fits hfits) ?_ hrest).mpr hremaining
        rw [hruns.environment]
        exact hlive

end Sequential

end Dataflow
