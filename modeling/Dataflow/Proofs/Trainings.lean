import Dataflow.Proofs.ExactMarks

/-!
# What a training leaves behind

A training works on new instances, one for each group of the pipeline, and it trains the instance of
a stateful group once. So after a training that succeeds on a runner that executes, the instance of
a stateful group has learnt: it has a fit state that one successful training of a new instance
leaves behind. The instance of any other group is still a new one. This is so of all members of the
session, whatever it was before, and it is the stateful groups that count as trained
(`Session.taught_of_train`).
-/

set_option autoImplicit false
set_option relaxedAutoImplicit false

namespace Dataflow

variable {ε σ : Type}

/-- A fit state that a successful training of a new instance leaves behind. -/
def Behavior.Learns (b : Behavior ε σ) (fit : σ) : Prop :=
  ∃ data label env, (b.train data label b.fresh env).1 = .ok () ∧
    (b.train data label b.fresh env).2.1 = fit

/-- An instance made from a spec is as a training leaves it: it has learnt if the spec is stateful,
and otherwise it is as new. -/
structure Spec.Taught (spec : Spec ε σ) (actor : Instance ε σ) : Prop where
  behavior : actor.behavior = spec.behavior
  learns : spec.stateful = true → spec.behavior.Learns actor.fit
  stateless : spec.stateful = false → actor = spec.instantiate

namespace Session

/-- Every group of the pipeline has a member whose instance is as a training leaves it, and that
counts as trained if the group is stateful. -/
def Taught (s : Session ε σ) (w : World ε σ) : Prop :=
  ∀ entry ∈ s.workflow.groupsIn 0, ∃ member actor, s.roster.member? entry.1 = some member ∧
    member.trained = entry.2.stateful ∧ w.instances[member.actor]? = some actor ∧
      entry.2.Taught actor

variable [Inhabited σ] {s : Session ε σ} {w : World ε σ} {g : Graph ε σ} {found : Runner}
  {schedule : Schedule} {report : Report} {entry : GroupId × Spec ε σ}

/-- No node trains an actor that is not stateful. -/
theorem trainers_of_stateless (hbuild : s.build .train = .ok g)
    (hlisted : entry ∈ s.workflow.groupsIn 0) (hstateless : entry.2.stateful = false) :
    g.trainers entry.1 = [] := by
  obtain ⟨producer, -, hcompiled⟩ := Workflow.graph_ok hbuild
  obtain ⟨i, leaf, hleaf, rfl⟩ := exists_leaf_of_mem_groupsFrom hlisted
  rw [← List.length_eq_zero_iff, g.length_trainers,
    (hcompiled.standFor (by decide)).trainers i leaf hleaf]
  refine if_neg fun hboth ↦ ?_
  have hstateful : leaf.spec.stateful = true := hboth.2
  rw [hstateless] at hstateful
  cases hstateful

/-- No two stateful groups of a graph are the same. -/
theorem nodup_statefulGroups {mode : Mode} (hbuild : s.build mode = .ok g) (hmode : mode ≠ .eval) :
    (g.statefulGroups.map Prod.fst).Nodup := by
  rw [Graph.statefulGroups, groups_of_build hbuild hmode]
  exact (s.workflow.nodup_groupsIn 0).sublist (List.filter_sublist.map Prod.fst)

theorem contains_statefulGroups {mode : Mode} (hbuild : s.build mode = .ok g) (hmode : mode ≠ .eval)
    (hlisted : entry ∈ s.workflow.groupsIn 0) :
    (g.statefulGroups.map Prod.fst).contains entry.1 = entry.2.stateful := by
  rw [List.contains_eq_mem]
  cases hstateful : entry.2.stateful with
  | true =>
    refine decide_eq_true (List.mem_map_of_mem ?_)
    exact (mem_statefulGroups hbuild hmode).mpr ⟨hlisted, hstateful⟩
  | false =>
    refine decide_eq_false fun hmem ↦ ?_
    obtain ⟨other, hother, hsame⟩ := List.mem_map.mp hmem
    obtain ⟨hlisted', hstateful'⟩ := (mem_statefulGroups hbuild hmode).mp hother
    have hspec : other.2 = entry.2 :=
      Workflow.spec_eq_of_mem_groupsIn hlisted' (hsame ▸ hlisted)
    rw [hspec, hstateful] at hstateful'
    cases hstateful'

/-- For a training every group gets a new instance, and it is the trainers of the group that are to
train it. -/
theorem exists_staged (hbuild : s.build .train = .ok g) (hexecutes : found.executes = true)
    (hlisted : entry ∈ s.workflow.groupsIn 0) :
    let r := s.staging .train g found schedule w
    ∃ member, r.roster.member? entry.1 = some member ∧
      r.world.instances[member.actor]? = some entry.2.instantiate ∧
      ∀ (j : NodeId) (other : Node ε σ), g.nodes[j]? = some other → other.kind = .trainer →
        (r.context.binding[j]? = some member.actor ↔ other ∈ g.trainers entry.1) := by
  intro r
  obtain ⟨producer, -, hcompiled⟩ := Workflow.graph_ok hbuild
  rcases Roster.engaged (Roster.sound_empty w) found g with ⟨-, hbound⟩ | ⟨hdraws, -⟩
  · obtain ⟨node, hnode, hgroup⟩ := hcompiled.exists_node (by decide) hlisted
    obtain ⟨member, hmember, -⟩ := hbound.grouped node.id node entry.1
      ((sound_of_build hbuild).wired.getElem?_id hnode) hgroup
    have hspec : ∀ other ∈ g.nodes, other.group = some entry.1 → other.spec = entry.2 :=
      fun other hother hown ↦
        Workflow.spec_eq_of_mem_groupsIn (mem_groupsIn hbuild (by decide) hother hown) hlisted
    refine ⟨member, hmember, hbound.start entry.1 member entry.2 hmember hspec,
      fun j other hother hkind ↦ ⟨fun hactor ↦ ?_, fun hmem ↦ ?_⟩⟩
    · exact List.mem_filter.mpr ⟨List.mem_of_getElem? hother,
        decide_eq_true ⟨hkind, hbound.group_of_actor hmember hother hactor⟩⟩
    · obtain ⟨-, hown⟩ := of_decide_eq_true (List.mem_filter.mp hmem).2
      obtain ⟨found', hfound', hactor⟩ := hbound.grouped j other entry.1 hother hown
      obtain rfl := Option.some.inj (hmember.symm.trans hfound')
      exact hactor
  · rw [hexecutes] at hdraws
    cases hdraws

/-- In a training that succeeds, the instance of every group ends as a training leaves it. -/
theorem exists_taught_of_trained (hbuild : s.build .train = .ok g)
    (hexecutes : found.executes = true) {r : Staging ε σ}
    (hr : r = s.staging .train g found schedule w) (hok : r.ended.1 = .ok report)
    (hlisted : entry ∈ s.workflow.groupsIn 0) :
    ∃ member actor, r.roster.member? entry.1 = some member ∧
      r.ended.2.instances[member.actor]? = some actor ∧ entry.2.Taught actor := by
  subst hr
  let r := s.staging .train g found schedule w
  have hsound := sound_of_build hbuild
  have hevolves := found.evolves_run hsound r.context r.world
  obtain ⟨member, hmember, hstart, hbinding⟩ := exists_staged hbuild hexecutes hlisted
  cases hstateful : entry.2.stateful with
  | false =>
    have hfree := hevolves.instances_of_untrained fun j other hother hkind hactor ↦ by
      have hmem := (hbinding j other hother hkind).mp hactor
      rw [trainers_of_stateless hbuild hlisted hstateful] at hmem
      cases hmem
    refine ⟨member, _, hmember, hfree.trans hstart, rfl, fun h ↦ ?_, fun _ ↦ rfl⟩
    rw [hstateful] at h
    cases h
  | true =>
    obtain ⟨trainer, outputs, honly, hat, hkind, -, houtputs⟩ :=
      exists_trainer_ended hbuild hexecutes rfl hok
        ((mem_statefulGroups hbuild (by decide)).mpr ⟨hlisted, hstateful⟩)
    have htrainer : trainer ∈ g.trainers entry.1 := honly ▸ List.mem_cons_self
    -- a run that succeeds visits every node once
    obtain ⟨all, p, -, -, haccounts⟩ := found.exists_accounts hsound hexecutes
      (Prod.ext hok rfl : Flow.result (found.run g r.context) r.world = (.ok report, r.ended.2))
    have honce : (r.events.filterMap Event.ended?).Nodup := by
      have hended : r.events.filterMap Event.ended? = all := haccounts.ended
      rw [hended]
      exact haccounts.nodup
    obtain ⟨data, label, env, hlearns, hlast⟩ := hevolves.trained_once
      (fun j other hother hkind' hactor ↦ by
        have hsame := (hbinding j other hother hkind').mp hactor
        rw [honly, List.mem_singleton] at hsame
        rw [← hsame, hsound.wired.id_eq j other hother])
      hstart honce houtputs hat hkind ((hbinding _ trainer hat hkind).mpr htrainer)
    refine ⟨member, _, hmember, hlast, rfl, fun _ ↦ ⟨data, label, env, hlearns, rfl⟩, fun h ↦ ?_⟩
    rw [hstateful] at h
    cases h

/-- A session that adopts a training gets the members of the staged roster, and those of stateful
groups count as trained. -/
theorem member?_keeping_train {ε σ : Type} (s : Session ε σ) {r : Staging ε σ} {report : Report}
    (hok : r.ended.1 = .ok report) (hexecutes : r.runner.executes = true) (htidy : r.roster.Tidy)
    {group : GroupId} {member : Member ε σ} (hmember : r.roster.member? group = some member) :
    (s.keeping .train r).member? group =
      some (if (r.graph.statefulGroups.map Prod.fst).contains group then
        { member with trained := true } else member) := by
  rw [s.keeping_train_of_ok hok hexecutes, Roster.commit, Roster.member?_markTrained,
    Roster.member?_foldl_put htidy, hmember, Option.some_or, Option.map_some]

/-- After a training that succeeds on a runner that executes, every group has a member as a training
leaves it, and the stateful groups count as trained. -/
theorem taught_of_train {runner : Option String} (hserves : s.Serves w) (hfaithful : s.Faithful)
    (hrunner : s.runtime.registry.resolve runner = .ok found) (hexecutes : found.executes = true)
    (hok : (Action.result (s.invoke .train runner schedule) w).1.1 = .ok report) :
    (Action.result (s.invoke .train runner schedule) w).1.2.Taught
      (Action.result (s.invoke .train runner schedule) w).2 := by
  obtain ⟨r, graphs, start, -, hresult, hended, rfl, hbuild, hquiet, hr⟩ :=
    exists_ran_of_trained hfaithful hrunner hok
  have hstaged := serves_staging (Roster.Serves.of_kept hserves hquiet.kept) hbuild (by decide)
    r.runner schedule
  have huntrained := s.untrained_staging r.graph r.runner schedule start
  rw [← hr] at hstaged huntrained
  rw [hresult]
  intro entry hlisted
  obtain ⟨⟨spec, id, trained⟩, actor, hmember, hactor, htaught⟩ :=
    exists_taught_of_trained hbuild hexecutes hr hended hlisted
  refine ⟨⟨spec, id, entry.2.stateful⟩, actor, ?_, rfl, hactor, htaught⟩
  change (s.keeping .train r).member? entry.1 = _
  rw [s.member?_keeping_train hended hexecutes hstaged.tidy hmember,
    contains_statefulGroups hbuild (by decide) hlisted]
  obtain rfl : trained = false := Roster.untrained_of_member? huntrained hmember
  cases entry.2.stateful <;> rfl

end Session

end Dataflow
