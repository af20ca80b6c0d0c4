import Dataflow.Proofs.ConcurrentTraces
import Dataflow.Proofs.Joined

/-!
# No applier runs before its trainer

In a graph that fits anything, a train graph or an evaluation with fewer than `2 ^ 32` folds, every
stateful group has one trainer (`Workflow.Compiled.exists_trainer`), and a state edge leads from it
to every applier of the group. So an applier depends on it: the trainer stands first in every order
that respects the edges, and in a run on any runner it has ended with outputs before an applier of
the group starts (`Workflow.trainer_before_appliers`). Nothing is asked of the actors or of the
schedule, and the run may fail or be cancelled.
-/

set_option autoImplicit false
set_option relaxedAutoImplicit false

namespace Dataflow

variable {ε σ : Type}

/-- The trainers of a group. -/
def Graph.trainers (g : Graph ε σ) (group : GroupId) : List (Node ε σ) :=
  g.nodes.filter fun node ↦ node.kind = .trainer ∧ node.group = some group

/-- The nodes of a group are in its scope. -/
theorem Graph.countRole_members (g : Graph ε σ) (kind : NodeKind) (group : GroupId) :
    countRole kind group ((g.members group.scope).map Node.role) =
      countRole kind group (g.nodes.map Node.role) := by
  unfold countRole
  rw [g.map_role_members, List.countP_filter]
  refine List.countP_congr fun role _ ↦ ?_
  by_cases hgroup : role.group = some group
  · simp [Role.inScope, hgroup]
  · simp [hgroup]

theorem Graph.length_trainers (g : Graph ε σ) (group : GroupId) :
    (g.trainers group).length = countRole .trainer group ((g.members group.scope).map Node.role) := by
  rw [g.countRole_members, countRole, List.countP_map, trainers, List.countP_eq_length_filter]
  rfl

theorem exists_leaf_of_mem_groupsFrom {scope : Nat} {leaves : List (Leaf ε σ)}
    {entry : GroupId × Spec ε σ} (h : entry ∈ groupsFrom scope 0 leaves) :
    ∃ (i : Nat) (leaf : Leaf ε σ), leaves[i]? = some leaf ∧ entry = (⟨scope, i⟩, leaf.spec) := by
  obtain ⟨⟨leaf, i⟩, hmem, rfl⟩ := List.mem_map.mp h
  exact ⟨i, leaf, List.mem_zipIdx_iff_getElem?.mp hmem, rfl⟩

/-- Whether it is seen that a node starts. -/
def Event.starts (id : NodeId) : Event → Bool
  | .started other => other == id
  | .ended _ _ => false

theorem exists_split_of_any_starts {events : List Event} {id : NodeId}
    (h : events.any (Event.starts id) = true) :
    ∃ front back, events = front ++ .started id :: back := by
  obtain ⟨event, hmem, hstarts⟩ := List.any_eq_true.mp h
  cases event with
  | started other =>
    obtain rfl : other = id := eq_of_beq hstarts
    exact List.append_of_mem hmem
  | ended other outcome => cases hstarts

namespace Workflow

variable [Inhabited σ] {w : Workflow ε σ} {producer receiver : Spec ε σ} {mode : Mode}
  {g : Graph ε σ}

/-- The number of folds of an evaluation, if there is one, is less than the number of scopes. -/
def FoldsBelow {ε σ : Type} (w : Workflow ε σ) (mode : Mode) : Prop :=
  mode = .eval → ∀ evaluation, w.evaluation = some evaluation → evaluation.folds < UInt32.size

theorem FoldsBelow.fit {ε σ : Type} {w : Workflow ε σ} {mode : Mode} (h : w.FoldsBelow mode) :
    w.FoldsFit mode := fun hmode evaluation hevaluation ↦ Nat.le_of_lt (h hmode evaluation hevaluation)

/-- A stateful group of a graph that fits has exactly one trainer. -/
theorem Compiled.exists_trainer (h : w.Compiled producer receiver mode g) (hmode : mode ≠ .apply)
    (hfolds : w.FoldsBelow mode) {entry : GroupId × Spec ε σ} (hentry : entry ∈ g.statefulGroups) :
    ∃ trainer, g.trainers entry.1 = [trainer] := by
  obtain ⟨hgroup, hstateful⟩ := List.mem_filter.mp hentry
  refine List.length_eq_one_iff.mp ?_
  rw [g.length_trainers]
  cases mode with
  | apply => exact absurd rfl hmode
  | train =>
    rw [h.groups_eq (by decide)] at hgroup
    obtain ⟨i, leaf, hleaf, rfl⟩ := exists_leaf_of_mem_groupsFrom hgroup
    rw [(h.standFor (by decide)).trainers i leaf hleaf]
    exact if_pos ⟨rfl, hstateful⟩
  | eval =>
    obtain ⟨evaluation, hevaluation⟩ := Option.isSome_iff_exists.mp (h.evaluation rfl)
    have hcount := hfolds rfl evaluation hevaluation
    rw [h.groups_eval hevaluation hcount] at hgroup
    obtain ⟨fold, hfold, hgroup⟩ := List.mem_flatMap.mp hgroup
    obtain ⟨i, leaf, hleaf, rfl⟩ := exists_leaf_of_mem_groupsFrom hgroup
    obtain ⟨fitted, applied, hmembers, hfitted, happlied⟩ :=
      h.members_eval hevaluation hcount (List.mem_range.mp hfold)
    rw [hmembers, List.map_append, countRole_append, hfitted.trainers i leaf hleaf,
      happlied.trainers i leaf hleaf, if_pos ⟨rfl, hstateful⟩, if_neg (by simp)]

/-- A stateful group has exactly one trainer, and a state edge leads from it to every applier of the
group. So the trainer stands before the applier in every order that respects the edges, and in every
run, on any runner and by any schedule, it has ended with outputs before the applier starts. -/
theorem trainer_before_appliers {feed : Feed ε σ} {sinks : SinkProvider ε σ}
    (hg : w.graph feed sinks mode = .ok g) (hmode : mode ≠ .apply) (hfolds : w.FoldsBelow mode)
    {entry : GroupId × Spec ε σ} (hentry : entry ∈ g.statefulGroups) :
    ∃ trainer, g.trainers entry.1 = [trainer] ∧
      ∀ applier ∈ g.nodes, applier.kind = .applier → applier.group = some entry.1 →
        Edge.state trainer.id applier.id ∈ g.edges ∧
        (∀ order, Orders g.nodes.length g.edges order →
          order.idxOf trainer.id < order.idxOf applier.id) ∧
        ∀ (runner : Runner) (context : RunContext ε) (world : World ε σ) (front back : List Event),
          runner.trace g context world = front ++ .started applier.id :: back →
            Succeeded front trainer.id := by
  obtain ⟨b, hreachable, hbuild⟩ := exists_reachable hg
  have hsound := Graph.sound_of_build hreachable hbuild
  obtain ⟨producer, -, hcompiled⟩ := graph_ok hg
  obtain ⟨trainer, htrainer⟩ := hcompiled.exists_trainer hmode hfolds hentry
  refine ⟨trainer, htrainer, fun applier happlier hkind hgroup ↦ ?_⟩
  have hmem : trainer ∈ g.trainers entry.1 := htrainer ▸ List.mem_cons_self
  obtain ⟨hnode, hboth⟩ := List.mem_filter.mp hmem
  obtain ⟨htrains, hown⟩ := of_decide_eq_true hboth
  obtain ⟨i, hi⟩ := List.getElem?_of_mem hnode
  obtain ⟨j, hj⟩ := List.getElem?_of_mem happlier
  -- behind an applier of its group there is no trainer
  have hij : i < j := by
    rcases Nat.lt_trichotomy i j with hlt | rfl | hlt
    · exact hlt
    · obtain rfl := Option.some.inj (hi.symm.trans hj)
      rw [hkind] at htrains
      cases htrains
    · have hbad := hcompiled.leads hfolds.fit hj hi hlt (hgroup.trans hown.symm) (hgroup ▸ rfl)
      rw [htrains] at hbad
      cases hbad
  have hedge := hcompiled.state_mem_edges hfolds.fit hi hj hij htrains (hown.trans hgroup.symm)
    (hown ▸ rfl)
  rw [hcompiled.id_eq hi, hcompiled.id_eq hj]
  refine ⟨hedge, fun order horder ↦ horder.idxOf_lt hedge (hsound.wired.head_lt _ hedge),
    fun runner context world front back htrace ↦ ?_⟩
  have hdepends : i ∈ g.dependencies j := Graph.mem_dependencies.mpr ⟨_, hedge, rfl, rfl⟩
  exact runner.heeds_trace hsound context world front j back htrace i hdepends

/-- A pipeline with one actor to fit, and two folds that are each tested on what they are fitted
to. -/
def refitting : Workflow Unit Payload where
  source := ⟨"rows", some "y"⟩
  pipeline := ⟨0, .mapper Distributed.keeper⟩
  evaluation := some
    { folds := 2
      splitter := fun _ ↦
        { name := "same", behavior := .pure fun inputs ↦ .ok (.tuple (inputs ++ inputs)),
          arity := ⟨2, 4⟩ }
      metric := { Builtin.collector with arity := ⟨2, 1⟩ }
      aggregator := fun folds ↦ { Builtin.collector with arity := ⟨folds, 1⟩ } }

/-- Node 8 trains for the second fold, and node 10 predicts with what it has fitted. -/
theorem trainer_before_appliers_refitting :
    let feed : Feed Unit Payload := .ofTables [("rows", ⟨["x", "y"], [[.int 1, .text "a"]]⟩)]
    ∃ g trainer, refitting.graph feed .collecting .eval = .ok g ∧ g.trainers ⟨2, 0⟩ = [trainer] ∧
      Edge.state trainer.id 10 ∈ g.edges ∧
      ∃ (context : RunContext Unit) (world : World Unit Payload) (front back : List Event),
        (Runner.distributed 2).trace g context world = front ++ .started 10 :: back ∧
          Succeeded front trainer.id := by
  intro feed
  obtain ⟨g, hg⟩ := exists_eq_ok
    (by decide +kernel : (refitting.graph feed .collecting .eval).isOk = true)
  have hfacts : ((refitting.graph feed .collecting .eval).toOption.any fun g ↦
      let bound := Action.result (Roster.bind g.nodes .empty) (World.new ())
      g.statefulGroups.any (·.1 = ⟨2, 0⟩) ∧
        g.nodes[10]?.any (fun node ↦ node.kind = .applier ∧ node.group = some ⟨2, 0⟩) ∧
        ((Runner.distributed 2).trace g ⟨bound.1.1, fun _ ↦ false, .inOrder⟩ bound.2).any
          (Event.starts 10)) = true := by
    decide +kernel
  rw [hg] at hfacts
  simp only [Except.toOption, Option.any_some, decide_eq_true_eq] at hfacts
  obtain ⟨hgroup, happlier, hstarts⟩ := hfacts
  obtain ⟨entry, hentry, hgroup⟩ := List.any_eq_true.mp hgroup
  obtain ⟨applier, hnode, happlier⟩ := (Option.any_eq_true _ _).mp happlier
  obtain ⟨hkind, hown⟩ := of_decide_eq_true happlier
  have hgroup := of_decide_eq_true hgroup
  obtain ⟨front, back, htrace⟩ := exists_split_of_any_starts hstarts
  have hfolds : refitting.FoldsBelow .eval := by
    intro _ evaluation hevaluation
    rw [← Option.some.inj hevaluation]
    decide
  obtain ⟨trainer, htrainer, happliers⟩ := trainer_before_appliers hg (by decide) hfolds hentry
  have hid : applier.id = 10 := by
    obtain ⟨producer, -, hcompiled⟩ := graph_ok hg
    exact hcompiled.id_eq hnode
  obtain ⟨hedge, -, hruns⟩ := happliers applier (List.mem_of_getElem? hnode) hkind
    (hown.trans (congrArg some hgroup.symm))
  rw [hid] at hedge hruns
  exact ⟨g, trainer, hg, hgroup ▸ htrainer, hedge, _, _, front, back, htrace,
    hruns _ _ _ front back htrace⟩

end Workflow

end Dataflow
