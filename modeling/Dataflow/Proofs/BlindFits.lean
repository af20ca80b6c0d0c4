import Dataflow.Proofs.Invocations
import Dataflow.Proofs.Leakage
import Dataflow.Proofs.TrainersFirst
import Dataflow.Proofs.TwinRuns

/-!
# A fold is fitted to its training parts alone

The nodes of a fold that are fitted run one after another, as a stretch of the run. Only they train
the instances of the fold's groups (`Workflow.Compiled.fitted_of_actor`). So the groups start the
stretch from new instances, and what it leaves of them remains to the end. `Moment.Fitting` says so,
and every run of all nodes in order contains such a stretch for every fold
(`Workflow.Compiled.exists_fitting`). Two of them leave the same if they start from the same
training parts (`Moment.Fitting.instances_eq`).

A successful run comes to running all nodes in order, on any runner. So two evaluations whose
splitter gives the same training parts for a fold fit its groups to the same, whatever the test
parts and the other folds are (`Session.folds_do_not_leak`).
-/

set_option autoImplicit false
set_option relaxedAutoImplicit false

namespace Dataflow

variable {ε σ : Type}

/-- The instance that a roster keeps for a group. -/
def Roster.actorOf (roster : Roster ε σ) (group : GroupId) : InstanceId :=
  ((roster.member? group).map Member.actor).getD 0

theorem Roster.actorOf_eq {roster : Roster ε σ} {group : GroupId} {member : Member ε σ}
    (h : roster.member? group = some member) : roster.actorOf group = member.actor := by
  unfold actorOf
  rw [h]
  rfl

/-! ### The stretch of a fold that is fitted -/

namespace Workflow.Compiled

variable [Inhabited σ] {w : Workflow ε σ} {producer receiver : Spec ε σ} {g : Graph ε σ}
  {evaluation : Evaluation ε σ} {fold : Nat} {binding : Binding} {roster : Roster ε σ}
  {before world : World ε σ}

/-- The nodes of a fold that are fitted stand behind its splitter and have the instances of their
groups. -/
theorem hosts (h : w.Compiled producer receiver .eval g)
    (hbound : Roster.Bound g.nodes .empty before binding roster world)
    (hevaluation : w.evaluation = some evaluation) (hfold : fold < evaluation.folds) :
    g.Hosts binding roster.actorOf (w.pipeline.expression.splitterAt fold + 1)
      (w.pipeline.expression.fittedLayout fold).1 := by
  obtain ⟨label, hlabel⟩ := h.exists_label
  have hnode : ∀ (i : Nat) (p : Placement ε σ),
      (w.pipeline.expression.fittedLayout fold).1[i]? = some p →
        g.nodes[w.pipeline.expression.splitterAt fold + 1 + i]? = some (p.node _) :=
    fun i p hp ↦ h.getElem?_nodes_of_inFold hevaluation hfold (.fitted hp)
  refine ⟨hnode, fun i p hp ↦ ?_, fun i p hp ↦ ?_,
    fun p hp q hq group other hgroup hother hsame ↦ ?_⟩
  · exact h.inputs ((InFold.fitted hp).getElem?_layout producer receiver hevaluation hlabel hfold)
  · obtain ⟨j, leaf, -, -, hgroup⟩ := Expression.exists_leaf_of_mem_layout (List.mem_of_getElem? hp)
    obtain ⟨member, hmember, hactor⟩ := hbound.grouped _ _ _ (hnode i p hp) hgroup
    exact ⟨_, hgroup, hactor.trans (congrArg some (Roster.actorOf_eq hmember).symm)⟩
  · obtain ⟨i, hi⟩ := List.getElem?_of_mem hp
    obtain ⟨j, hj⟩ := List.getElem?_of_mem hq
    obtain ⟨member, hmember, -⟩ := hbound.grouped _ _ group (hnode i p hi) hgroup
    obtain ⟨member', hmember', -⟩ := hbound.grouped _ _ other (hnode j q hj) hother
    rw [Roster.actorOf_eq hmember, Roster.actorOf_eq hmember'] at hsame
    exact hbound.sound.distinct group other member member' hmember hmember' hsame

/-- A group of a fold has a member, which starts from a new instance of its leaf's actor. -/
theorem exists_member_of_leaf (h : w.Compiled producer receiver .eval g)
    (hbound : Roster.Bound g.nodes .empty before binding roster world)
    (hevaluation : w.evaluation = some evaluation) (hfolds : evaluation.folds < UInt32.size)
    (hfold : fold < evaluation.folds) {i : Nat} {leaf : Leaf ε σ}
    (hleaf : w.pipeline.expression.leaves[i]? = some leaf) :
    ∃ member, roster.member? ⟨foldScope fold, i⟩ = some member ∧
      world.instances[member.actor]? = some leaf.spec.instantiate := by
  obtain ⟨p, hp, hgroup⟩ := Expression.exists_mem_layout (List.getElem?_eq_some_iff.mp hleaf).1
    .train (foldScope fold) (w.pipeline.expression.splitterAt fold + 1)
      (w.pipeline.expression.trainTrack fold)
  obtain ⟨j, hj⟩ := List.getElem?_of_mem hp
  have hnode := h.getElem?_nodes_of_inFold hevaluation hfold (.fitted hj)
  obtain ⟨member, hmember, -⟩ := hbound.grouped _ _ _ hnode hgroup
  refine ⟨member, hmember, hbound.start _ member leaf.spec hmember fun node hmem hown ↦ ?_⟩
  obtain ⟨k, hk⟩ := List.getElem?_of_mem hmem
  obtain ⟨q, hq, rfl⟩ := h.exists_placement hk
  obtain ⟨other, hother, hspec⟩ :=
    (h.inFold_of_group hevaluation hfolds hfold hq hown).exists_leaf hown
  obtain rfl := Option.some.inj (hleaf.symm.trans hother)
  exact hspec

/-- Only nodes of a fold that are fitted train the instances of its groups. -/
theorem fitted_of_actor (h : w.Compiled producer receiver .eval g)
    (hbound : Roster.Bound g.nodes .empty before binding roster world)
    (hevaluation : w.evaluation = some evaluation) (hfolds : evaluation.folds < UInt32.size)
    (hfold : fold < evaluation.folds) {i : Nat} {member : Member ε σ}
    (hmember : roster.member? ⟨foldScope fold, i⟩ = some member) {k : Nat} {node : Node ε σ}
    (hnode : g.nodes[k]? = some node) (hactor : binding[k]? = some member.actor)
    (hkind : node.kind = .trainer) :
    w.pipeline.expression.splitterAt fold < k ∧ k < w.pipeline.expression.appliedAt fold := by
  have hgroup := hbound.group_of_actor hmember hnode hactor
  obtain ⟨p, hp, rfl⟩ := h.exists_placement hnode
  exact (h.inFold_of_group hevaluation hfolds hfold hp hgroup).fitted_of_trainer hkind

end Workflow.Compiled

/-- A stretch of a run of an evaluation in which the pipeline of a fold is fitted: its groups start
from new instances, the splitter has given its parts, and behind the stretch the instances of the
groups are those of the end. -/
structure Moment.Fitting (g : Graph ε σ) (binding : Binding) (roster : Roster ε σ)
    (expression : Expression ε σ) (fold : Nat) (final before after : Moment ε σ) : Prop where
  hosts : g.Hosts binding roster.actorOf (expression.splitterAt fold + 1)
    (expression.fittedLayout fold).1
  runs : RunsAll g binding
    (List.range' (expression.splitterAt fold + 1) (expression.size .train)) before after
  given : before.produced (expression.splitterAt fold) =
    final.produced (expression.splitterAt fold)
  fresh : ∀ (i : Nat) (leaf : Leaf ε σ), expression.leaves[i]? = some leaf →
    before.world.instances[roster.actorOf ⟨Workflow.foldScope fold, i⟩]? =
      some leaf.spec.instantiate
  kept : ∀ i < expression.leaves.length,
    final.world.instances[roster.actorOf ⟨Workflow.foldScope fold, i⟩]? =
      after.world.instances[roster.actorOf ⟨Workflow.foldScope fold, i⟩]?

/-- A run of all nodes in order contains such a stretch for every fold. -/
theorem Workflow.Compiled.exists_fitting [Inhabited σ] {w : Workflow ε σ}
    {producer receiver : Spec ε σ} {g : Graph ε σ} {evaluation : Evaluation ε σ} {fold : Nat}
    {binding : Binding} {roster : Roster ε σ} {start : World ε σ} {first final : Moment ε σ}
    (h : w.Compiled producer receiver .eval g)
    (hbound : Roster.Bound g.nodes .empty start binding roster first.world)
    (hevaluation : w.evaluation = some evaluation) (hfolds : evaluation.folds < UInt32.size)
    (hfold : fold < evaluation.folds)
    (hruns : RunsAll g binding (List.range g.nodes.length) first final) :
    ∃ before after,
      Moment.Fitting g binding roster w.pipeline.expression fold final before after := by
  have hmetric := h.getElem?_nodes_of_inFold hevaluation hfold .metric
  have hle : w.pipeline.expression.appliedAt fold ≤ g.nodes.length :=
    Nat.le_trans (Nat.le_add_right _ _) (Nat.le_of_lt (List.getElem?_eq_some_iff.mp hmetric).1)
  obtain ⟨before, after, hfront, hfitted, hback⟩ := hruns.exists_stretch hle
  refine ⟨before, after, h.hosts hbound hevaluation hfold, hfitted, ?_, fun i leaf hleaf ↦ ?_,
    fun i hi ↦ ?_⟩
  · rw [hback.produced_of_not_mem fun hmem ↦ ?_, hfitted.produced_of_not_mem fun hmem ↦ ?_]
    · exact Nat.not_succ_le_self _ (List.mem_range'_1.mp hmem).1
    · exact Nat.not_succ_le_self _ (Nat.le_of_add_right_le (List.mem_range'_1.mp hmem).1)
  · obtain ⟨member, hmember, hfresh⟩ :=
      h.exists_member_of_leaf hbound hevaluation hfolds hfold hleaf
    rw [Roster.actorOf_eq hmember, ← hfresh]
    refine hfront.instances_of_untrained fun k hk node hnode hactor hkind ↦ ?_
    have hlow := (h.fitted_of_actor hbound hevaluation hfolds hfold hmember hnode hactor hkind).1
    exact absurd (List.mem_range.mp hk) (Nat.not_lt.mpr hlow)
  · obtain ⟨member, hmember, -⟩ :=
      h.exists_member_of_leaf hbound hevaluation hfolds hfold (List.getElem?_eq_getElem hi)
    rw [Roster.actorOf_eq hmember]
    refine hback.instances_of_untrained fun k hk node hnode hactor hkind ↦ ?_
    have hhigh := (h.fitted_of_actor hbound hevaluation hfolds hfold hmember hnode hactor hkind).2
    exact absurd (List.mem_range'_1.mp hk).1 (Nat.not_le.mpr hhigh)

namespace Moment.Fitting

variable {g g' : Graph ε σ} {binding binding' : Binding} {roster roster' : Roster ε σ}
  {expression : Expression ε σ} {fold : Nat} {final final' before before' after after' : Moment ε σ}

/-- If the splitter of a fold has given the same training parts in two runs, then the moments before
the stretch are twins. -/
theorem twins (h : Fitting g binding roster expression fold final before after)
    (h' : Fitting g' binding' roster' expression fold final' before' after')
    (hdeterministic : ∀ leaf ∈ expression.leaves, leaf.spec.behavior.Deterministic)
    (hparts : ∀ port < 2, final.produced.at? ⟨expression.splitterAt fold, port⟩ =
      final'.produced.at? ⟨expression.splitterAt fold, port⟩) :
    Twins roster.actorOf roster'.actorOf ((expression.trainTrack fold).Offers
        (expression.splitterAt fold + 1) (expression.splitterAt fold + 1))
      (Placement.Serve (expression.fittedLayout fold).1) before before' := by
  refine ⟨fun port hport ↦ ?_, fun group ⟨p, hp, hgroup⟩ ↦ ?_⟩
  · have hgiven : ∀ j < 2, before.produced.at? ⟨expression.splitterAt fold, j⟩ =
        before'.produced.at? ⟨expression.splitterAt fold, j⟩ := by
      intro j hj
      have hsame := hparts j hj
      unfold Produced.at? at hsame ⊢
      rw [h.given, h'.given]
      exact hsame
    rcases hport with hfeatures | hlabel | ⟨hlow, hhigh⟩
    · rw [List.mem_singleton.mp hfeatures]
      exact hgiven 0 Nat.two_pos
    · rw [← Option.some.inj hlabel]
      exact hgiven 1 Nat.one_lt_two
    · exact absurd hhigh (Nat.not_lt.mpr hlow)
  · obtain ⟨j, leaf, hleaf, -, hown⟩ := Expression.exists_leaf_of_mem_layout hp
    obtain rfl := Option.some.inj (hown.symm.trans hgroup)
    exact ⟨_, h.fresh j leaf hleaf, h'.fresh j leaf hleaf,
      hdeterministic leaf (List.mem_of_getElem? hleaf)⟩

/-- Two runs in which the splitter of a fold has given the same training parts leave the same
instances of the fold's groups, if the actors of the pipeline are deterministic. -/
theorem instances_eq (h : Fitting g binding roster expression fold final before after)
    (h' : Fitting g' binding' roster' expression fold final' before' after')
    (hdeterministic : ∀ leaf ∈ expression.leaves, leaf.spec.behavior.Deterministic)
    (hparts : ∀ port < 2, final.produced.at? ⟨expression.splitterAt fold, port⟩ =
      final'.produced.at? ⟨expression.splitterAt fold, port⟩)
    {i : Nat} (hi : i < expression.leaves.length) :
    ∃ actor, final.world.instances[roster.actorOf ⟨Workflow.foldScope fold, i⟩]? = some actor ∧
      final'.world.instances[roster'.actorOf ⟨Workflow.foldScope fold, i⟩]? = some actor := by
  have hoffered := (expression.offered_layout .train (Workflow.foldScope fold)
    (expression.splitterAt fold + 1) 0 (expression.trainTrack fold)).1
  have hcount : 0 + expression.size .train ≤ (expression.fittedLayout fold).1.length :=
    Nat.le_of_eq ((Nat.zero_add _).trans (expression.length_fittedLayout fold).symm)
  have hend := (h.twins h' hdeterministic hparts).runsAll h.hosts h'.hosts hoffered hcount h.runs
    h'.runs
  obtain ⟨actor, hactor, hactor', -⟩ :=
    hend.actors ⟨Workflow.foldScope fold, i⟩ (Expression.exists_mem_layout hi _ _ _ _)
  exact ⟨actor, (h.kept i hi).trans hactor, (h'.kept i hi).trans hactor'⟩

end Moment.Fitting

/-! ### Evaluations of sessions -/

/-- The fit state of a group after a run. -/
def Staging.fit? (r : Staging ε σ) (group : GroupId) : Option σ :=
  (r.roster.member? group).bind fun member ↦ r.ended.2.instances[member.actor]?.map Instance.fit

theorem Staging.fit?_eq {r : Staging ε σ} {group : GroupId} {member : Member ε σ}
    (h : r.roster.member? group = some member) :
    r.fit? group = r.ended.2.instances[r.roster.actorOf group]?.map Instance.fit := by
  unfold fit?
  rw [h, Roster.actorOf_eq h]
  rfl

/-- Where a node is seen to end, nodes are executed. -/
theorem Staging.executes_of_ended {r : Staging ε σ} {id : NodeId}
    {outcome : Except (Halt FlowError) (List Payload)} (h : .ended id outcome ∈ r.events) :
    r.runner.executes = true := by
  by_contra hdraws
  unfold events at h
  rw [Runner.trace_of_draws hdraws] at h
  cases h

variable [Inhabited σ]

/-- A successful evaluation of a session, with actors that keep to themselves and fewer folds than
there are scopes. -/
structure Session.Evaluated (s : Session ε σ) (r : Staging ε σ) : Prop where
  built : s.build .eval = .ok r.graph
  staged : ∃ schedule w, r = s.staging .eval r.graph r.runner schedule w
  succeeded : ∃ report, r.ended.1 = .ok report
  isolated : ∀ node ∈ r.graph.nodes, node.spec.behavior.Isolated
  below : s.workflow.FoldsBelow .eval

namespace Session.Evaluated

variable {s : Session ε σ} {r : Staging ε σ}

theorem live (h : s.Evaluated r) : r.context.cancelled r.world.environment = false := by
  obtain ⟨schedule, w, hr⟩ := h.staged
  rw [hr]
  exact decide_eq_false (Nat.lt_irrefl _)

/-- The nodes are bound to new instances. -/
theorem exists_bound (h : s.Evaluated r) (hexecutes : r.runner.executes = true) :
    ∃ w, Roster.Bound r.graph.nodes .empty w r.context.binding r.roster r.world := by
  obtain ⟨schedule, w, hr⟩ := h.staged
  rcases Roster.engaged (Roster.sound_empty w) r.runner r.graph with ⟨-, hbound⟩ | ⟨hdraws, -⟩
  · rw [hr]
    exact ⟨w, hbound⟩
  · rw [hexecutes] at hdraws
    cases hdraws

theorem fits (h : s.Evaluated r) (hexecutes : r.runner.executes = true) :
    r.context.binding.Fits r.graph r.world := by
  obtain ⟨w, hbound⟩ := h.exists_bound hexecutes
  refine .of_isolated hbound fun id hid actor hactor ↦ ?_
  rcases hbound.made id actor hactor with hold | ⟨node, hnode, rfl⟩
  · have hnew := (hbound.of_mem_binding hid).resolve_left fun ⟨_, _, hmember, _⟩ ↦ nomatch hmember
    exact absurd (Array.getElem?_eq_some_iff.mp hold).1 (Nat.not_lt.mpr hnew)
  · exact h.isolated node hnode

/-- The nodes have run in the order of their numbers, and what was seen are the outputs they have
given. -/
theorem exists_runsAll (h : s.Evaluated r) (hexecutes : r.runner.executes = true) :
    ∃ final, RunsAll r.graph r.context.binding (List.range r.graph.nodes.length)
        ⟨.nothing, r.world⟩ final ∧
      r.ended.2.instances = final.world.instances ∧
      ∀ id outputs, final.produced id = some outputs ↔ .ended id (.ok outputs) ∈ r.events := by
  obtain ⟨producer, -, hcompiled⟩ := Workflow.graph_ok h.built
  obtain ⟨report, hreport⟩ := h.succeeded
  have hrun : Flow.result (r.runner.run r.graph r.context) r.world = (.ok report, r.ended.2) :=
    Prod.ext hreport rfl
  obtain ⟨final, all, hruns, hinstances, haccounts⟩ :=
    Runner.exists_runsAll (sound_of_build h.built)
      (Workflow.trainersJoined h.built h.below.fit) hexecutes (h.fits hexecutes) h.live hrun
  rw [hcompiled.order_eval] at hruns
  exact ⟨final, hruns, hinstances, haccounts.outputs⟩

/-- The pipeline of a fold has been fitted in a stretch of the run. -/
theorem exists_fitting (h : s.Evaluated r) (hexecutes : r.runner.executes = true)
    {evaluation : Evaluation ε σ} (hevaluation : s.workflow.evaluation = some evaluation)
    {fold : Nat} (hfold : fold < evaluation.folds) :
    ∃ final before after, Moment.Fitting r.graph r.context.binding r.roster
        s.workflow.pipeline.expression fold final before after ∧
      (∀ id outputs, .ended id (.ok outputs) ∈ r.events → final.produced id = some outputs) ∧
      ∀ i < s.workflow.pipeline.expression.leaves.length,
        r.fit? ⟨Workflow.foldScope fold, i⟩ = final.world.instances[r.roster.actorOf
          ⟨Workflow.foldScope fold, i⟩]?.map Instance.fit := by
  obtain ⟨producer, -, hcompiled⟩ := Workflow.graph_ok h.built
  obtain ⟨w, hbound⟩ := h.exists_bound hexecutes
  obtain ⟨final, hruns, hinstances, hproduced⟩ := h.exists_runsAll hexecutes
  have hfolds := h.below rfl evaluation hevaluation
  obtain ⟨before, after, hfitting⟩ :=
    hcompiled.exists_fitting hbound hevaluation hfolds hfold hruns
  refine ⟨final, before, after, hfitting, fun id outputs ↦ (hproduced id outputs).mpr,
    fun i hi ↦ ?_⟩
  obtain ⟨member, hmember, -⟩ := hcompiled.exists_member_of_leaf hbound hevaluation hfolds hfold
    (List.getElem?_eq_getElem hi)
  rw [Staging.fit?_eq hmember, hinstances]

end Session.Evaluated

namespace Session

variable {s : Session ε σ} {g : Graph ε σ} {evaluation : Evaluation ε σ}

/-- The folds of an evaluation do not leak: what is fitted for a fold is reached from the training
parts of its splitter only. So any two successful runs, also of sessions that share no more than the
pipeline, fit the groups of the fold to the same if the splitter gives the same training parts and
the actors of the pipeline are deterministic. -/
theorem folds_do_not_leak (hbuild : s.build .eval = .ok g)
    (hevaluation : s.workflow.evaluation = some evaluation)
    (hfolds : evaluation.folds < UInt32.size) :
    let e := s.workflow.pipeline.expression
    g.SealedFolds evaluation e.splitterAt e.metricAt ∧
    ∀ fold < evaluation.folds, ∀ (t : Session ε σ) (other : Evaluation ε σ) (r r' : Staging ε σ)
      (parts parts' : List Payload), s.Evaluated r → t.Evaluated r' →
        t.workflow.pipeline.expression = e → t.workflow.evaluation = some other →
        fold < other.folds → (∀ leaf ∈ e.leaves, leaf.spec.behavior.Deterministic) →
        .ended (e.splitterAt fold) (.ok parts) ∈ r.events →
        .ended (e.splitterAt fold) (.ok parts') ∈ r'.events → parts.take 2 = parts'.take 2 →
        ∀ entry ∈ g.groups, entry.1.scope = fold + 1 →
          ∃ fit, r.fit? entry.1 = some fit ∧ r'.fit? entry.1 = some fit := by
  intro e
  obtain ⟨producer, -, hcompiled⟩ := Workflow.graph_ok hbuild
  refine ⟨hcompiled.sealedFolds hevaluation hfolds, fun fold hfold t other r r' parts parts' hr hr'
    hpipeline hother hfold' hdeterministic hparts hparts' hsame entry hentry hscope ↦ ?_⟩
  obtain ⟨i, hi, hgroup⟩ : ∃ i < e.leaves.length, entry.1 = ⟨Workflow.foldScope fold, i⟩ := by
    rw [hcompiled.groups_eval hevaluation hfolds] at hentry
    obtain ⟨own, -, hentry⟩ := List.mem_flatMap.mp hentry
    obtain ⟨i, leaf, hleaf, rfl⟩ := exists_leaf_of_mem_groupsFrom hentry
    obtain rfl : own = fold := Nat.succ.inj hscope
    rw [Workflow.foldScope_of_lt (Nat.lt_trans hfold hfolds)]
    exact ⟨i, (List.getElem?_eq_some_iff.mp hleaf).1, rfl⟩
  obtain ⟨final, before, after, hfitting, hproduced, hfit⟩ :=
    hr.exists_fitting (Staging.executes_of_ended hparts) hevaluation hfold
  obtain ⟨final', before', after', hfitting', hproduced', hfit'⟩ :=
    hr'.exists_fitting (Staging.executes_of_ended hparts') hother hfold'
  rw [hpipeline] at hfitting' hfit'
  have hports : ∀ port < 2, final.produced.at? ⟨e.splitterAt fold, port⟩ =
      final'.produced.at? ⟨e.splitterAt fold, port⟩ := by
    intro port hport
    unfold Produced.at?
    rw [hproduced _ _ hparts, hproduced' _ _ hparts']
    change parts[port]? = parts'[port]?
    rw [← List.getElem?_take_of_lt hport, hsame, List.getElem?_take_of_lt hport]
  obtain ⟨actor, hactor, hactor'⟩ := hfitting.instances_eq hfitting' hdeterministic hports hi
  rw [hgroup, hfit i hi, hfit' i hi, hactor, hactor']
  exact ⟨actor.fit, rfl, rfl⟩

/-- A session whose folds are all fitted to the same parts, and tested on the given ones. -/
def trial (folds : Nat) (tested : List Payload) : Session Unit Payload :=
  Runtime.launch
    ⟨{ runners := [.sequential] }, .ofTables [("rows", ⟨["x", "y"], [[.int 1, .text "a"]]⟩)],
      .collecting⟩ 0
    { source := ⟨"rows", some "y"⟩
      pipeline := ⟨0, .mapper Distributed.keeper⟩
      evaluation := some
        { folds
          splitter := fun _ ↦
            { name := "parts"
              behavior := .pure fun _ ↦ .ok (.tuple (.unit :: .column [] :: tested))
              arity := ⟨2, 4⟩ }
          metric := { Builtin.collector with arity := ⟨2, 1⟩ }
          aggregator := fun folds ↦ { Builtin.collector with arity := ⟨folds, 1⟩ } } }

/-- Whether it is seen that a node gives such parts. -/
def givesParts (id : NodeId) : Event → Bool
  | .ended other (.ok (.unit :: .column [] :: _)) => other == id
  | _ => false

theorem exists_parts_of_any {events : List Event} {id : NodeId}
    (h : events.any (givesParts id) = true) :
    ∃ tested, .ended id (.ok (.unit :: .column [] :: tested)) ∈ events := by
  obtain ⟨event, hmem, hgives⟩ := List.any_eq_true.mp h
  unfold givesParts at hgives
  split at hgives
  · rw [eq_of_beq hgives] at hmem
    exact ⟨_, hmem⟩
  · cases hgives

/-- The actors of a trial keep to themselves, so its evaluations need only succeed. -/
theorem evaluated_trial {folds : Nat} (hfolds : folds < UInt32.size) {tested : List Payload}
    {g : Graph Unit Payload} (hbuild : (trial folds tested).build .eval = .ok g) {runner : Runner}
    {r : Staging Unit Payload}
    (hr : r = (trial folds tested).staging .eval g runner .inOrder (World.new ()))
    (hok : r.ended.1.isOk = true) : (trial folds tested).Evaluated r where
  built := hr ▸ hbuild
  staged := ⟨.inOrder, World.new (), by rw [hr]; rfl⟩
  succeeded := exists_eq_ok hok
  isolated := by
    rw [hr]
    obtain ⟨producer, hproducer, hcompiled⟩ := Workflow.graph_ok hbuild
    obtain rfl := Except.ok.inj hproducer
    refine hcompiled.isolated ⟨fun _ _ _ ↦ rfl, fun _ _ _ _ ↦ rfl⟩ (Behavior.isolated_pure _)
      (fun leaf hleaf ↦ ?_) fun evaluation hevaluation ↦ ?_
    · obtain rfl := List.mem_singleton.mp hleaf
      exact ⟨fun _ _ _ ↦ rfl, fun _ _ _ _ ↦ rfl⟩
    · obtain rfl := Option.some.inj hevaluation
      exact ⟨fun _ ↦ Behavior.isolated_pure _, Behavior.isolated_pure _, Behavior.isolated_pure _⟩
  below _ evaluation hevaluation := by
    rw [← Option.some.inj hevaluation]
    exact hfolds

/-- Tested on other parts, with more folds and by another runner, the second fold is fitted to the
same. -/
theorem folds_do_not_leak_trial :
    let s := trial 2 [.unit, .unit]
    let t := trial 3 [.column [], .unit]
    let e := s.workflow.pipeline.expression
    ∃ g evaluation r r' fit, s.build .eval = .ok g ∧ s.workflow.evaluation = some evaluation ∧
      g.SealedFolds evaluation e.splitterAt e.metricAt ∧ s.Evaluated r ∧ t.Evaluated r' ∧
      r.fit? ⟨2, 0⟩ = some fit ∧ r'.fit? ⟨2, 0⟩ = some fit := by
  intro s t e
  obtain ⟨g, hg⟩ := exists_eq_ok (by decide +kernel : (s.build .eval).isOk = true)
  obtain ⟨g', hg'⟩ := exists_eq_ok (by decide +kernel : (t.build .eval).isOk = true)
  have hfacts : ((s.build .eval).toOption.any fun g ↦
      let r := s.staging .eval g .sequential .inOrder (World.new ())
      g.groups.any (·.1 = ⟨2, 0⟩) && r.ended.1.isOk && r.events.any (givesParts 7)) = true := by
    decide +kernel
  have hfacts' : ((t.build .eval).toOption.any fun g ↦
      let r := t.staging .eval g (.distributed 2) .inOrder (World.new ())
      r.ended.1.isOk && r.events.any (givesParts 7)) = true := by
    decide +kernel
  rw [hg] at hfacts
  rw [hg'] at hfacts'
  simp only [Except.toOption, Option.any_some, Bool.and_eq_true] at hfacts hfacts'
  obtain ⟨⟨hgroup, hok⟩, hgives⟩ := hfacts
  obtain ⟨hok', hgives'⟩ := hfacts'
  obtain ⟨tested, hparts⟩ := exists_parts_of_any hgives
  obtain ⟨tested', hparts'⟩ := exists_parts_of_any hgives'
  obtain ⟨entry, hentry, hgroup⟩ := List.any_eq_true.mp hgroup
  have hgroup := of_decide_eq_true hgroup
  have hr := evaluated_trial (by decide) hg rfl hok
  have hr' := evaluated_trial (by decide) hg' rfl hok'
  obtain ⟨hsealed, hblind⟩ := folds_do_not_leak hg rfl (by decide)
  obtain ⟨fit, hfit, hfit'⟩ := hblind 1 (by decide) t _ _ _ _ _ hr hr' rfl rfl (by decide)
    (fun leaf hleaf ↦ by
      obtain rfl := List.mem_singleton.mp hleaf
      exact ⟨fun _ _ _ _ ↦ rfl, fun _ _ _ _ _ ↦ ⟨rfl, rfl⟩⟩) hparts hparts' rfl entry hentry
    (by rw [hgroup])
  rw [hgroup] at hfit hfit'
  exact ⟨g, _, _, _, fit, hg, rfl, hsealed, hr, hr', hfit, hfit'⟩

end Session

end Dataflow
