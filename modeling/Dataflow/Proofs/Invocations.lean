import Dataflow.Proofs.ConcurrentTraces
import Dataflow.Proofs.CoupledSessions
import Dataflow.Proofs.Executions

/-!
# Invocations

A session that is invoked either refuses or runs a graph. What it runs is its `Staging`: the graph,
the roster that the run works on, the instances bound to the nodes, and the world in which the run
starts (`Session.staging?`). From there on the session has no say in the run. What is left of an
invocation is to keep of the roster what the mode lets it keep (`Session.keeping`).

`Session.invoked` says so of every invocation. A session that refuses is left as it was, except for
the graphs it keeps and the phase it is in. It refuses an application although it has the runner and
the graph only if the runner executes and a stateful group does not count as trained.
-/

set_option autoImplicit false
set_option relaxedAutoImplicit false

namespace Dataflow

variable {ε σ : Type}

/-- Every instance of a world is in another world as it was. -/
structure World.Kept (w v : World ε σ) : Prop where
  size_le : w.instances.size ≤ v.instances.size
  held : ∀ id < w.instances.size, v.instances[id]? = w.instances[id]?

namespace World

variable {w v u : World ε σ}

theorem Kept.of_instances_eq (h : v.instances = w.instances) : Kept w v where
  size_le := Nat.le_of_eq (congrArg Array.size h.symm)
  held _ _ := by rw [h]

theorem Quiet.kept (h : w.Quiet v) : Kept w v := .of_instances_eq h.instances

theorem Kept.trans (h : Kept w v) (h' : Kept v u) : Kept w u where
  size_le := Nat.le_trans h.size_le h'.size_le
  held id hid := (h'.held id (Nat.lt_of_lt_of_le hid h.size_le)).trans (h.held id hid)

theorem Kept.instances_eq_some (h : Kept w v) {id : InstanceId} {actor : Instance ε σ}
    (hactor : w.instances[id]? = some actor) : v.instances[id]? = some actor := by
  obtain ⟨hid, -⟩ := Array.getElem?_eq_some_iff.mp hactor
  rw [h.held id hid, hactor]

end World

namespace Roster

variable {roster bound : Roster ε σ} {w after : World ε σ} {nodes : List (Node ε σ)}
  {binding : Binding}

theorem Bound.world_kept (h : Bound nodes roster w binding bound after) : w.Kept after :=
  ⟨h.size_le, h.held⟩

/-- Nodes are bound to members that were there before or to new instances. -/
theorem Bound.of_mem_binding (h : Bound nodes roster w binding bound after) {id : InstanceId}
    (hid : id ∈ binding) :
    (∃ group member, roster.member? group = some member ∧ member.actor = id) ∨
      w.instances.size ≤ id := by
  obtain ⟨k, hk⟩ := List.getElem?_of_mem hid
  obtain ⟨hlt, -⟩ := List.getElem?_eq_some_iff.mp hk
  obtain ⟨node, hnode⟩ : ∃ node, nodes[k]? = some node :=
    ⟨_, List.getElem?_eq_getElem (h.length ▸ hlt)⟩
  cases hgroup : node.group with
  | none =>
    obtain ⟨actor, hactor, hle, -⟩ := h.plain k node hnode hgroup
    rw [Option.some.inj (hk.symm.trans hactor)]
    exact .inr hle
  | some group =>
    obtain ⟨member, hmember, hactor⟩ := h.grouped k node group hnode hgroup
    rw [Option.some.inj (hk.symm.trans hactor)]
    exact (h.added group member hmember).imp_left fun hold ↦ ⟨group, member, hold, rfl⟩

/-- A runner that executes gets all nodes bound, any other runner nothing. -/
theorem engaged (h : roster.Sound w) (runner : Runner) (g : Graph ε σ) :
    (runner.executes = true ∧ Bound g.nodes roster w (Action.result (roster.engage runner g) w).1.1
      (Action.result (roster.engage runner g) w).1.2 (Action.result (roster.engage runner g) w).2) ∨
    (runner.executes = false ∧ Action.result (roster.engage runner g) w = (([], roster), w)) := by
  unfold engage
  by_cases hexecutes : runner.executes = true
  · obtain ⟨binding, bound, after, hresult, hbound⟩ := result_bind g.nodes h
    rw [if_pos hexecutes, hresult]
    exact .inl ⟨hexecutes, hbound⟩
  · rw [if_neg hexecutes]
    exact .inr ⟨Bool.eq_false_iff.mpr hexecutes, rfl⟩

end Roster

/-- A run that is about to start. -/
structure Staging (ε σ : Type) where
  runner : Runner
  graph : Graph ε σ
  context : RunContext ε
  /-- The members that the nodes of groups are bound to. -/
  roster : Roster ε σ
  world : World ε σ

namespace Staging

/-- What the run gives, and the world after it. -/
def ended (r : Staging ε σ) : Except (Halt FlowError) Report × World ε σ :=
  Flow.result (r.runner.run r.graph r.context) r.world

/-- What is seen of the run. -/
def events (r : Staging ε σ) : List Event :=
  r.runner.trace r.graph r.context r.world

end Staging

namespace Session

/-- The roster on which a run in a mode works: an application uses the members of the session, any
other run starts without members. -/
def base (s : Session ε σ) : Mode → Roster ε σ
  | .apply => s.roster
  | _ => .empty

/-- The run of a graph in a mode. -/
def staging (s : Session ε σ) (mode : Mode) (g : Graph ε σ) (runner : Runner) (schedule : Schedule)
    (w : World ε σ) : Staging ε σ :=
  let engaged := Action.result ((s.base mode).engage runner g) w
  ⟨runner, g, s.context engaged.1.1 engaged.2 schedule, engaged.1.2, engaged.2⟩

/-- The roster of a session after a run in a mode. -/
def keeping (s : Session ε σ) (mode : Mode) (r : Staging ε σ) : Roster ε σ :=
  match mode with
  | .train =>
    match r.ended.1 with
    | .ok _ =>
      if r.runner.executes then s.roster.commit r.roster (r.graph.statefulGroups.map (·.1))
      else s.roster
    | .error _ => s.roster
  | .eval => s.roster
  | .apply => r.roster

/-- A training that succeeds on a runner that executes is adopted. -/
theorem keeping_train_of_ok (s : Session ε σ) {r : Staging ε σ} {report : Report}
    (hok : r.ended.1 = .ok report) (hexecutes : r.runner.executes = true) :
    s.keeping .train r = s.roster.commit r.roster (r.graph.statefulGroups.map Prod.fst) := by
  simp only [keeping, hok, hexecutes, if_true]

/-- A training that fails is not. -/
theorem keeping_train_of_error (s : Session ε σ) {r : Staging ε σ} {halt : Halt FlowError}
    (h : r.ended.1 = .error halt) : s.keeping .train r = s.roster := by
  simp only [keeping, h]

variable {s : Session ε σ} {mode : Mode} {runner : Option String} {schedule : Schedule}
  {w : World ε σ}

/-- A graph that may run is run as it is staged. -/
theorem result_runGraph (s : Session ε σ) (g : Graph ε σ) (found : Runner) (schedule : Schedule)
    (w : World ε σ)
    (hready : mode = .apply → found.executes = true → untrained? s.roster g = none) :
    let r := s.staging mode g found schedule w
    Action.result (s.runGraph g mode found schedule) w =
      ((r.ended.1, { s with roster := s.keeping mode r }), r.ended.2) := by
  intro r
  have hrunOn : Action.result (s.runOn g found (s.base mode) schedule) w =
      ((r.ended.1, r.roster), r.ended.2) := s.result_runOn g found (s.base mode) schedule w
  unfold runGraph keeping
  cases mode with
  | train =>
    change Action.result (s.runOn g found .empty schedule) w = _ at hrunOn
    rw [Action.result_bind, hrunOn]
    dsimp only
    cases r.ended.1 with
    | error halt => rfl
    | ok report =>
      by_cases hexecutes : found.executes = true
      · have hruns : r.runner.executes = true := hexecutes
        simp only [hexecutes, hruns, if_true]
        rfl
      · have hdraws : ¬ r.runner.executes = true := hexecutes
        simp only [if_neg hexecutes, if_neg hdraws]
        rfl
  | eval =>
    change Action.result (s.runOn g found .empty schedule) w = _ at hrunOn
    rw [Action.result_bind, hrunOn]
    rfl
  | apply =>
    have hpasses : (if found.executes then untrained? s.roster g else none) = none := by
      split_ifs with hexecutes
      · exact hready rfl hexecutes
      · rfl
    change Action.result (s.runOn g found s.roster schedule) w = _ at hrunOn
    simp only [hpasses]
    rw [Action.result_bind, hrunOn]
    rfl

/-- An application is refused if a stateful group does not count as trained. -/
theorem result_runGraph_untrained {g : Graph ε σ} {found : Runner} {e : FlowError}
    (hexecutes : found.executes = true) (huntrained : untrained? s.roster g = some e) :
    Action.result (s.runGraph g .apply found schedule) w = ((.error (.error e), s), w) := by
  simp only [runGraph, hexecutes, if_true, huntrained]
  rfl

theorem sound_base (s : Session ε σ) (h : s.roster.Sound w) (mode : Mode) :
    (s.base mode).Sound w := by
  cases mode with
  | train => exact Roster.sound_empty w
  | eval => exact Roster.sound_empty w
  | apply => exact h

/-- A run starts in the environment in which the session was asked for it. -/
theorem environment_staging (hsound : s.roster.Sound w) (mode : Mode) (g : Graph ε σ)
    (found : Runner) (schedule : Schedule) :
    (s.staging mode g found schedule w).world.environment = w.environment := by
  rcases Roster.engaged (s.sound_base hsound mode) found g with ⟨-, hbound⟩ | ⟨-, hengage⟩
  · exact hbound.environment
  · change (Action.result ((s.base mode).engage found g) w).2.environment = _
    rw [hengage]

/-- Only an application uses instances that were there before. -/
theorem le_of_mem_binding (s : Session ε σ) (hmode : mode ≠ .apply) {g : Graph ε σ}
    {found : Runner} {id : InstanceId}
    (hid : id ∈ (s.staging mode g found schedule w).context.binding) :
    w.instances.size ≤ id := by
  have hbase : s.base mode = .empty := by
    cases mode with
    | train => rfl
    | eval => rfl
    | apply => exact absurd rfl hmode
  change id ∈ (Action.result ((s.base mode).engage found g) w).1.1 at hid
  rw [hbase] at hid
  rcases Roster.engaged (Roster.sound_empty w) found g with ⟨-, hbound⟩ | ⟨-, hengage⟩
  · exact (hbound.of_mem_binding hid).resolve_left fun ⟨_, _, hmember, _⟩ ↦ nomatch hmember
  · rw [hengage] at hid
    cases hid

variable [Inhabited σ]

/-- The run that an invocation comes to, if it comes to a run. -/
def staging? (s : Session ε σ) (mode : Mode) (runner : Option String) (schedule : Schedule)
    (w : World ε σ) : Option (Staging ε σ) :=
  match s.runtime.registry.resolve runner with
  | .error _ => none
  | .ok found =>
    if mode = .eval ∧ s.workflow.evaluation.isNone then none
    else
      match Action.result (s.graph mode found.name) (w.told (.modeInvoked mode found.name)) with
      | ((.error _, _), _) => none
      | ((.ok g, _), start) =>
        if mode = .apply ∧ found.executes ∧ (untrained? s.roster g).isSome then none
        else some (s.staging mode g found schedule start)

/-- What an invocation comes to. -/
inductive Invoked (s : Session ε σ) (mode : Mode) (runner : Option String) (schedule : Schedule)
    (w : World ε σ) : Prop
  | refused {e : FlowError} {graphs : List ((Mode × String) × Graph ε σ)} {phase : Option Mode}
      {last : World ε σ} (hstaging : s.staging? mode runner schedule w = none)
      (hresult : Action.result (s.invoke mode runner schedule) w =
        ((.error (.error e), { s with graphs, phase }), last))
      (hquiet : w.Quiet last)
      (hreason : mode = .apply → ∀ found g, s.runtime.registry.resolve runner = .ok found →
        s.build .apply = .ok g → found.executes = true ∧ untrained? s.roster g = some e)
  | ran {r : Staging ε σ} {graphs : List ((Mode × String) × Graph ε σ)} {start : World ε σ}
      (hstaging : s.staging? mode runner schedule w = some r)
      (hresult : Action.result (s.invoke mode runner schedule) w =
        ((r.ended.1, { s with graphs, phase := some mode, roster := s.keeping mode r }),
          r.ended.2))
      (hrunner : s.runtime.registry.resolve runner = .ok r.runner)
      (hbuild : s.build mode = .ok r.graph) (hquiet : w.Quiet start)
      (hr : r = s.staging mode r.graph r.runner schedule start)
      (hready : mode = .apply → r.runner.executes = true → untrained? s.roster r.graph = none)

/-- A session that has the runner and the graph for a mode goes on to run the graph. -/
theorem result_invoke_of_graph {found : Runner} {g : Graph ε σ}
    {graphs : List ((Mode × String) × Graph ε σ)} {start : World ε σ}
    (hrunner : s.runtime.registry.resolve runner = .ok found)
    (hevaluates : ¬ (mode = .eval ∧ s.workflow.evaluation.isNone = true))
    (hgraph : Action.result (s.graph mode found.name) (w.told (.modeInvoked mode found.name)) =
      ((.ok g, { s with graphs }), start)) :
    Action.result (s.invoke mode runner schedule) w =
      Action.result
        (runGraph { s with graphs, phase := some mode } g mode found schedule) start := by
  simp only [invoke, hrunner, Action.result_bind, Action.result_tell, if_neg hevaluates, hgraph]

/-- A session that has the runner and the graph for a mode runs it, unless it is asked to apply
untrained actors. -/
theorem invoked_of_graph {found : Runner} {g : Graph ε σ}
    {graphs : List ((Mode × String) × Graph ε σ)} {start : World ε σ}
    (hrunner : s.runtime.registry.resolve runner = .ok found)
    (hevaluates : ¬ (mode = .eval ∧ s.workflow.evaluation.isNone = true))
    (hgraph : Action.result (s.graph mode found.name) (w.told (.modeInvoked mode found.name)) =
      ((.ok g, { s with graphs }), start))
    (hbuild : s.build mode = .ok g) (hquiet : w.Quiet start) :
    Invoked s mode runner schedule w := by
  have hinvoke : Action.result (s.invoke mode runner schedule) w = _ :=
    result_invoke_of_graph hrunner hevaluates hgraph
  by_cases huntrained : mode = .apply ∧ found.executes = true ∧
      (untrained? s.roster g).isSome = true
  · have hstaging : s.staging? mode runner schedule w = none := by
      simp only [staging?, hrunner, if_neg hevaluates, hgraph, if_pos huntrained]
    obtain ⟨rfl, hexecutes, hsome⟩ := huntrained
    obtain ⟨e, he⟩ := Option.isSome_iff_exists.mp hsome
    refine .refused hstaging (hinvoke.trans (result_runGraph_untrained hexecutes he)) hquiet ?_
    intro _ other g' hother hbuild'
    rw [hrunner] at hother
    rw [hbuild] at hbuild'
    rw [← Except.ok.inj hother, ← Except.ok.inj hbuild']
    exact ⟨hexecutes, he⟩
  · have hstaging : s.staging? mode runner schedule w =
        some (s.staging mode g found schedule start) := by
      simp only [staging?, hrunner, if_neg hevaluates, hgraph, if_neg huntrained]
    have hready : mode = .apply → found.executes = true → untrained? s.roster g = none := by
      intro hmode hexecutes
      rw [← Option.not_isSome_iff_eq_none]
      exact fun hsome ↦ huntrained ⟨hmode, hexecutes, hsome⟩
    exact .ran hstaging (hinvoke.trans (result_runGraph { s with graphs, phase := some mode } g
      found schedule start hready)) hrunner hbuild hquiet rfl hready

theorem invoked (hfaithful : s.Faithful) (mode : Mode) (runner : Option String)
    (schedule : Schedule) (w : World ε σ) : Invoked s mode runner schedule w := by
  cases hrunner : s.runtime.registry.resolve runner with
  | error e =>
    have hstaging : s.staging? mode runner schedule w = none := by simp only [staging?, hrunner]
    have hresult : Action.result (s.invoke mode runner schedule) w =
        ((.error (.error e), s), w) := by
      simp only [invoke, hrunner]
      rfl
    refine .refused hstaging hresult (.refl w) fun _ found g hfound ↦ ?_
    rw [hrunner] at hfound
    cases hfound
  | ok found =>
    have htold := World.Quiet.told w (.modeInvoked mode found.name)
    by_cases hevaluates : mode = .eval ∧ s.workflow.evaluation.isNone = true
    · have hstaging : s.staging? mode runner schedule w = none := by
        simp only [staging?, hrunner, if_pos hevaluates]
      have hresult : Action.result (s.invoke mode runner schedule) w =
          ((.error (.error (.incompleteDescriptor .evaluation)), s),
            (w.told (.modeInvoked mode found.name)).told
              (.modeUnavailable mode Component.evaluation.name)) := by
        simp only [invoke, hrunner, Action.result_bind, if_pos hevaluates]
        rfl
      refine .refused hstaging hresult (htold.trans (.told _ _)) fun hmode ↦ ?_
      rw [hmode] at hevaluates
      cases hevaluates.1
    · obtain ⟨graphs, start, hgraph, hquiet, -⟩ := result_graph hfaithful mode found.name
        (w.told (.modeInvoked mode found.name))
      cases hbuild : s.build mode with
      | error e =>
        rw [hbuild] at hgraph
        have hstaging : s.staging? mode runner schedule w = none := by
          simp only [staging?, hrunner, if_neg hevaluates, hgraph]
        have hresult : Action.result (s.invoke mode runner schedule) w =
            ((.error (.error e), { s with graphs }), start) := by
          simp only [invoke, hrunner, Action.result_bind, Action.result_tell,
            if_neg hevaluates, hgraph, Action.result_pure]
        refine .refused hstaging hresult (htold.trans hquiet) fun hmode _ g _ hg ↦ ?_
        rw [← hmode, hbuild] at hg
        cases hg
      | ok g =>
        rw [hbuild] at hgraph
        exact invoked_of_graph hrunner hevaluates hgraph hbuild (htold.trans hquiet)

/-- A graph that is built and may run is run as it is staged. -/
theorem exists_ran (hfaithful : s.Faithful) {found : Runner} {g : Graph ε σ}
    (hrunner : s.runtime.registry.resolve runner = .ok found)
    (hevaluates : ¬ (mode = .eval ∧ s.workflow.evaluation.isNone = true))
    (hbuild : s.build mode = .ok g)
    (hready : mode = .apply → found.executes = true → untrained? s.roster g = none)
    (schedule : Schedule) (w : World ε σ) :
    ∃ graphs start, w.Quiet start ∧
      let r := s.staging mode g found schedule start
      Action.result (s.invoke mode runner schedule) w =
        ((r.ended.1, { s with graphs, phase := some mode, roster := s.keeping mode r }),
          r.ended.2) := by
  obtain ⟨graphs, start, hgraph, hquiet, -⟩ := result_graph hfaithful mode found.name
    (w.told (.modeInvoked mode found.name))
  rw [hbuild] at hgraph
  exact ⟨graphs, start, (World.Quiet.told w _).trans hquiet,
    (result_invoke_of_graph hrunner hevaluates hgraph).trans
      (result_runGraph { s with graphs, phase := some mode } g found schedule start hready)⟩

/-- A call changes nothing of a session but what the session keeps: graphs, the phase and the
roster. -/
theorem exists_call_eq (hfaithful : s.Faithful) (c : Call) (w : World ε σ) :
    ∃ graphs phase roster, (Action.result (s.call c) w).1 = { s with graphs, phase, roster } := by
  cases c with
  | exportState order => exact ⟨s.graphs, s.phase, s.roster, rfl⟩
  | cancel => exact ⟨s.graphs, s.phase, s.roster, rfl⟩
  | invoke mode runner schedule =>
    change ∃ graphs phase roster, (Action.result (s.invoke mode runner schedule) w).1.2 = _
    cases invoked hfaithful mode runner schedule w with
    | @refused e graphs phase last hstaging hresult hquiet hreason =>
      rw [hresult]
      exact ⟨graphs, phase, s.roster, rfl⟩
    | @ran r graphs start hstaging hresult hrunner hbuild hquiet hr hready =>
      rw [hresult]
      exact ⟨graphs, some mode, s.keeping mode r, rfl⟩
  | loadState snapshot =>
    change ∃ graphs phase roster, (Action.result (s.loadState snapshot) w).1.2 = _
    cases loaded hfaithful snapshot w with
    | @refused e graphs last hbuild hquiet hkept hresult =>
      rw [hresult]
      exact ⟨graphs, s.phase, s.roster, rfl⟩
    | @failed g e graphs after start last hbuild hquiet hkept hload hresult =>
      rw [hresult]
      exact ⟨graphs, s.phase, after, rfl⟩
    | @completed g count graphs after start last hbuild hquiet hkept hload hresult =>
      rw [hresult]
      exact ⟨graphs, s.phase, after, rfl⟩

theorem build_call (hfaithful : s.Faithful) (c : Call) (w : World ε σ) (mode : Mode) :
    (Action.result (s.call c) w).1.build mode = s.build mode := by
  obtain ⟨graphs, phase, roster, hcall⟩ := exists_call_eq hfaithful c w
  rw [hcall]
  rfl

/-! ### What a run leaves alone -/

theorem sound_of_build {g : Graph ε σ} (h : s.build mode = .ok g) : g.Sound := by
  obtain ⟨b, hreachable, hbuild⟩ := Workflow.exists_reachable h
  exact Graph.sound_of_build hreachable hbuild

theorem trainless_of_build {g : Graph ε σ} (h : s.build .apply = .ok g) :
    ∀ node ∈ g.nodes, node.kind ≠ .trainer := by
  obtain ⟨producer, -, hcompiled⟩ := Workflow.graph_ok h
  exact hcompiled.kind_ne_trainer

/-- A run leaves every instance that was there before as it was: trainings and evaluations work on
new instances, and an application changes none. -/
theorem kept_ended (hsound : s.roster.Sound w) {g : Graph ε σ} (hbuild : s.build mode = .ok g)
    (found : Runner) (schedule : Schedule) :
    w.Kept (s.staging mode g found schedule w).ended.2 := by
  have hevolves := Runner.evolves_run (sound_of_build hbuild) found
    (s.staging mode g found schedule w).context (s.staging mode g found schedule w).world
  have hstaged : w.Kept (s.staging mode g found schedule w).world := by
    rcases Roster.engaged (s.sound_base hsound mode) found g with ⟨-, hbound⟩ | ⟨-, hengage⟩
    · exact hbound.world_kept
    · refine .of_instances_eq ?_
      change (Action.result ((s.base mode).engage found g) w).2.instances = _
      rw [hengage]
  by_cases hmode : mode = .apply
  · subst hmode
    exact hstaged.trans (.of_instances_eq
      (hevolves.instances_of_trainless (trainless_of_build hbuild)))
  · refine ⟨Nat.le_trans hstaged.size_le (Nat.le_of_eq hevolves.size.symm), fun id hid ↦ ?_⟩
    refine (hevolves.instances_of_free fun hmem ↦ ?_).trans (hstaged.held id hid)
    exact Nat.not_le_of_lt hid (s.le_of_mem_binding hmode hmem)

end Session

end Dataflow
