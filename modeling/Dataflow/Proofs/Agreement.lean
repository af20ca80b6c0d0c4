import Dataflow.Proofs.Joined
import Dataflow.Proofs.Scheduling

/-!
# The distributed runner agrees with the sequential one

However many workers there are and in whatever order tasks finish, a graph comes to the same as when
its nodes run one by one (`Distributed.run_agrees`). If the sequential run succeeds, every
distributed run gives the same output and leaves every instance as it does. If it fails, every
distributed run fails too, with the error of some node that could run and whose actor has raised it
(`Graph.Raises`).

The nodes that a distributed run has completed are each behind its dependencies
(`Distributed.result_turns`), so a successful sequential run can be rearranged to start with them,
and then with the next one (`Graph.Begun.split`): no node fails in one run that succeeds in the
other.
-/

set_option autoImplicit false
set_option relaxedAutoImplicit false

namespace Dataflow

variable {ε σ : Type}

/-! ### What is told does not matter -/

/-- A moment at which other messages have been told. -/
def Moment.noted (s : Moment ε σ) (journal : Array Message) : Moment ε σ :=
  ⟨s.produced, { s.world with journal }⟩

section Noted

variable {g : Graph ε σ} {binding : Binding} {s t now : Moment ε σ} {id : NodeId} {node : Node ε σ}
  {actor : InstanceId} {bound : Instance ε σ} {inputs : List Payload}

theorem Called.noted (h : Called g binding s id node actor bound inputs) (journal : Array Message) :
    Called g binding (s.noted journal) id node actor bound inputs :=
  ⟨h.node_eq, h.carries, h.actor_eq, h.bound_eq⟩

theorem Runs.noted (h : Runs g binding id s t) (journal : Array Message) :
    Runs g binding id (s.noted journal) (t.noted journal) := by
  cases h with
  | intro hcalled hwork => exact .intro (hcalled.noted journal) hwork

theorem RunsAll.noted {ids : List NodeId} (h : RunsAll g binding ids s t)
    (journal : Array Message) :
    RunsAll g binding ids (s.noted journal) (t.noted journal) := by
  induction h with
  | nil s => exact .nil _
  | cons hid hrest ih => exact .cons (hid.noted journal) ih

theorem Distributed.Fails.noted {e : FlowError} (h : Fails g binding now id e)
    (journal : Array Message) : Fails g binding (now.noted journal) id e := by
  obtain ⟨node, actor, bound, inputs, halt, hcalled, hwork, rfl⟩ := h
  exact ⟨node, actor, bound, inputs, halt, hcalled.noted journal, hwork, rfl⟩

/-! ### What an actor raises -/

/-- An instance raises an error, or crashes, at the work of a node: in training; or when it is
applied, or by giving other than the node's number of outputs. -/
def Node.Raises (node : Node ε σ) (bound : Instance ε σ) (env : Environment ε)
    (inputs : List Payload) (halt : Halt ActorError) : Prop :=
  match node.kind with
  | .trainer => ∃ data label, inputs = data ++ [label] ∧
      (bound.trained env data label).1 = .error halt
  | _ => bound.applied env node.arity.outputs inputs = .error halt

/-- A node can run, and its actor raises what is reported as an error of the run. -/
def Graph.Raises (g : Graph ε σ) (binding : Binding) (now : Moment ε σ) (id : NodeId)
    (e : FlowError) : Prop :=
  ∃ node actor bound inputs halt, Called g binding now id node actor bound inputs ∧
    node.Raises bound now.world.environment inputs halt ∧ e = Distributed.reported node.label halt

/-- A trainer has its label. -/
theorem Called.inputs_ne_nil (h : Called g binding now id node actor bound inputs) (hg : g.Sound)
    (htrainer : node.kind = .trainer) : inputs ≠ [] := by
  have hmem := List.mem_of_getElem? h.node_eq
  have hpos : 0 < node.arity.inputs := by
    rw [hg.wired.arity node hmem, htrainer]
    exact Nat.succ_pos _
  have hself := hg.wired.id_eq id node h.node_eq
  have hbound := hg.saturated node hmem 0 hpos
  rw [hself] at hbound
  obtain ⟨port, hport⟩ := Option.isSome_iff_exists.mp hbound
  have hinput : port ∈ g.inputs id := by
    unfold Graph.inputs
    rw [h.node_eq]
    exact List.mem_filterMap.mpr ⟨0, List.mem_range.mpr hpos, hport⟩
  rintro rfl
  have hnone : (g.inputs id).map now.produced.at? = [] := h.carries
  rw [List.map_eq_nil_iff.mp hnone] at hinput
  cases hinput

/-- A node that fails has had its error raised by its actor. -/
theorem Distributed.Fails.raises {e : FlowError} (h : Fails g binding now id e) (hg : g.Sound) :
    g.Raises binding now id e := by
  obtain ⟨node, actor, bound, inputs, halt, hcalled, hwork, rfl⟩ := h
  refine ⟨node, actor, bound, inputs, halt, hcalled, ?_, rfl⟩
  by_cases htrainer : node.kind = .trainer
  · obtain ⟨data, label, hinputs⟩ :=
      (List.eq_nil_or_concat inputs).resolve_left (hcalled.inputs_ne_nil hg htrainer)
    rw [List.concat_eq_append] at hinputs
    rw [hinputs, Node.work_trainer htrainer] at hwork
    unfold Node.Raises
    rw [htrainer]
    refine ⟨data, label, hinputs, ?_⟩
    cases htrained : (bound.trained now.world.environment data label).1 with
    | ok u => simp [htrained, Except.map] at hwork
    | error other => simpa [htrained, Except.map] using hwork
  · rw [Node.work_of_ne htrainer] at hwork
    unfold Node.Raises
    split
    · contradiction
    · exact hwork

end Noted

/-! ### Runs from start to end -/

namespace Distributed

/-- A world in which it has been told that a run has started and how large its task graph is. -/
def announced (workers : Nat) (g : Graph ε σ) (w : World ε σ) : World ε σ :=
  (w.told (.runStarted name g.mode g.nodes.length)).told (.tasksCompiled
    (TaskGraph.compile g).length (TaskGraph.compile g).dependencyPairs.length (max workers 1))

/-- A run takes a turn for each task, and reports what the sink has got. -/
theorem result_run (workers : Nat) (g : Graph ε σ) (context : RunContext ε) (w : World ε σ) :
    Flow.result (run workers g context) w =
      match Flow.result (turns g context (TaskGraph.compile g) (max workers 1)
          (TaskGraph.compile g).length (.start (TaskGraph.compile g))) (announced workers g w) with
      | (.ok s, after) =>
        (.ok (g.report name s.produced), after.told (.runCompleted name g.mode ⟨0⟩))
      | (.error h, after) => (.error h, after) := by
  simp only [run, announced, Flow.result_bind, Flow.result_tell]
  rcases Flow.result (turns g context _ _ _ _) _ with ⟨_ | s, after⟩ <;> rfl

section Inversion

variable {workers : Nat} {g : Graph ε σ} {context : RunContext ε} {w after : World ε σ}

/-- A run fails as its turns do. -/
theorem result_run_eq_error {halt : Halt FlowError} :
    Flow.result (run workers g context) w = (.error halt, after) ↔
      Flow.result (turns g context (TaskGraph.compile g) (max workers 1)
        (TaskGraph.compile g).length (.start (TaskGraph.compile g))) (announced workers g w) =
          (.error halt, after) := by
  rw [result_run]
  rcases Flow.result (turns g context _ _ _ _) _ with ⟨_ | s, last⟩ <;> simp

/-- A run that succeeds has taken a turn for each task. -/
theorem result_run_eq_ok {report : Report} :
    Flow.result (run workers g context) w = (.ok report, after) ↔
      ∃ s last, Flow.result (turns g context (TaskGraph.compile g) (max workers 1)
          (TaskGraph.compile g).length (.start (TaskGraph.compile g))) (announced workers g w) =
            (.ok s, last) ∧
        g.report name s.produced = report ∧ last.told (.runCompleted name g.mode ⟨0⟩) = after := by
  rw [result_run]
  rcases Flow.result (turns g context _ _ _ _) _ with ⟨_ | s, last⟩ <;> simp

end Inversion

section Agreement

variable {g : Graph ε σ} {binding : Binding} {start t u : Moment ε σ} {before : List NodeId}
  {failed : NodeId} {e : FlowError}

/-- A node that can run does not fail if all nodes can be run in the order of the graph. -/
theorem not_fails_of_runs (hg : g.Sound)
    (hfree : ∀ first second, first ≠ second → ¬ g.Precedes first second →
      ¬ g.Precedes second first → Independent g binding first second)
    (hbefore : g.Begun before) (hran : RunsAll g binding before start t)
    (hready : g.Ready before failed) (hall : RunsAll g binding g.order start u) :
    ¬ Fails g binding t failed e := by
  rintro ⟨node, actor, bound, inputs, halt, hcalled, hwork, -⟩
  obtain ⟨mid, hfirst, -⟩ := (hbefore.ready_snoc hready).split hg hfree hall
  obtain ⟨t', hran', hlast⟩ := RunsAll.append_iff.mp hfirst
  obtain rfl := hran.unique hran'
  cases hlast with
  | cons hruns hnil =>
    obtain ⟨outputs, hwork', -⟩ := hruns.work_eq_ok hcalled
    rw [hwork] at hwork'
    cases hwork'

/-- Nodes that have begun and are as many as there are nodes are all of them. -/
theorem mem_of_length_eq {all : List NodeId} (h : g.Begun all)
    (hlength : all.length = g.nodes.length)
    {id : NodeId} (hid : id < g.nodes.length) : id ∈ all := by
  by_contra hmissing
  have hsubset : id :: all ⊆ List.range g.nodes.length := by
    intro k hk
    rcases List.mem_cons.mp hk with rfl | hk
    · exact List.mem_range.mpr hid
    · exact List.mem_range.mpr (h.lt k hk)
  have hle := List.Nodup.length_le_of_subset (List.nodup_cons.mpr ⟨hmissing, h.nodup⟩) hsubset
  rw [List.length_cons, List.length_range] at hle
  omega

/-- A distributed run completes all nodes, as they can be run in the order of the graph, or it ends
with the error of a node that can run when others have. -/
theorem run_cases (hg : g.Sound) (hjoined : g.TrainersJoined) (workers : Nat)
    (context : RunContext ε) (w : World ε σ) (hfits : context.binding.Fits g w)
    (hlive : context.cancelled w.environment = false) :
    (∃ final after, RunsAll g context.binding g.order ⟨.nothing, w⟩ final ∧
      Flow.result (run workers g context) w = (.ok (g.report name final.produced), after) ∧
      after.instances = final.world.instances ∧ after.environment = final.world.environment) ∨
    ∃ before now failed e after, g.Begun before ∧
      RunsAll g context.binding before ⟨.nothing, w⟩ now ∧ g.Ready before failed ∧
      Fails g context.binding now failed e ∧
      Flow.result (run workers g context) w = (.error (.error e), after) := by
  have hrun := result_run workers g context w
  have hnoted : (⟨.nothing, announced workers g w⟩ : Moment ε σ).noted w.journal =
      ⟨.nothing, w⟩ := rfl
  have hfits' : context.binding.Fits g (announced workers g w) := (hfits.told _).told _
  have hturns := result_turns hg hfits' hlive (Nat.le_max_right workers 1)
    (follows_start hg context.binding (announced workers g w)) (Nat.zero_add _)
  dsimp only at hturns
  rw [TaskGraph.length_compile] at hrun
  rcases hturns with
    ⟨last, all, final, hbegun, hlength, hall, hproduced, hturns⟩ |
      ⟨before, now, failed, e, last, hbegun, hran, hready, hfails, hturns⟩
  · have horder := hbegun.eq_of_all hg (hfits.independent hg hjoined)
      (fun id hid ↦ mem_of_length_eq hbegun hlength hid) hall
    have hnow := horder.noted w.journal
    rw [hnoted] at hnow
    rw [hturns] at hrun
    refine .inl ⟨_, final.world.told (.runCompleted name g.mode ⟨0⟩), hnow, hrun.trans ?_, rfl, rfl⟩
    dsimp only
    rw [hproduced]
    rfl
  · have hnow := hran.noted w.journal
    rw [hnoted] at hnow
    rw [hturns] at hrun
    exact .inr ⟨before, _, failed, e, last, hbegun, hnow, hready, hfails.noted w.journal, hrun⟩

end Agreement

end Distributed

/-- A sequential run succeeds exactly if the nodes can be run in the order of the graph. -/
theorem Sequential.run_cases {g : Graph ε σ} (hg : g.Sound) (context : RunContext ε) (w : World ε σ)
    (hfits : context.binding.Fits g w) (hlive : context.cancelled w.environment = false) :
    (∃ final after, RunsAll g context.binding g.order ⟨.nothing, w⟩ final ∧
      Flow.result (run g context) w = (.ok (g.report name final.produced), after) ∧
      after.instances = final.world.instances ∧ after.environment = final.world.environment) ∨
    ((∀ final, ¬ RunsAll g context.binding g.order ⟨.nothing, w⟩ final) ∧
      ∃ halt after, Flow.result (run g context) w = (.error halt, after)) := by
  have hrun := result_run g context w
  generalize htold : w.told (.runStarted name g.mode g.nodes.length) = told at hrun
  have hnoted : (⟨.nothing, told⟩ : Moment ε σ).noted w.journal = ⟨.nothing, w⟩ := by
    rw [← htold]
    rfl
  have hfits' : context.binding.Fits g told := by
    rw [← htold]
    exact hfits.told _
  have hlive' : context.cancelled told.environment = false := by
    rw [← htold]
    exact hlive
  have hvisits : ∀ t : Moment ε σ,
      Flow.result (visitAll g context g.order .nothing) told = (.ok t.produced, t.world) ↔
        RunsAll g context.binding g.order ⟨.nothing, told⟩ t := fun t ↦
    result_visitAll_eq_ok (s := ⟨.nothing, told⟩) hg hfits' hlive' fun id hid ↦ hg.mem_order.mp hid
  rcases hvisited : Flow.result (visitAll g context g.order .nothing) told with ⟨halt | p, after⟩
  · rw [hvisited] at hrun
    refine .inr ⟨fun final hfinal ↦ ?_, halt, after, hrun⟩
    have hagain := hfinal.noted told.journal
    have hback : (⟨.nothing, w⟩ : Moment ε σ).noted told.journal = ⟨.nothing, told⟩ := by
      rw [← htold]
      rfl
    rw [hback, ← hvisits, hvisited] at hagain
    cases (Prod.mk.inj hagain).1
  · have hnow := ((hvisits ⟨p, after⟩).mp hvisited).noted w.journal
    rw [hnoted] at hnow
    rw [hvisited] at hrun
    exact .inl ⟨_, _, hnow, hrun, rfl, rfl⟩

namespace Distributed

/-- Every distributed run of a graph agrees with the sequential run, with any number of workers and
whichever tasks finish first. -/
theorem run_agrees {b : Builder ε σ} {g : Graph ε σ} (hreachable : b.Reachable)
    (hbuild : b.build = .ok g) (hjoined : g.TrainersJoined) (context : RunContext ε) (w : World ε σ)
    (hfits : context.binding.Fits g w) (hlive : context.cancelled w.environment = false) :
    (∀ report last, Flow.result (Sequential.run g context) w = (.ok report, last) →
      ∀ workers schedule, ∃ after,
        Flow.result (run workers g { context with schedule }) w =
          (.ok { report with runner := name }, after) ∧
        after.instances = last.instances ∧ after.environment = last.environment) ∧
    (∀ halt last, Flow.result (Sequential.run g context) w = (.error halt, last) →
      ∀ workers schedule, ∃ e after,
        Flow.result (run workers g { context with schedule }) w = (.error (.error e), after) ∧
        ∃ before now failed, g.Begun before ∧
          RunsAll g context.binding before ⟨.nothing, w⟩ now ∧ g.Ready before failed ∧
          g.Raises context.binding now failed e) := by
  have hg := Graph.sound_of_build hreachable hbuild
  have hfree := hfits.independent hg hjoined
  have hdistributed := fun (workers : Nat) (schedule : Schedule) ↦
    run_cases hg hjoined workers { context with schedule } w hfits hlive
  rcases Sequential.run_cases hg context w hfits hlive with
    ⟨final, last, hall, hsequential, hinstances, henvironment⟩ | ⟨hnone, halt, last, hsequential⟩
  · constructor
    · intro report last' hreport workers schedule
      rw [hsequential] at hreport
      obtain ⟨hok, rfl⟩ := Prod.mk.inj hreport
      obtain rfl := Except.ok.inj hok
      rcases hdistributed workers schedule with
        ⟨final', after, hall', hrun, hinstances', henvironment'⟩ |
          ⟨before, now, failed, e, after, hbefore, hran, hready, hfails, -⟩
      · obtain rfl := hall.unique hall'
        exact ⟨after, hrun, hinstances'.trans hinstances.symm,
          henvironment'.trans henvironment.symm⟩
      · exact absurd hfails (not_fails_of_runs hg hfree hbefore hran hready hall)
    · intro halt last' herror
      rw [hsequential] at herror
      cases (Prod.mk.inj herror).1
  · constructor
    · intro report last' hreport
      rw [hsequential] at hreport
      cases (Prod.mk.inj hreport).1
    · intro halt' last' herror workers schedule
      rcases hdistributed workers schedule with ⟨final, after, hall, -⟩ |
        ⟨before, now, failed, e, after, hbefore, hran, hready, hfails, hrun⟩
      · exact absurd hall (hnone final)
      · exact ⟨e, after, hrun, before, now, failed, hbefore, hran, hready, hfails.raises hg⟩

/-- An actor that keeps the label it was last trained with, and hands on its input. -/
def keeper : Spec Unit Payload where
  name := "keeper"
  stateful := true
  behavior :=
    { (Builtin.collector : Spec Unit Payload).behavior with
      train := fun _ label _ env ↦ (.ok (), label, env) }

theorem run_agrees_keeper :
    let flow : Workflow Unit Payload :=
      ⟨⟨"rows", some "y"⟩, ⟨0, .merged [.mapper keeper, .mapper keeper]⟩, none⟩
    let feed : Feed Unit Payload := .ofTables [("rows", ⟨["x", "y"], [[.int 1, .text "a"]]⟩)]
    ∃ g binding bound start report last, flow.graph feed .collecting .train = .ok g ∧
      Action.result (Roster.bind g.nodes .empty) (World.new ()) = ((binding, bound), start) ∧
      Flow.result (Sequential.run g ⟨binding, fun _ ↦ false, .inOrder⟩) start = (.ok report, last) ∧
      ∀ workers schedule, ∃ after,
        Flow.result (run workers g ⟨binding, fun _ ↦ false, schedule⟩) start =
          (.ok { report with runner := name }, after) ∧ after.instances = last.instances := by
  intro flow feed
  obtain ⟨g, hg⟩ := exists_eq_ok
    (by decide +kernel : (flow.graph feed .collecting .train).isOk = true)
  have hsucceeds : ((flow.graph feed .collecting .train).toOption.any fun g ↦
      let bound := Action.result (Roster.bind g.nodes .empty) (World.new ())
      (Flow.result (Sequential.run g ⟨bound.1.1, fun _ ↦ false, .inOrder⟩) bound.2).1.isOk)
      = true := by
    decide +kernel
  obtain ⟨binding, bound, start, hbind, hbound⟩ :=
    Roster.result_bind g.nodes (Roster.sound_empty (World.new () : World Unit Payload))
  rw [hg] at hsucceeds
  change (Flow.result (Sequential.run g ⟨(Action.result (Roster.bind g.nodes .empty)
    (World.new ())).1.1, fun _ ↦ false, .inOrder⟩) (Action.result (Roster.bind g.nodes .empty)
      (World.new ())).2).1.isOk = true at hsucceeds
  rw [hbind] at hsucceeds
  obtain ⟨report, hreport⟩ := exists_eq_ok hsucceeds
  have hnodes : ∀ node ∈ g.nodes, node.spec.behavior.Isolated := by
    obtain ⟨producer, hproducer, hcompiled⟩ := Workflow.graph_ok hg
    obtain rfl := Except.ok.inj hproducer
    have hkeeper : (keeper : Spec Unit Payload).behavior.Isolated :=
      ⟨fun _ _ _ ↦ rfl, fun _ _ _ _ ↦ rfl⟩
    refine hcompiled.isolated (Behavior.isolated_pure _) (Behavior.isolated_pure _)
      (fun leaf hleaf ↦ ?_) (fun evaluation hevaluation ↦ by cases hevaluation)
    have hcases : leaf = .mapper keeper ∨ leaf = .mapper (Builtin.concat 2) := by
      simpa [flow, Expression.merged, Expression.leaves, Expression.branchLeaves] using hleaf
    rcases hcases with rfl | rfl
    · exact hkeeper
    · exact Behavior.isolated_pure _
  have hfits := Binding.Fits.of_bound hbound (fun _ _ hactor ↦ by cases hactor) hnodes
  obtain ⟨b, hreachable, hbuild⟩ := Workflow.exists_reachable hg
  have hjoined := Workflow.trainersJoined hg fun heval ↦ by cases heval
  have hagree := (run_agrees hreachable hbuild hjoined
    ⟨binding, fun _ ↦ false, .inOrder⟩ start hfits rfl).1 report _ (Prod.ext hreport rfl)
  refine ⟨g, binding, bound, start, report, _, hg, hbind, Prod.ext hreport rfl,
    fun workers schedule ↦ ?_⟩
  obtain ⟨after, hrun, hinstances, -⟩ := hagree workers schedule
  exact ⟨after, hrun, hinstances⟩

end Distributed

end Dataflow
