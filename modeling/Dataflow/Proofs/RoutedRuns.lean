import Dataflow.Proofs.Routing

/-!
# Runs route their payloads

Each visit of the sequential runner and each turn of the distributed runner makes one more routed
call, or ends the run (`Sequential.Served`, `Distributed.Served`). No node fails to start, and no turn
is stuck, because whatever a node depends on is recorded, with all its outputs. By induction all
calls of a run are routed (`Sequential.went_run`, `Distributed.went_run`), also those of the tasks
that are waited for when a run ends early. What is recorded at any point of a run are outputs given
in its calls (`Runner.Stores`).
-/

set_option autoImplicit false
set_option relaxedAutoImplicit false

namespace Dataflow

variable {ε σ : Type}

/-- The engine gives up by itself: it crashes, or it reports an error of its own. -/
inductive Halt.Internal : Halt FlowError → Prop
  | crash : Internal .crash
  | error (text : String) : Internal (.error (.internal text))

/-- How a run has gone that made these calls: they are routed, and if the engine has given up, an
actor has crashed in one of them. -/
structure Went {α : Type} (g : Graph ε σ) (binding : Binding) (start : World ε σ)
    (calls : List Handover) (result : Except (Halt FlowError) α) (after : World ε σ) : Prop where
  routes : Routes g binding start calls after
  blames : ∀ halt, result = .error halt → halt.Internal →
    ∃ call ∈ calls, call.outcome = .error .crash

/-- When a run has failed, it does not matter what it was to give. -/
theorem Went.failed {α β : Type} {g : Graph ε σ} {binding : Binding} {start after : World ε σ}
    {calls : List Handover} {halt : Halt FlowError}
    (h : Went g binding start calls (.error halt : Except (Halt FlowError) α) after) :
    Went g binding start calls (.error halt : Except (Halt FlowError) β) after :=
  ⟨h.routes, fun _ hother ↦ Except.error.inj hother ▸ h.blames halt rfl⟩

namespace Routes

variable {α : Type} {g : Graph ε σ} {start w after : World ε σ} {calls : List Handover}
  {p : Produced} {id : NodeId} {context : RunContext ε} {binding : Binding} {halt : Halt FlowError}

theorem went_ok (h : Routes g binding start calls after) (a : α) :
    Went g binding start calls (.ok a) after :=
  ⟨h, fun _ hhalt ↦ nomatch hhalt⟩

/-- The run ends because it was cancelled. -/
theorem went_cancelled (h : Routes g binding start calls after) :
    Went g binding start calls (.error (.error .cancelled) : Except (Halt FlowError) α) after := by
  refine ⟨h, fun halt hhalt hinternal ↦ ?_⟩
  obtain rfl := Except.error.inj hhalt
  cases hinternal

/-- The run ends because a node has failed. -/
theorem went_failed (h : Routes g binding start calls after) {call : Handover} (hcall : call ∈ calls)
    (houtcome : call.outcome = .error halt) :
    Went g binding start calls (.error halt : Except (Halt FlowError) α) after := by
  refine ⟨h, fun other hother hinternal ↦ ⟨call, hcall, ?_⟩⟩
  obtain rfl := Except.error.inj hother
  cases hinternal with
  | crash => exact houtcome
  | error text =>
    obtain ⟨front, node, hrouted⟩ := h.exists_routed hcall
    exact absurd houtcome (hrouted.external text)

/-- The run ends with an error of the engine because an actor has crashed. -/
theorem went_crashed (h : Routes g binding start calls after) {call : Handover}
    (hcall : call ∈ calls) (houtcome : call.outcome = .error .crash) :
    Went g binding start calls (.error halt : Except (Halt FlowError) α) after :=
  ⟨h, fun _ _ _ ↦ ⟨call, hcall, houtcome⟩⟩

/-- A node can be run when outputs are recorded of all nodes it depends on. -/
theorem exists_prepared (h : Routes g context.binding start calls w) (hg : g.Plumbed)
    (hcovers : context.binding.Covers g start) (hbacks : Backs calls p) (hid : id < g.nodes.length)
    (hbefore : ∀ other ∈ g.dependencies id, ∃ outputs, p other = some outputs) :
    ∃ node actor inputs, g.nodes[id]? = some node ∧ context.binding[id]? = some actor ∧
      p.Carries (g.inputs id) inputs ∧ prepare g context p node = .ok (actor, inputs) := by
  have hnode : g.nodes[id]? = some g.nodes[id] := List.getElem?_eq_getElem hid
  obtain ⟨actor, hactor, -⟩ := hcovers id hid
  obtain ⟨inputs, hcarries⟩ := exists_carries_inputs hg.toSound fun other hother ↦ by
    obtain ⟨outputs, houtputs⟩ := hbefore other hother
    exact h.delivered hbacks houtputs
  refine ⟨_, actor, inputs, hnode, hactor, hcarries, prepare_eq_ok.mpr ?_⟩
  rw [hg.wired.id_eq id _ hnode]
  exact ⟨hcarries, hactor⟩

end Routes

/-- If outputs are recorded of all nodes that were called, then also when those of one more call
are. -/
theorem Produced.exists_record {p : Produced} {calls : List Handover}
    (h : ∀ id ∈ calls.map Handover.node, ∃ outputs, p id = some outputs) (call : Handover)
    (outputs : List Payload) :
    ∀ id ∈ (calls ++ [call]).map Handover.node, ∃ given, p.record call.node outputs id = some given := by
  intro id hid
  by_cases hsame : id = call.node
  · exact ⟨outputs, hsame ▸ p.record_self id outputs⟩
  · rw [List.map_append, List.mem_append] at hid
    rw [p.record_of_ne hsame]
    exact h id (hid.resolve_right fun hlast ↦ hsame (List.mem_singleton.mp hlast))

/-! ### The sequential runner -/

namespace Sequential

variable {g : Graph ε σ} {context : RunContext ε} {start w : World ε σ} {calls : List Handover}
  {p : Produced} {id : NodeId}

/-- What a visit comes to that follows these calls: the run ends, or one more call has been made and
outputs of its node have been recorded. -/
inductive Served (g : Graph ε σ) (context : RunContext ε) (start : World ε σ)
    (calls : List Handover) (p : Produced) (id : NodeId) (w : World ε σ) : Prop
  | stopped {halt : Halt FlowError} {after : World ε σ}
      (hresult : Flow.result (visit g context p id) w = (.error halt, after))
      (hwent : Went g context.binding start (calls ++ handing.visit g context p id w)
        (.error halt : Except (Halt FlowError) Produced) after)
  | completed {call : Handover} {outputs : List Payload} {after : World ε σ}
      (hresult : Flow.result (visit g context p id) w = (.ok (p.record id outputs), after))
      (hhanded : handing.visit g context p id w = [call]) (hnode : call.node = id)
      (hroutes : Routes g context.binding start (calls ++ [call]) after)
      (hbacks : Backs (calls ++ [call]) (p.record id outputs))

theorem served (h : Routes g context.binding start calls w) (hg : g.Plumbed)
    (hcovers : context.binding.Covers g start) (hbacks : Backs calls p) (hid : id < g.nodes.length)
    (hbefore : ∀ other ∈ g.dependencies id, ∃ outputs, p other = some outputs)
    (hfresh : id ∉ calls.map Handover.node) : Served g context start calls p id w := by
  by_cases hcancelled : context.cancelled w.environment = true
  · have hnone : handing.visit g context p id w = [] :=
      handing.visit_of_cancelled g hcancelled p id
    refine .stopped (result_visit_of_cancelled g hcancelled p id) ?_
    rw [hnone, List.append_nil]
    exact (h.told _).went_cancelled
  rw [Bool.not_eq_true] at hcancelled
  obtain ⟨node, actor, inputs, hnode, hactor, hcarries, hready⟩ :=
    h.exists_prepared hg hcovers hbacks hid hbefore
  obtain ⟨call, hcall, rfl, houtcome, hroutes⟩ := h.hand hg hcovers hbacks hnode hactor hcarries hfresh
  have hhanded : handing.visit g context p call.node w = [call] := by
    rw [handing.visit_of_ready hcancelled hnode hready, handing_start, handing_work, hcall,
      List.nil_append]
  have hmem : call ∈ calls ++ [call] := List.mem_append_right _ List.mem_cons_self
  rcases hexecute : Action.result (execute node actor inputs) w with ⟨outcome, last⟩
  have hresult := result_visit_of_ready hcancelled hnode hready
  rw [hexecute] at houtcome hroutes hresult
  rcases outcome with (e | _) | outputs
  · exact .stopped hresult (hhanded ▸ (hroutes.told _).went_failed hmem houtcome)
  · exact .stopped hresult (hhanded ▸ hroutes.went_failed hmem houtcome)
  · exact .completed hresult hhanded rfl hroutes ((hbacks.append [call]).record hmem houtcome)

/-- As nodes are visited in the order of the graph, one routed call is made for each. -/
theorem went_visitAll (hg : g.Plumbed) (hcovers : context.binding.Covers g start)
    {ids back : List NodeId} (h : Routes g context.binding start calls w) (hbacks : Backs calls p)
    (horder : g.order = calls.map Handover.node ++ ids ++ back)
    (hrecorded : ∀ id ∈ calls.map Handover.node, ∃ outputs, p id = some outputs) :
    let ended := Flow.result (visitAll g context ids p) w
    let all := calls ++ handing.visitAll g context ids p w
    Went g context.binding start all ended.1 ended.2 ∧ ∀ q, ended.1 = .ok q → Backs all q := by
  dsimp only
  induction ids generalizing calls p w with
  | nil =>
    rw [Observer.visitAll, List.append_nil]
    exact ⟨h.went_ok p, fun q hq ↦ Except.ok.inj hq ▸ hbacks⟩
  | cons id rest ih =>
    rw [List.append_assoc, List.cons_append] at horder
    obtain ⟨hid, hfresh, hbefore⟩ := hg.front_of_order horder
    rw [visitAll, Flow.result_bind, Observer.visitAll]
    cases served h hg hcovers hbacks hid (fun other hother ↦ hrecorded other (hbefore other hother))
      hfresh with
    | stopped hresult hwent =>
      rw [hresult, List.append_nil]
      exact ⟨hwent, fun q hq ↦ by cases hq⟩
    | @completed call outputs after hresult hhanded hnode hroutes hbacks =>
      subst hnode
      rw [hresult, hhanded, ← List.append_assoc]
      refine ih hroutes hbacks ?_ (p.exists_record hrecorded call outputs)
      rw [horder, List.map_append, List.append_assoc, List.append_assoc]
      rfl

end Sequential

/-! ### The distributed runner -/

namespace Distributed

variable {g : Graph ε σ} {context : RunContext ε} {start w : World ε σ} {calls : List Handover}
  {workers : Nat} {s : Progress ε σ}

/-- Tasks are those of their nodes, on the instances bound to them, with inputs that were recorded. -/
def Supplied (g : Graph ε σ) (binding : Binding) (p : Produced) (jobs : List (Job ε σ)) : Prop :=
  ∀ job ∈ jobs, g.nodes[job.node.id]? = some job.node ∧ binding[job.node.id]? = some job.actor ∧
    p.Carries (g.inputs job.node.id) job.inputs

/-- Waiting for tasks in flight makes routed calls. -/
theorem routes_drain (hg : g.Plumbed) (schedule : Schedule) {binding : Binding}
    (hcovers : binding.Covers g start) {p : Produced} {jobs : List (Job ε σ)} (h : Routes g binding start calls w)
    (hbacks : Backs calls p) (hjobs : Supplied g binding p jobs)
    (honce : (calls.map Handover.node ++ jobs.map fun job ↦ job.node.id).Nodup) :
    Routes g binding start (calls ++ handing.drain schedule jobs w)
      (Action.result (drain schedule jobs) w).2 := by
  induction jobs generalizing calls w with
  | nil =>
    rw [Observer.drain, List.append_nil]
    exact h
  | cons job rest ih =>
    have hrest : Supplied g binding p rest :=
      fun other hother ↦ hjobs other (List.mem_cons_of_mem _ hother)
    rw [drain, Observer.drain]
    split
    · exact ih h hbacks hrest (honce.sublist ((List.sublist_cons_self _ _).append_left _))
    obtain ⟨hnode, hactor, hcarries⟩ := hjobs job List.mem_cons_self
    have hfresh : job.node.id ∉ calls.map Handover.node := notMem_front_of_nodup honce
    obtain ⟨call, hcall, hself, houtcome, hroutes⟩ :=
      h.hand hg hcovers hbacks hnode hactor hcarries hfresh
    rw [List.map_cons, List.append_cons, ← hself] at honce
    rw [handing_work, hcall, ← List.append_assoc, Action.result_bind]
    refine ih hroutes (hbacks.append _) hrest ?_
    rw [List.map_append]
    exact honce

/-- Where the loop stands after these calls: they are those of the nodes that have completed, and
what they gave is recorded. -/
structure Stands (g : Graph ε σ) (context : RunContext ε) (start : World ε σ)
    (calls : List Handover) (s : Progress ε σ) (w : World ε σ) : Prop where
  routes : Routes g context.binding start calls w
  backs : Backs calls s.produced
  tallied : Tallied g s (calls.map Handover.node)
  recorded : ∀ id ∈ calls.map Handover.node, ∃ outputs, s.produced id = some outputs
  supplied : Supplied g context.binding s.produced s.running

/-- What is asked of a task that is started. -/
theorem job_eq_ok_iff {p : Produced} {id : NodeId} {task : Job ε σ} :
    job g context p id = .ok task ↔
      g.nodes[id]? = some task.node ∧ prepare g context p task.node = .ok (task.actor, task.inputs) := by
  unfold job
  cases hnode : g.nodes[id]? with
  | none => simp [throw, throwThe, MonadExceptOf.throw]
  | some node =>
    rw [Option.some.injEq]
    cases hready : prepare g context p node with
    | error e =>
      simp only [hready, bind, Except.bind]
      refine iff_of_false (fun h ↦ nomatch h) ?_
      rintro ⟨rfl, htask⟩
      cases hready.symm.trans htask
    | ok ready =>
      obtain ⟨actor, inputs⟩ := ready
      simp only [hready, bind, Except.bind, pure, Except.pure, Except.ok.injEq]
      constructor
      · rintro rfl
        exact ⟨rfl, hready⟩
      · rintro ⟨rfl, htask⟩
        obtain ⟨rfl, rfl⟩ := Prod.mk.inj (Except.ok.inj (hready.symm.trans htask))
        rfl

theorem stands_start (hg : g.Plumbed) (context : RunContext ε) (w : World ε σ) :
    Stands g context w [] (.start (TaskGraph.compile g)) w where
  routes := .refl g context.binding w
  backs _ _ h := nomatch h
  tallied := tallied_start hg.toValid
  recorded _ h := nomatch h
  supplied _ h := nomatch h

namespace Stands

theorem announced (h : Stands g context start calls s w) (workers : Nat) :
    Stands g context start calls s (announced workers g w) :=
  ⟨(h.routes.told _).told _, h.backs, h.tallied, h.recorded, h.supplied⟩

theorem once (h : Stands g context start calls s w) :
    (calls.map Handover.node ++ s.running.map fun job ↦ job.node.id).Nodup := by
  refine List.nodup_append.mpr ⟨h.routes.once, (List.nodup_append.mp h.tallied.nodup).2.1,
    fun id hid other hother hsame ↦ ?_⟩
  obtain ⟨job, hjob, rfl⟩ := List.mem_map.mp hother
  exact (h.tallied.ready_running hjob).fresh (hsame ▸ hid)

/-- The first task of the queue can be started. -/
theorem exists_job (h : Stands g context start calls s w) (hg : g.Plumbed)
    (hcovers : context.binding.Covers g start) {rank : Nat} {id : NodeId} {rest : ReadyQueue}
    (hqueue : s.ready = (rank, id) :: rest) :
    ∃ task, job g context s.produced id = .ok task ∧
      Stands g context start calls { s with ready := rest, running := s.running ++ [task] } w := by
  have hready := h.tallied.ready_head hqueue
  obtain ⟨node, actor, inputs, hnode, hactor, hcarries, hprepare⟩ :=
    h.routes.exists_prepared hg hcovers h.backs hready.lt
      fun other hother ↦ h.recorded other (hready.ready other hother)
  obtain rfl : node.id = id := hg.wired.id_eq id node hnode
  refine ⟨⟨node, actor, inputs⟩, job_eq_ok_iff.mpr ⟨hnode, hprepare⟩, h.routes, h.backs,
    h.tallied.starts hqueue _ rfl, h.recorded, fun job hjob ↦ ?_⟩
  rcases List.mem_append.mp hjob with hjob | hjob
  · exact h.supplied job hjob
  · rw [List.mem_singleton.mp hjob]
    exact ⟨hnode, hactor, hcarries⟩

/-- Starting tasks is never refused. -/
theorem filling (h : Stands g context start calls s w) (hg : g.Plumbed)
    (hcovers : context.binding.Covers g start) {started : List (Job ε σ)} {filled : Progress ε σ}
    {fault : Option FlowError} (hfilling : Filling g context workers s started filled fault) :
    fault = none ∧ (filled.ready = [] ∨ workers ≤ filled.running.length) ∧
      Stands g context start calls filled w := by
  induction hfilling with
  | full hfull => exact ⟨rfl, hfull, h⟩
  | starts hidle hqueue hjob hrest ih =>
    obtain ⟨task, htask, hstands⟩ := h.exists_job hg hcovers hqueue
    obtain rfl := Except.ok.inj (hjob.symm.trans htask)
    exact ih hstands
  | refused hqueue hjob =>
    obtain ⟨task, htask, -⟩ := h.exists_job hg hcovers hqueue
    cases hjob.symm.trans htask

/-- The run ends, once the tasks in flight have been waited for. -/
theorem drains (h : Stands g context start calls s w) (hg : g.Plumbed)
    (hcovers : context.binding.Covers g start) :
    Routes g context.binding start (calls ++ handing.drain context.schedule s.running w)
      (Action.result (drain context.schedule s.running) w).2 :=
  routes_drain hg context.schedule hcovers h.routes h.backs h.supplied h.once

/-- A task in flight is executed: one more routed call, after which the others can still be waited
for. -/
theorem ends (h : Stands g context start calls s w) (hg : g.Plumbed)
    (hcovers : context.binding.Covers g start) {position : Nat} {ended : Job ε σ}
    (hended : s.running[position]? = some ended) :
    ∃ call, ended.node.handed ended.actor ended.inputs w = [call] ∧ call.node = ended.node.id ∧
      call.outcome = (Action.result (execute ended.node ended.actor ended.inputs) w).1 ∧
      Routes g context.binding start (calls ++ [call])
        (Action.result (execute ended.node ended.actor ended.inputs) w).2 ∧
      Routes g context.binding start
        (calls ++ call :: handing.drain context.schedule (s.running.eraseIdx position)
          (Action.result (execute ended.node ended.actor ended.inputs) w).2)
        (Action.result (drain context.schedule (s.running.eraseIdx position))
          (Action.result (execute ended.node ended.actor ended.inputs) w).2).2 := by
  have hmem := List.mem_of_getElem? hended
  obtain ⟨hnode, hactor, hcarries⟩ := h.supplied ended hmem
  obtain ⟨call, hcall, hself, houtcome, hroutes⟩ :=
    h.routes.hand hg hcovers h.backs hnode hactor hcarries (h.tallied.ready_running hmem).fresh
  refine ⟨call, hcall, hself, houtcome, hroutes, ?_⟩
  rw [List.append_cons]
  refine routes_drain hg context.schedule hcovers hroutes (h.backs.append _)
    (fun job hjob ↦ h.supplied job (List.mem_of_mem_eraseIdx hjob)) ?_
  obtain ⟨hposition, rfl⟩ := List.getElem?_eq_some_iff.mp hended
  have hperm := ((List.getElem_cons_eraseIdx_perm hposition).map (·.node.id)).append_left
    (calls.map Handover.node)
  rw [List.map_append, List.append_assoc]
  change (_ ++ call.node :: _).Nodup
  rw [hself]
  exact hperm.nodup_iff.mpr h.once

/-- The outputs of a task that has ended are recorded, and its dependents are released. -/
theorem completes (h : Stands g context start calls s w) (hg : g.Plumbed) {position : Nat}
    {ended : Job ε σ} (hended : s.running[position]? = some ended) {call : Handover}
    (hself : call.node = ended.node.id) {outputs : List Payload}
    (houtcome : call.outcome = .ok outputs) {after : World ε σ}
    (hroutes : Routes g context.binding start (calls ++ [call]) after) :
    Stands g context start (calls ++ [call])
      (complete (TaskGraph.compile g) { s with running := s.running.eraseIdx position }
        ended.node.id outputs) after := by
  have hmem : call ∈ calls ++ [call] := List.mem_append_right _ List.mem_cons_self
  have hfresh := (h.tallied.ready_running (List.mem_of_getElem? hended)).fresh
  have hreleased := h.tallied.released hg.toValid hended outputs
  have hproduced : (complete (TaskGraph.compile g) { s with running := s.running.eraseIdx position }
      ended.node.id outputs).produced = s.produced.record ended.node.id outputs :=
    hreleased.produced
  refine ⟨hroutes, ?_, ?_, ?_, fun job hjob ↦ ?_⟩
  · rw [hproduced, ← hself]
    exact (h.backs.append [call]).record hmem houtcome
  · rw [List.map_append, List.map_singleton, hself]
    exact h.tallied.complete hg.toValid hended outputs
  · rw [hproduced, ← hself]
    exact s.produced.exists_record h.recorded call outputs
  · rw [hreleased.running] at hjob
    have hrunning := List.mem_of_mem_eraseIdx hjob
    obtain ⟨hnode, hactor, hcarries⟩ := h.supplied job hrunning
    refine ⟨hnode, hactor, hcarries.congr fun port hport ↦ ?_⟩
    have hbefore := (h.tallied.ready_running hrunning).ready _
      (Graph.mem_dependencies_of_mem_inputs hport)
    have hne : port.node ≠ ended.node.id := fun hsame ↦ hfresh (hsame ▸ hbefore)
    rw [hproduced, s.produced.record_of_ne hne]

end Stands

/-- What a turn comes to that follows these calls: the run ends, or one more call has been made and
the loop goes on. -/
inductive Served (g : Graph ε σ) (context : RunContext ε) (start : World ε σ) (workers : Nat)
    (calls : List Handover) (s : Progress ε σ) (w : World ε σ) : Prop
  | stopped {halt : Halt FlowError} {after : World ε σ}
      (hresult : Flow.result (turn g context (TaskGraph.compile g) workers s) w =
        (.error halt, after))
      (hwent : Went g context.binding start (calls ++ handing.turn g context workers s w)
        (.error halt : Except (Halt FlowError) (Progress ε σ)) after)
  | completed {call : Handover} {next : Progress ε σ} {after : World ε σ}
      (hresult : Flow.result (turn g context (TaskGraph.compile g) workers s) w = (.ok next, after))
      (hhanded : handing.turn g context workers s w = [call])
      (hnext : Stands g context start (calls ++ [call]) next after)

/-- The task that the schedule names has finished: the run goes on exactly if the task has given
outputs and the run is not seen to be cancelled. -/
theorem Stands.served_of_ended {filled : Progress ε σ}
    (h : Stands g context start calls filled w) (hg : g.Plumbed)
    (hcovers : context.binding.Covers g start)
    (hfill : fill g context workers s.ready.length s = (filled, none)) {started : List (Job ε σ)}
    (hrunning : filled.running = s.running ++ started)
    (hlive : context.cancelled w.environment = false) {position : Nat}
    (hposition : context.schedule.next filled.completed % filled.running.length = position)
    {ended : Job ε σ} (hended : filled.running[position]? = some ended) :
    Served g context start workers calls s w := by
  obtain ⟨call, hcall, hself, houtcome, hroutes, hdrained⟩ := h.ends hg hcovers hended
  rcases hexecute : Action.result (execute ended.node ended.actor ended.inputs) w with
    ⟨outcome, after⟩
  obtain ⟨more, hhanded, hclosed⟩ := handing.closed_turn (TaskGraph.compile g) hfill hrunning hlive
    hposition hended hexecute
  rw [hexecute] at houtcome hroutes hdrained
  rw [Observer.starts_eq_nil handing_start, List.nil_append, handing_work, hcall] at hhanded
  have hmem : ∀ more, call ∈ calls ++ call :: more := fun more ↦
    List.mem_append_right _ List.mem_cons_self
  generalize hresult : Flow.result (turn g context (TaskGraph.compile g) workers s) w = result
    at hclosed
  cases hclosed with
  | noticed hnoticed => exact .stopped hresult (hhanded ▸ (hdrained.told _).went_cancelled)
  | failed hunnoticed =>
    exact .stopped hresult (hhanded ▸ (hdrained.told _).went_failed (hmem _) houtcome)
  | crashed hunnoticed =>
    exact .stopped hresult (hhanded ▸ hdrained.went_crashed (hmem _) houtcome)
  | completed hunnoticed =>
    rw [List.append_nil] at hhanded
    exact .completed hresult hhanded (h.completes hg hended hself houtcome hroutes)

theorem Stands.served (h : Stands g context start calls s w) (hg : g.Plumbed)
    (hcovers : context.binding.Covers g start) (hworkers : 1 ≤ workers)
    (hmissing : calls.length < g.nodes.length) : Served g context start workers calls s w := by
  obtain ⟨started, filled, fault, hfill, hfilling⟩ := exists_filling g context workers s
  obtain ⟨rfl, hfull, hstands⟩ := h.filling hg hcovers hfilling
  have hrunning := (hfilling.filled hg.toValid h.tallied).running
  by_cases hcancelled : context.cancelled w.environment = true
  · have hresult := result_turn_of_cancelled (TaskGraph.compile g) hfill hcancelled
    have hhanded := handing.turn_of_cancelled hfill hrunning hcancelled
    rw [Observer.starts_eq_nil handing_start, List.nil_append] at hhanded
    exact .stopped hresult (hhanded ▸ ((hstands.drains hg hcovers).told _).went_cancelled)
  rw [Bool.not_eq_true] at hcancelled
  -- a node is missing, so some task is in flight
  have hshort : (calls.map Handover.node).length < g.nodes.length := by rwa [List.length_map]
  obtain ⟨id, hid, hnone⟩ := exists_notMem_of_length_lt hshort
  have hpos := hstands.tallied.running_pos hg.toValid hworkers hfull hid hnone
  have hlt := Nat.mod_lt (context.schedule.next filled.completed) hpos
  exact hstands.served_of_ended hg hcovers hfill hrunning hcancelled rfl
    (List.getElem?_eq_getElem hlt)

/-- In every turn that succeeds one routed call is made. -/
theorem went_turns (hg : g.Plumbed) (hcovers : context.binding.Covers g start)
    (hworkers : 1 ≤ workers) {left : Nat} (h : Stands g context start calls s w)
    (hleft : calls.length + left ≤ g.nodes.length) :
    let ended := Flow.result (turns g context (TaskGraph.compile g) workers left s) w
    let all := calls ++ handing.turns g context (TaskGraph.compile g) workers left s w
    Went g context.binding start all ended.1 ended.2 ∧
      ∀ last, ended.1 = .ok last → Backs all last.produced := by
  dsimp only
  induction left generalizing calls s w with
  | zero =>
    rw [Observer.turns, List.append_nil]
    exact ⟨h.routes.went_ok s, fun last hlast ↦ Except.ok.inj hlast ▸ h.backs⟩
  | succ left ih =>
    rw [turns, Flow.result_bind, Observer.turns]
    cases h.served hg hcovers hworkers (by omega) with
    | stopped hresult hwent =>
      rw [hresult, List.append_nil]
      exact ⟨hwent, fun last hlast ↦ by cases hlast⟩
    | completed hresult hhanded hnext =>
      rw [hresult, hhanded, ← List.append_assoc]
      refine ih hnext ?_
      rw [List.length_append, List.length_singleton]
      omega

end Distributed

/-! ### Runs -/

/-- How a run of visits goes. -/
theorem Sequential.went_run {g : Graph ε σ} {context : RunContext ε} {w : World ε σ}
    (hg : g.Plumbed) (hcovers : context.binding.Covers g w) :
    Went g context.binding w (handovers g context w) (Flow.result (run g context) w).1
      (Flow.result (run g context) w).2 := by
  have horder : g.order = ([] : List Handover).map Handover.node ++ g.order ++ [] :=
    (List.append_nil _).symm
  obtain ⟨hwent, -⟩ := went_visitAll hg hcovers
    ((Routes.refl g context.binding w).told (.runStarted name g.mode g.nodes.length))
    (.nothing []) horder (fun _ hid ↦ nomatch hid)
  rw [result_run]
  rcases hresult : Flow.result (visitAll g context g.order .nothing)
    (w.told (.runStarted name g.mode g.nodes.length)) with ⟨halt | p, last⟩
  · rw [hresult] at hwent
    exact hwent.failed
  · rw [hresult] at hwent
    exact (hwent.routes.told _).went_ok _

/-- How a run of turns goes. -/
theorem Distributed.went_run {g : Graph ε σ} {context : RunContext ε} {w : World ε σ}
    (hg : g.Plumbed) (hcovers : context.binding.Covers g w) (workers : Nat) :
    Went g context.binding w (handovers workers g context w)
      (Flow.result (run workers g context) w).1 (Flow.result (run workers g context) w).2 := by
  have hleft : ([] : List Handover).length + (TaskGraph.compile g).length ≤ g.nodes.length := by
    rw [TaskGraph.length_compile, List.length_nil, Nat.zero_add]
  obtain ⟨hwent, -⟩ := went_turns hg hcovers (Nat.le_max_right workers 1)
    ((stands_start hg context w).announced workers) hleft
  rw [result_run]
  rcases hresult : Flow.result (turns g context (TaskGraph.compile g) (max workers 1)
    (TaskGraph.compile g).length (.start (TaskGraph.compile g))) (announced workers g w) with
      ⟨halt | s, last⟩
  · rw [hresult] at hwent
    exact hwent.failed
  · rw [hresult] at hwent
    exact (hwent.routes.told _).went_ok _

/-! ### Points of a run -/

theorem Backs.mono {calls all : List Handover} {p : Produced} (h : Backs calls p)
    (hfirst : calls <+: all) : Backs all p := by
  obtain ⟨more, rfl⟩ := hfirst
  exact h.append more

namespace Runner

variable {g : Graph ε σ} {context : RunContext ε} {w : World ε σ} {runner : Runner}

/-- What a runner has recorded at some point of a run: when it has visited the first nodes of the
order, or taken some turns. -/
inductive Stores (g : Graph ε σ) (context : RunContext ε) (w : World ε σ) :
    Runner → Produced → Prop
  | visited {front back : List NodeId} {p : Produced} {after : World ε σ}
      (horder : g.order = front ++ back)
      (hresult : Flow.result (Sequential.visitAll g context front .nothing)
        (w.told (.runStarted Sequential.name g.mode g.nodes.length)) = (.ok p, after)) :
      Stores g context w .sequential p
  | turned {workers turns more : Nat} {s : Distributed.Progress ε σ} {after : World ε σ}
      (hturns : g.nodes.length = turns + more)
      (hresult : Flow.result (Distributed.turns g context (TaskGraph.compile g) (max workers 1)
        turns (.start (TaskGraph.compile g))) (Distributed.announced workers g w) =
          (.ok s, after)) :
      Stores g context w (.distributed workers) s.produced

/-- What is recorded at any point of a run was given in a call of the run. -/
theorem Stores.backs {p : Produced} (h : runner.Stores g context w p) (hg : g.Plumbed)
    (hcovers : context.binding.Covers g w) : Backs (runner.handovers g context w) p := by
  cases h with
  | @visited front back p after horder hresult =>
    have hsplit : g.order = ([] : List Handover).map Handover.node ++ front ++ back := horder
    obtain ⟨-, hbacks⟩ := Sequential.went_visitAll hg hcovers
      ((Routes.refl g context.binding w).told (.runStarted Sequential.name g.mode g.nodes.length))
      (.nothing []) hsplit (fun _ hid ↦ nomatch hid)
    rw [hresult] at hbacks
    refine (hbacks p rfl).mono ?_
    change _ <+: handing.visitAll g context g.order _ _
    rw [horder]
    exact handing.prefix_visitAll g context front back _ _
  | @turned workers turns more s after hturns hresult =>
    have hleft : ([] : List Handover).length + turns ≤ g.nodes.length := by
      rw [hturns, List.length_nil, Nat.zero_add]
      exact Nat.le_add_right turns more
    obtain ⟨-, hbacks⟩ := Distributed.went_turns hg hcovers (Nat.le_max_right workers 1)
      ((Distributed.stands_start hg context w).announced workers) hleft
    rw [hresult] at hbacks
    refine (hbacks s rfl).mono ?_
    change _ <+: handing.turns g context _ _ (TaskGraph.compile g).length _ _
    rw [TaskGraph.length_compile, hturns]
    exact handing.prefix_turns g context _ _ turns more _ _

/-- How a run goes on a runner that executes. -/
theorem went_run (hg : g.Plumbed) (hcovers : context.binding.Covers g w)
    (hexecutes : runner.executes = true) :
    Went g context.binding w (runner.handovers g context w)
      (Flow.result (runner.run g context) w).1 (Flow.result (runner.run g context) w).2 := by
  cases runner with
  | sequential => exact Sequential.went_run hg hcovers
  | distributed workers => exact Distributed.went_run hg hcovers workers
  | visualize direction => cases hexecutes

end Runner

/-- Payloads are routed in every run of a graph that was built and bound, on any runner that executes
and by any schedule. Actors are asked for what the kinds of their nodes do, with one payload for each
input port, which is what the port bound to it gave before in the same run; these are the calls that
actors can note down themselves. Whatever is recorded at any point of the run are outputs that a node
gave, one for each output port. And the engine does not give up unless an actor crashes. -/
theorem Builder.Reachable.run_routes {b : Builder ε σ} {g : Graph ε σ} (hb : b.Reachable)
    (hbuild : b.build = .ok g) {roster bound : Roster ε σ} {world made w : World ε σ}
    {context : RunContext ε} (hroster : roster.Sound world)
    (hbind : Action.result (Roster.bind g.nodes roster) world = ((context.binding, bound), made))
    (hsize : made.instances.size ≤ w.instances.size) {runner : Runner}
    (hexecutes : runner.executes = true) :
    let calls := runner.handovers g context w
    let ended := Flow.result (runner.run g context) w
    Routes g context.binding w calls ended.2 ∧
    (∀ (ν : Type) (notes : Environment ε → List ν) (note : InstanceId → Request → ν),
      w.Notes notes note → notes ended.2.environment =
        notes w.environment ++ calls.map fun call ↦ note call.actor call.request) ∧
    (∀ p, runner.Stores g context w p → ∀ id outputs, p id = some outputs →
      (∃ node, g.nodes[id]? = some node ∧ outputs.length = node.arity.outputs) ∧
        ∃ call ∈ calls, call.node = id ∧ call.outcome = .ok outputs) ∧
    ∀ halt, ended.1 = .error halt → halt.Internal → ∃ call ∈ calls, call.outcome = .error .crash := by
  have hg := Graph.plumbed_of_build hb hbuild
  obtain ⟨binding, other, after, hresult, hbound⟩ := Roster.result_bind g.nodes hroster
  obtain ⟨hboth, rfl⟩ := Prod.mk.inj (hresult.symm.trans hbind)
  obtain ⟨rfl, rfl⟩ := Prod.mk.inj hboth
  have hcovers := Binding.covers_of_bound hbound hsize
  have hwent := Runner.went_run hg hcovers hexecutes
  refine ⟨hwent.routes, fun ν notes note hnotes ↦ hwent.routes.works.noted hnotes,
    fun p hp id outputs hid ↦ ?_, hwent.blames⟩
  have hbacks := hp.backs hg hcovers
  obtain ⟨node, given, hnode, hgiven, hlength⟩ := hwent.routes.delivered hbacks hid
  obtain rfl := Option.some.inj (hgiven.symm.trans hid)
  exact ⟨⟨node, hnode, hlength⟩, hbacks id _ hid⟩

/-- An actor that notes down which payloads of a request are columns, and always gives the same when
it is applied. -/
def noting (name : String) (arity : Arity) (answer : Except (Halt ActorError) Payload) :
    Spec (List (List Bool)) Unit :=
  let noted (env : Environment (List (List Bool))) (request : Request) :=
    { env with shared := env.shared ++ [request.payloads.map (·.column?.isSome)] }
  { name
    arity
    behavior :=
      { fresh := ()
        apply := fun inputs _ env ↦ (answer, noted env (.apply inputs))
        train := fun features label _ env ↦ (.ok (), (), noted env (.train features label))
        exportState := fun _ ↦ .ok none
        loadState := fun _ _ ↦ (.ok (), ()) } }

/-- A builder in which a trainer and an applier take both outputs of another applier, crosswise. The
actor of the one crashes. -/
def crossing : Builder (List (List Bool)) Unit :=
  { mode := .apply
    context := ⟨0, .apply⟩
    nodes :=
      [⟨0, .source, noting "rows" ⟨0, 1⟩ (.ok .unit), none, ⟨0, 1⟩⟩,
        ⟨1, .applier, noting "pair" ⟨1, 2⟩ (.ok (.tuple [.unit, .column []])), none, ⟨1, 2⟩⟩,
        ⟨2, .trainer, noting "fitted" ⟨1, 1⟩ (.ok .unit), none, ⟨2, 0⟩⟩,
        ⟨3, .applier, noting "frail" ⟨2, 1⟩ (.error .crash), none, ⟨2, 1⟩⟩,
        ⟨4, .sink, noting "rows" ⟨1, 1⟩ (.ok .unit), none, ⟨1, 1⟩⟩]
    edges := [.data ⟨0, 0⟩ 1 0, .data ⟨1, 1⟩ 2 0, .data ⟨1, 0⟩ 2 1, .data ⟨1, 1⟩ 3 0,
      .data ⟨1, 0⟩ 3 1, .data ⟨3, 0⟩ 4 0] }

theorem reachable_crossing : crossing.Reachable := by
  have hnodes : ({ crossing with edges := [] } : Builder (List (List Bool)) Unit).Reachable :=
    (((((Builder.Reachable.new .apply).addNode .source (noting "rows" ⟨0, 1⟩ (.ok .unit))
      none).addNode .applier (noting "pair" ⟨1, 2⟩ (.ok (.tuple [.unit, .column []]))) none).addNode
        .trainer (noting "fitted" ⟨1, 1⟩ (.ok .unit)) none).addNode .applier
          (noting "frail" ⟨2, 1⟩ (.error .crash)) none).addNode .sink
            (noting "rows" ⟨1, 1⟩ (.ok .unit)) none
  have hpair := hnodes.connect (rfl : Builder.connect _ ⟨0, 0⟩ 1 0 = .ok _)
  have hfeature := hpair.connect (rfl : Builder.connect _ ⟨1, 1⟩ 2 0 = .ok _)
  have hlabel := hfeature.connect (rfl : Builder.connect _ ⟨1, 0⟩ 2 1 = .ok _)
  have hfirst := hlabel.connect (rfl : Builder.connect _ ⟨1, 1⟩ 3 0 = .ok _)
  have hsecond := hfirst.connect (rfl : Builder.connect _ ⟨1, 0⟩ 3 1 = .ok _)
  exact hsecond.connect (rfl : Builder.connect _ ⟨3, 0⟩ 4 0 = .ok crossing)

/-- The graph that it is frozen into. -/
def crossed : Graph (List (List Bool)) Unit :=
  { mode := .apply, nodes := crossing.nodes, edges := crossing.edges, groups := []
    order := [0, 1, 2, 3, 4], source := 0, sink := 4 }

theorem build_crossing : crossing.build = .ok crossed := rfl

/-- The world in which each node has been bound to an instance of its own. -/
def crossedWorld : World (List (List Bool)) Unit :=
  (Action.result (Roster.bind crossed.nodes .empty) (World.new [])).2

theorem notes_crossedWorld : crossedWorld.Notes (fun env ↦ env.shared)
    fun _ request ↦ request.payloads.map (·.column?.isSome) := by
  obtain ⟨binding, bound, after, hresult, hbound⟩ :=
    Roster.result_bind crossed.nodes (Roster.sound_empty (World.new ([] : List (List Bool))))
  intro id actor hactor fit env request
  rw [crossedWorld, hresult] at hactor
  rcases hbound.made id actor hactor with hold | ⟨node, hnode, rfl⟩
  · cases hold
  · change node ∈ crossing.nodes at hnode
    simp only [crossing, List.mem_cons, List.not_mem_nil, or_false] at hnode
    rcases hnode with rfl | rfl | rfl | rfl | rfl <;> cases request <;> rfl

/-- A run on these instances that is not cancelled. -/
def crossedContext : RunContext (List (List Bool)) :=
  { binding := [0, 1, 2, 3, 4], cancelled := fun _ ↦ false }

theorem bind_crossed : Action.result (Roster.bind crossed.nodes .empty) (World.new []) =
    ((crossedContext.binding, []), crossedWorld) := rfl

/-- The trainer and the applier are given the column first. What is noted are the calls of the run,
which ends because the applier crashes. -/
theorem Builder.Reachable.run_routes_crossed :
    let calls := (Runner.distributed 2).handovers crossed crossedContext crossedWorld
    let ended := Flow.result ((Runner.distributed 2).run crossed crossedContext) crossedWorld
    crossing.Reachable ∧ crossing.build = .ok crossed ∧
    Routes crossed crossedContext.binding crossedWorld calls ended.2 ∧
    (calls.map fun call ↦ call.request.payloads.map (·.column?.isSome)) =
      [[], [false], [true, false], [true, false]] ∧
    (∃ text, ended.1 = .error (.error (.internal text))) ∧
    ∃ call ∈ calls, call.outcome = .error .crash := by
  intro calls ended
  have hshared : ended.2.environment.shared = [[], [false], [true, false], [true, false]] := by
    decide +kernel
  have hfails : ended.1.map (fun _ ↦ ()) =
      .error (.error (.internal "task failed to complete: the task crashed")) := by
    decide +kernel
  obtain ⟨halt, hended⟩ : ∃ halt, ended.1 = .error halt := by
    cases hresult : ended.1 with
    | ok report => rw [hresult] at hfails; cases hfails
    | error halt => exact ⟨halt, rfl⟩
  rw [hended] at hfails
  obtain rfl := Except.error.inj hfails
  obtain ⟨hroutes, hnotes, -, hblames⟩ := reachable_crossing.run_routes build_crossing
    (Roster.sound_empty (World.new [])) bind_crossed
    (Nat.le_refl crossedWorld.instances.size) (rfl : (Runner.distributed 2).executes = true)
  exact ⟨reachable_crossing, build_crossing, hroutes,
    (hnotes _ _ _ notes_crossedWorld).symm.trans hshared, ⟨_, hended⟩, hblames _ hended (.error _)⟩

end Dataflow
