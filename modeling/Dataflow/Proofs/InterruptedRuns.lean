import Dataflow.Proofs.Interruptions

/-!
# Concurrent runs that are cancelled on the way

In a turn of the distributed runner a task may cancel the run: the one that ends, or one of those that
are waited for after that one has failed. Either the turn ends the run, or the runner has missed the
cancellation and goes on with what the task gave (`Distributed.TurnSettled`); then it stops in the
next turn, if there is one, before any task ends. As long as a run goes on all nodes that have ended
have given outputs, and their number is that of the turns taken (`Distributed.Sailing`). By induction
on the turns a run that is cancelled settles in one of the ways that there are
(`Distributed.settled_turns`), and so it is on any runner (`Runner.settled`).
-/

set_option autoImplicit false
set_option relaxedAutoImplicit false

namespace Dataflow

variable {ε σ : Type}

/-! ### Distributed runs -/

namespace Distributed

variable {g : Graph ε σ} {context : RunContext ε} {workers asked : Nat} {s : Progress ε σ}
  {done : List NodeId} {events : List Event} {start w last : World ε σ}

/-- A ready task can be started once its dependencies have given what they declare. -/
theorem exists_job (hg : g.Sound)
    (hbinding : ∀ id < g.nodes.length, ∃ actor, context.binding[id]? = some actor)
    {p : Produced} {id : NodeId} (hready : g.Ready done id)
    (hdelivered : ∀ other ∈ done, Delivered g p other) :
    ∃ started, job g context p id = .ok started := by
  obtain ⟨inputs, hinputs⟩ :=
    exists_carries_inputs hg fun other hother ↦ hdelivered other (hready.ready other hother)
  obtain ⟨actor, hactor⟩ := hbinding id hready.lt
  obtain ⟨node, hnode⟩ : ∃ node, g.nodes[id]? = some node :=
    ⟨_, List.getElem?_eq_getElem hready.lt⟩
  have hself := hg.wired.id_eq id node hnode
  subst hself
  have hprepare : prepare g context p node = .ok (actor, inputs) :=
    prepare_eq_ok.mpr ⟨hinputs, hactor⟩
  refine ⟨⟨node, actor, inputs⟩, ?_⟩
  simp only [job, hnode, hprepare]
  rfl

theorem Filling.fault_eq_none {started : List (Job ε σ)} {after : Progress ε σ}
    {fault : Option FlowError} (hfilling : Filling g context workers s started after fault)
    (hg : g.Sound) (hbinding : ∀ id < g.nodes.length, ∃ actor, context.binding[id]? = some actor)
    (h : Tallied g s done) (hdelivered : ∀ other ∈ done, Delivered g s.produced other) :
    fault = none := by
  induction hfilling with
  | full hfull => rfl
  | starts hidle hqueue hjob hrest ih =>
    exact ih (h.starts hqueue _ (job_eq_ok hg.toValid hjob).1) hdelivered
  | refused hqueue hjob =>
    obtain ⟨started, hstarted⟩ := exists_job hg hbinding (h.ready_head hqueue) hdelivered
    cases hjob.symm.trans hstarted

/-- Where a run stands in which these events were seen: all nodes that have ended have given outputs,
and what was recorded is what they have given. -/
structure Sailing (g : Graph ε σ) (context : RunContext ε) (start : World ε σ)
    (events : List Event) (s : Progress ε σ) (done : List NodeId) (w : World ε σ) : Prop where
  begun : Evolves g context.binding start events w
  sound : Event.firstFailure? events = none
  count : Event.endings events = done.length
  tallied : Tallied g s done
  staffed : Staffed g context.binding s.running
  delivered : ∀ other ∈ done, Delivered g s.produced other

theorem sailing_start (hg : g.Valid) (context : RunContext ε) (workers : Nat) (w : World ε σ) :
    Sailing g context w [] (.start (TaskGraph.compile g)) [] (announced workers g w) where
  begun := (Evolves.refl.told _).told _
  sound := rfl
  count := rfl
  tallied := tallied_start hg
  staffed := staffed_nil g context.binding
  delivered _ hmem := nomatch hmem

theorem Sailing.starts (h : Sailing g context start events s done w) (jobs : List (Job ε σ)) :
    Evolves g context.binding start (events ++ tracing.starts jobs) w ∧
      Event.firstFailure? (events ++ tracing.starts jobs) = none ∧
      Event.endings (events ++ tracing.starts jobs) = done.length := by
  rw [starts_tracing]
  refine ⟨h.begun.starts _, ?_, ?_⟩
  · rw [Event.firstFailure?_append, h.sound, Event.firstFailure?_starts]
    rfl
  · rw [Event.endings_append, Event.endings_starts, h.count, Nat.add_zero]

/-- The run goes on with what a task has given. -/
theorem Sailing.snoc (h : Sailing g context start events s done w) {started : List NodeId}
    {id : NodeId} {outputs : List Payload} {next : Progress ε σ} {after : World ε σ}
    (hevolves : Evolves g context.binding w (started.map .started ++ [.ended id (.ok outputs)]) after)
    (htallied : Tallied g next (done ++ [id])) (hstaffed : Staffed g context.binding next.running)
    (hproduced : next.produced = s.produced.record id outputs) (hg : g.Sound) :
    Sailing g context start (events ++ (started.map .started ++ [.ended id (.ok outputs)])) next
      (done ++ [id]) after := by
  refine ⟨h.begun.trans hevolves, ?_, ?_, htallied, hstaffed, ?_⟩
  · rw [Event.firstFailure?_append, Event.firstFailure?_append, h.sound, Event.firstFailure?_starts]
    rfl
  · rw [Event.endings_append, Event.endings_append, Event.endings_starts, h.count, Nat.zero_add,
      List.length_append]
    rfl
  · obtain ⟨node, hnode, hlength⟩ :=
      hevolves.length_outputs hg (List.mem_append_right _ List.mem_cons_self)
    rw [hproduced]
    exact delivered_snoc h.delivered hnode hlength

/-- How a turn ends that was cancelled while a task worked: it ends the run, or the runner has missed
the cancellation and goes on with what the task gave. -/
inductive TurnSettled (context : RunContext ε) (asked total before : Nat) (front : List Event) :
    Except (Halt FlowError) (List Payload) → List Event →
      Except (Halt FlowError) (Progress ε σ) → Prop
  | stopped {outcome : Except (Halt FlowError) (List Payload)} {back : List Event}
      {halt : Halt FlowError}
      (hsettled : (Runner.distributed asked).Settled context.schedule total front outcome back
        (some halt)) : TurnSettled context asked total before front outcome back (.error halt)
  | missed {outputs : List Payload} {next : Progress ε σ}
      (hsound : Event.firstFailure? front = none) (hcount : Event.endings front = before)
      (hblind : (Runner.distributed asked).blind context.schedule front = true) :
      TurnSettled context asked total before front (.ok outputs) [] (.ok next)

/-- A task has failed, which ends the run. If the run is cancelled in the end, it was while the task
worked, or while the other tasks were waited for. -/
theorem settled_of_failed {ended : Job ε σ} {others : List (Job ε σ)} {halt : Halt FlowError}
    {after : World ε σ} (hbegun : Evolves g context.binding start events w)
    (hsound : Event.firstFailure? events = none)
    (hnode : g.nodes[ended.node.id]? = some ended.node)
    (hactor : context.binding[ended.node.id]? = some ended.actor)
    (hlive : context.cancelled w.environment = false)
    (hexecute : Action.result (execute ended.node ended.actor ended.inputs) w =
      (.error halt, after))
    (hunnoticed : context.notices (Event.endings events) after.environment = false)
    (hrest : Evolves g context.binding after (tracing.drain context.schedule others after) last)
    (hcancelled : context.cancelled last.environment = true) (asked total : Nat) :
    ∃ front id outcome back, events ++ .ended ended.node.id (.error halt) ::
        tracing.drain context.schedule others after = front ++ .ended id outcome :: back ∧
      CancelledDuring g context start last front id outcome back ∧
      (Runner.distributed asked).Settled context.schedule total front outcome back
        (some ((Runner.distributed asked).reported halt)) := by
  have hnone := fun id ↦ started_notMem_drain id context.schedule others after
  by_cases hafter : context.cancelled after.environment = true
  · exact ⟨_, _, _, _, rfl, ⟨hnode, hactor, hbegun, hlive, hexecute, hafter, hrest⟩,
      .failing hsound (context.missed_of_unnoticed hafter hunnoticed) hnone⟩
  rw [Bool.not_eq_true] at hafter
  obtain ⟨front, id, outcome, back, hdrain, hduring⟩ :=
    hrest.exists_cancelledDuring hafter hcancelled
  have hended := hbegun.ended hnode hactor ended.inputs
  rw [hexecute] at hended
  refine ⟨_, id, outcome, back, ?_, hduring.behind hended, .late ?_ fun other hother ↦ ?_⟩
  · rw [hdrain]
    simp
  · rw [Event.firstFailure?_append, Event.firstFailure?_append, hsound]
    rfl
  · rw [hdrain] at hnone
    exact hnone other (List.mem_append_right _ (List.mem_cons_of_mem _ hother))

/-- When a turn is cancelled on the way, a task was in flight during which it was. -/
theorem settled_turn (hg : g.Sound)
    (hbinding : ∀ id < g.nodes.length, ∃ actor, context.binding[id]? = some actor)
    (h : Sailing g context start events s done w)
    (hlive : context.cancelled w.environment = false)
    {result : Except (Halt FlowError) (Progress ε σ)}
    (hresult : Flow.result (turn g context (TaskGraph.compile g) workers s) w = (result, last))
    (hcancelled : context.cancelled last.environment = true) (asked total : Nat) :
    ∃ front id outcome back,
      events ++ tracing.turn g context workers s w = front ++ .ended id outcome :: back ∧
      CancelledDuring g context start last front id outcome back ∧
      TurnSettled context asked total done.length front outcome back result := by
  obtain ⟨started, filled, fault, hfill, hfilling⟩ := exists_filling g context workers s
  have hfilled := hfilling.filled hg.toValid h.tallied
  obtain rfl : fault = none := hfilling.fault_eq_none hg hbinding h.tallied h.delivered
  cases hended : filled.running[
      context.schedule.next filled.completed % filled.running.length]? with
  | none =>
    rw [result_turn_of_idle _ hfill hlive hended] at hresult
    obtain ⟨-, rfl⟩ := Prod.mk.inj hresult
    rw [hlive] at hcancelled
    cases hcancelled
  | some ended =>
    have hstaffed := hfilled.staffed_running h.staffed
    obtain ⟨hnode, hactor⟩ := hstaffed ended (List.mem_of_getElem? hended)
    obtain ⟨hbegun, hsound, hcount⟩ := h.starts started
    have hturn : filled.completed = Event.endings (events ++ tracing.starts started) :=
      (hfilled.tallied rfl).completed.trans hcount.symm
    rcases hexecute : Action.result (execute ended.node ended.actor ended.inputs) w with
      ⟨outcome, after⟩
    obtain ⟨more, hseen, hclosed⟩ := tracing.closed_turn (TaskGraph.compile g) hfill
      hfilled.running hlive rfl hended hexecute
    have hdrained := evolves_drain (hstaffed.eraseIdx
      (context.schedule.next filled.completed % filled.running.length)) context.schedule after
    have hduring : ∀ {back : List Event} {last : World ε σ},
        context.cancelled after.environment = true →
        Evolves g context.binding after back last →
        CancelledDuring g context start last (events ++ tracing.starts started) ended.node.id
          outcome back := fun hafter hback ↦
      ⟨hnode, hactor, hbegun, hlive, hexecute, hafter, hback⟩
    rw [tracing_work, hexecute] at hseen
    rw [hresult] at hclosed
    rw [hseen, ← List.append_assoc]
    cases hclosed with
    | noticed hnoticed =>
      rw [hturn] at hnoticed
      obtain ⟨hafter, hlooks⟩ := context.notices_eq_true_iff.mp hnoticed
      exact ⟨_, _, _, _, rfl, hduring hafter (hdrained.told _), .stopped (.noticed hsound hlooks
        fun id ↦ started_notMem_drain id context.schedule _ after)⟩
    | failed hunnoticed =>
      obtain ⟨front, id, outcome, back, hevents, hduring, hsettled⟩ := settled_of_failed hbegun
        hsound hnode hactor hlive hexecute (hturn ▸ hunnoticed) (hdrained.told _) hcancelled asked
        total
      exact ⟨front, id, outcome, back, hevents, hduring, .stopped hsettled⟩
    | crashed hunnoticed =>
      obtain ⟨front, id, outcome, back, hevents, hduring, hsettled⟩ := settled_of_failed hbegun
        hsound hnode hactor hlive hexecute (hturn ▸ hunnoticed) hdrained hcancelled asked total
      exact ⟨front, id, outcome, back, hevents, hduring, .stopped hsettled⟩
    | completed hunnoticed =>
      have hmissed := context.missed_of_unnoticed hcancelled (hturn ▸ hunnoticed)
      exact ⟨_, _, _, _, rfl, hduring hcancelled .refl, .missed hsound hcount hmissed⟩

/-- A run that was cancelled before a turn notices it before any task ends in the turn. -/
theorem Sailing.noticed (h : Sailing g context start events s done w) (hg : g.Sound)
    (hbinding : ∀ id < g.nodes.length, ∃ actor, context.binding[id]? = some actor)
    (hcancelled : context.cancelled w.environment = true) (workers : Nat) :
    ∃ (ids : List NodeId) (rest : List Event) (after : World ε σ),
      tracing.turn g context workers s w = ids.map .started ++ rest ∧
      (∀ id, .started id ∉ rest) ∧ Evolves g context.binding w (ids.map .started ++ rest) after ∧
      Flow.result (turn g context (TaskGraph.compile g) workers s) w =
        (.error (.error .cancelled), after) := by
  obtain ⟨started, filled, fault, hfill, hfilling⟩ := exists_filling g context workers s
  have hfilled := hfilling.filled hg.toValid h.tallied
  obtain rfl : fault = none := hfilling.fault_eq_none hg hbinding h.tallied h.delivered
  have hdrained := evolves_drain (hfilled.staffed_running h.staffed) context.schedule w
  have hevolves := (hdrained.told (.runCancelled name g.mode)).behind started
  rw [starts_tracing] at hevolves
  refine ⟨_, _, _, ?_, fun id ↦ started_notMem_drain id context.schedule filled.running w, hevolves,
    result_turn_of_cancelled _ hfill hcancelled⟩
  rw [tracing.turn_of_cancelled hfill hfilled.running hcancelled, starts_tracing]

/-- When turns are cancelled on the way, a task was in flight during which they were, and the run
ends in that turn or in the next. -/
theorem settled_turns (hg : g.Sound)
    (hbinding : ∀ id < g.nodes.length, ∃ actor, context.binding[id]? = some actor) {left : Nat}
    (h : Sailing g context start events s done w) (hleft : done.length + left = g.nodes.length)
    (hlive : context.cancelled w.environment = false)
    {result : Except (Halt FlowError) (Progress ε σ)}
    (hresult : Flow.result (turns g context (TaskGraph.compile g) workers left s) w =
      (result, last)) (hcancelled : context.cancelled last.environment = true) (asked : Nat) :
    ∃ front id outcome back,
      events ++ tracing.turns g context (TaskGraph.compile g) workers left s w =
        front ++ .ended id outcome :: back ∧
      CancelledDuring g context start last front id outcome back ∧
      (Runner.distributed asked).Settled context.schedule g.nodes.length front outcome back
        (Halt.of? result) := by
  induction left generalizing s done events w with
  | zero =>
    obtain ⟨-, rfl⟩ := Prod.mk.inj hresult
    rw [hlive] at hcancelled
    cases hcancelled
  | succ left ih =>
    rw [turns, Flow.result_bind] at hresult
    rw [Observer.turns]
    cases turned hg context workers h.tallied h.staffed w with
    | @stopped halt after hturn hevolves hready hexplained =>
      rw [hturn] at hresult ⊢
      obtain ⟨rfl, rfl⟩ := Prod.mk.inj hresult
      obtain ⟨front, id, outcome, back, hevents, hduring, hsettled⟩ :=
        settled_turn hg hbinding h hlive hturn hcancelled asked g.nodes.length
      rw [List.append_nil]
      cases hsettled with
      | stopped hsettled => exact ⟨front, id, outcome, back, hevents, hduring, hsettled⟩
    | @completed started id outputs next after hturn hevolves hseen hstarted hready htallied
        hstaffed hproduced =>
      have hnext : Sailing g context start (events ++ tracing.turn g context workers s w) next
          (done ++ [id]) after :=
        hseen ▸ h.snoc (hseen ▸ hevolves) htallied hstaffed hproduced hg
      have hleft' : (done ++ [id]).length + left = g.nodes.length := by
        rw [List.length_append, List.length_singleton]
        omega
      rw [hturn] at hresult ⊢
      dsimp only at hresult ⊢
      rw [← List.append_assoc]
      by_cases hafter : context.cancelled after.environment = true
      · obtain ⟨front, other, outcome, back, hevents, hduring, hsettled⟩ :=
          settled_turn hg hbinding h hlive hturn hafter asked g.nodes.length
        cases hsettled with
        | @missed given _ hsound hcount hblind =>
          rw [hevents]
          cases left with
          | zero =>
            obtain ⟨rfl, rfl⟩ := Prod.mk.inj hresult
            refine ⟨front, other, _, [], List.append_nil _, hduring, .ending hsound hblind ?_⟩
            rw [hcount]
            exact hleft
          | succ left =>
            -- The next turn stops at its first look at the token.
            obtain ⟨ids, rest, final, hlater, hquiet, hwinds, hstop⟩ :=
              hnext.noticed hg hbinding hafter workers
            rw [turns, Flow.result_bind, hstop] at hresult
            obtain ⟨rfl, rfl⟩ := Prod.mk.inj hresult
            rw [Observer.turns, hlater, hstop, List.append_nil, List.append_assoc]
            refine ⟨front, other, _, ids.map .started ++ rest, rfl, hduring.trans hwinds,
              .belated hsound ?_ ⟨ids, rest, rfl, hquiet, fun _ ↦ ⟨?_, hblind⟩⟩⟩
            · rw [hcount]
              omega
            · simp
      · rw [Bool.not_eq_true] at hafter
        exact ih hnext hleft' hafter hresult

theorem settled_run (hg : g.Sound)
    (hbinding : ∀ id < g.nodes.length, ∃ actor, context.binding[id]? = some actor)
    (hlive : context.cancelled w.environment = false) {result : Except (Halt FlowError) Report}
    (hresult : Flow.result (run workers g context) w = (result, last))
    (hcancelled : context.cancelled last.environment = true) :
    ∃ front id outcome back, trace workers g context w = front ++ .ended id outcome :: back ∧
      CancelledDuring g context w last front id outcome back ∧
      (Runner.distributed workers).Settled context.schedule g.nodes.length front outcome back
        (Halt.of? result) := by
  have hsailing := sailing_start hg.toValid context workers w
  have hleft : ([] : List NodeId).length + (TaskGraph.compile g).length = g.nodes.length := by
    rw [TaskGraph.length_compile, List.length_nil, Nat.zero_add]
  rw [result_run] at hresult
  rcases hturns : Flow.result (turns g context (TaskGraph.compile g) (max workers 1)
    (TaskGraph.compile g).length (.start (TaskGraph.compile g))) (announced workers g w) with
      ⟨halt | s, after⟩
  · rw [hturns] at hresult
    obtain ⟨rfl, rfl⟩ := Prod.mk.inj hresult
    exact settled_turns hg hbinding hsailing hleft hlive hturns hcancelled workers
  · rw [hturns] at hresult
    obtain ⟨rfl, rfl⟩ := Prod.mk.inj hresult
    obtain ⟨front, id, outcome, back, hevents, hduring, hsettled⟩ :=
      settled_turns hg hbinding hsailing hleft hlive hturns hcancelled workers
    exact ⟨front, id, outcome, back, hevents, hduring.told _, hsettled⟩

end Distributed

/-! ### Runs on any runner -/

/-- How a run ends that is cancelled on the way. -/
theorem Runner.settled {runner : Runner} {g : Graph ε σ} {context : RunContext ε}
    {w last : World ε σ} (hg : g.Sound)
    (hbinding : runner.executes = true →
      ∀ id < g.nodes.length, ∃ actor, context.binding[id]? = some actor)
    (hlive : context.cancelled w.environment = false) {result : Except (Halt FlowError) Report}
    (hresult : Flow.result (runner.run g context) w = (result, last))
    (hcancelled : context.cancelled last.environment = true) :
    ∃ front id outcome back, runner.trace g context w = front ++ .ended id outcome :: back ∧
      CancelledDuring g context w last front id outcome back ∧
      runner.Settled context.schedule g.nodes.length front outcome back (Halt.of? result) := by
  cases runner with
  | sequential =>
    obtain ⟨front, id, outcome, hevents, hduring, hsettled⟩ :=
      Sequential.settled_run hg hlive hresult hcancelled
    exact ⟨front, id, outcome, [], hevents, hduring, hsettled⟩
  | distributed workers => exact Distributed.settled_run hg (hbinding rfl) hlive hresult hcancelled
  | visualize direction =>
    have hevolves := evolves_run hg (.visualize direction) context w
    rw [trace_of_draws (by simp [executes]), hresult] at hevolves
    rw [hevolves.environment_of_nil, hlive] at hcancelled
    cases hcancelled

end Dataflow
