import Dataflow.Proofs.ConcurrentTraces
import Dataflow.Proofs.Executions

/-!
# Runs that are cancelled on the way

A run that is cancelled on the way was cancelled while a node worked (`CancelledDuring`). Runners look
whether they have been cancelled at different places: the sequential runner before each node, the
distributed one before it waits for a task to end and again before it looks at what the task gave.
So there are ways for a runner to take what a node gave without having seen that it was cancelled
meanwhile (`Runner.blind`). What comes of it is an inductive with a case for each way
(`Runner.Settled`): the cancellation is noticed at once, or before another node ends; or no node is
left; or the node has failed, or another had before. Here it is shown of the sequential runner.
-/

set_option autoImplicit false
set_option relaxedAutoImplicit false

namespace Dataflow

variable {ε σ : Type}

/-! ### What nodes give -/

namespace Executed

variable {node : Node ε σ} {id : InstanceId} {inputs : List Payload} {w after : World ε σ}
  {outcome : Except (Halt FlowError) (List Payload)}

/-- No node says that the run was cancelled. -/
theorem ne_cancelled (h : Executed node id inputs w outcome after) :
    outcome ≠ .error (.error .cancelled) := by
  have hmapped : ∀ result : Except (Halt ActorError) (List Payload),
      Halt.mapError (FlowError.ofActor node.label) result ≠ .error (.error .cancelled) := by
    rintro ((e | _) | outputs)
    · cases e <;> simp [Halt.mapError, Halt.map, FlowError.ofActor]
    · simp [Halt.mapError, Halt.map]
    · simp [Halt.mapError]
  cases h with
  | idle hidle hother => simpa using hother.2
  | applied hactor hkind => exact hmapped _
  | trained hactor hkind data label => exact hmapped _

/-- A node gives a payload for each of its output ports. -/
theorem length_outputs (h : Executed node id inputs w outcome after)
    (harity : node.arity = node.kind.arity node.spec.arity) {outputs : List Payload}
    (houtputs : outcome = .ok outputs) : outputs.length = node.arity.outputs := by
  cases h with
  | idle hidle hother => cases houtputs
  | @applied actor hactor hkind =>
    cases happlied : actor.applied w.environment node.arity.outputs inputs with
    | error halt =>
      rw [happlied] at houtputs
      cases houtputs
    | ok parts =>
      rw [happlied] at houtputs
      obtain rfl := Except.ok.inj houtputs
      exact Instance.length_of_applied_eq_ok happlied
  | @trained actor hactor hkind data label =>
    rw [harity, hkind]
    cases htrained : (actor.trained w.environment data label).1 with
    | error halt =>
      rw [htrained] at houtputs
      cases houtputs
    | ok u =>
      rw [htrained] at houtputs
      obtain rfl := Except.ok.inj houtputs
      rfl

end Executed

namespace Evolves

variable {g : Graph ε σ} {binding : Binding} {start w : World ε σ} {events : List Event}

theorem ne_cancelled (h : Evolves g binding start events w) {id : NodeId} {halt : Halt FlowError}
    (hended : .ended id (.error halt) ∈ events) : halt ≠ .error .cancelled := by
  induction h with
  | refl => cases hended
  | told _ message ih => exact ih hended
  | started _ other ih => exact ih (by simpa using hended)
  | ended _ hnode hactor inputs ih =>
    rcases List.mem_append.mp hended with hended | hended
    · exact ih hended
    · rw [List.mem_singleton, Event.ended.injEq] at hended
      rintro rfl
      exact (executed _ _ inputs _).ne_cancelled hended.2.symm

theorem length_outputs (h : Evolves g binding start events w) (hg : g.Sound) {id : NodeId}
    {outputs : List Payload} (hended : .ended id (.ok outputs) ∈ events) :
    ∃ node, g.nodes[id]? = some node ∧ outputs.length = node.arity.outputs := by
  induction h with
  | refl => cases hended
  | told _ message ih => exact ih hended
  | started _ other ih => exact ih (by simpa using hended)
  | @ended _ _ _ other node _ hnode hactor inputs ih =>
    rcases List.mem_append.mp hended with hended | hended
    · exact ih hended
    · rw [List.mem_singleton, Event.ended.injEq] at hended
      obtain ⟨rfl, houtcome⟩ := hended
      exact ⟨node, hnode, (executed _ _ inputs _).length_outputs
        (hg.wired.arity node (List.mem_of_getElem? hnode)) houtcome.symm⟩

/-- Where nothing is seen, the environment stays as it is. -/
theorem environment_of_nil (h : Evolves g binding start [] w) :
    w.environment = start.environment := by
  generalize hevents : [] = events at h
  induction h with
  | refl => rfl
  | told _ message ih => exact ih hevents
  | started _ id ih => simp at hevents
  | ended _ hnode hactor inputs ih => simp at hevents

end Evolves

/-! ### The node during which a run is cancelled -/

/-- Between two worlds of a run a node worked during which the run was cancelled: it had not been
before, and it has been when the node ends. Before and after the node these events were seen. -/
inductive CancelledDuring (g : Graph ε σ) (context : RunContext ε) (start last : World ε σ)
    (front : List Event) (id : NodeId) (outcome : Except (Halt FlowError) (List Payload))
    (back : List Event) : Prop
  | intro {node : Node ε σ} {actor : InstanceId} {inputs : List Payload} {before after : World ε σ}
      (hnode : g.nodes[id]? = some node) (hactor : context.binding[id]? = some actor)
      (hfront : Evolves g context.binding start front before)
      (hlive : context.cancelled before.environment = false)
      (hexecute : Action.result (execute node actor inputs) before = (outcome, after))
      (hcancelled : context.cancelled after.environment = true)
      (hback : Evolves g context.binding after back last)

namespace CancelledDuring

variable {g : Graph ε σ} {context : RunContext ε} {start mid last : World ε σ}
  {front back events : List Event} {id : NodeId}
  {outcome : Except (Halt FlowError) (List Payload)}

theorem behind (h : CancelledDuring g context mid last front id outcome back)
    (hevents : Evolves g context.binding start events mid) :
    CancelledDuring g context start last (events ++ front) id outcome back := by
  obtain ⟨hnode, hactor, hfront, hlive, hexecute, hcancelled, hback⟩ := h
  exact ⟨hnode, hactor, hevents.trans hfront, hlive, hexecute, hcancelled, hback⟩

theorem trans (h : CancelledDuring g context start mid front id outcome back)
    (hevents : Evolves g context.binding mid events last) :
    CancelledDuring g context start last front id outcome (back ++ events) := by
  obtain ⟨hnode, hactor, hfront, hlive, hexecute, hcancelled, hback⟩ := h
  exact ⟨hnode, hactor, hfront, hlive, hexecute, hcancelled, hback.trans hevents⟩

/-- What has come about around the node. -/
theorem evolves (h : CancelledDuring g context start last front id outcome back) :
    Evolves g context.binding start (front ++ .ended id outcome :: back) last := by
  obtain @⟨node, actor, inputs, before, after, hnode, hactor, hfront, hlive, hexecute, hcancelled,
    hback⟩ := h
  have hended := hfront.ended hnode hactor inputs
  rw [hexecute] at hended
  rw [List.append_cons]
  exact hended.trans hback

theorem told (h : CancelledDuring g context start mid front id outcome back) (message : Message) :
    CancelledDuring g context start (mid.told message) front id outcome back := by
  have hstill := h.trans (Evolves.refl.told message)
  rwa [List.append_nil] at hstill

end CancelledDuring

/-- In a run that is cancelled on the way there is a node during which it was. -/
theorem Evolves.exists_cancelledDuring {g : Graph ε σ} {context : RunContext ε}
    {start last : World ε σ} {events : List Event} (h : Evolves g context.binding start events last)
    (hlive : context.cancelled start.environment = false)
    (hcancelled : context.cancelled last.environment = true) :
    ∃ front id outcome back, events = front ++ .ended id outcome :: back ∧
      CancelledDuring g context start last front id outcome back := by
  induction h with
  | refl =>
    rw [hlive] at hcancelled
    cases hcancelled
  | told _ message ih =>
    obtain ⟨front, id, outcome, back, hevents, hduring⟩ := ih hcancelled
    exact ⟨front, id, outcome, back, hevents, hduring.told message⟩
  | started _ other ih =>
    obtain ⟨front, id, outcome, back, rfl, hduring⟩ := ih hcancelled
    exact ⟨front, id, outcome, back ++ [.started other], by simp,
      hduring.trans (Evolves.refl.started other)⟩
  | @ended events w h other node actor hnode hactor inputs ih =>
    by_cases hbefore : context.cancelled w.environment = true
    · obtain ⟨front, id, outcome, back, rfl, hduring⟩ := ih hbefore
      exact ⟨front, id, outcome, _, List.append_assoc _ _ _,
        hduring.trans (Evolves.refl.ended hnode hactor inputs)⟩
    · rw [Bool.not_eq_true] at hbefore
      exact ⟨events, other, _, [], rfl, hnode, hactor, h, hbefore, rfl, hcancelled, .refl⟩

/-! ### What a runner overlooks -/

/-- What stopped a node that is seen to fail. -/
def Event.failure? : Event → Option (Halt FlowError)
  | .ended _ (.error halt) => some halt
  | _ => none

namespace Event

/-- The first failure that is seen. -/
def firstFailure? (events : List Event) : Option (Halt FlowError) :=
  events.findSome? failure?

/-- How many nodes are seen to end. -/
def endings (events : List Event) : Nat :=
  (events.filterMap ended?).length

theorem firstFailure?_append (events more : List Event) :
    firstFailure? (events ++ more) = (firstFailure? events).or (firstFailure? more) :=
  List.findSome?_append

theorem endings_append (events more : List Event) :
    endings (events ++ more) = endings events + endings more := by
  rw [endings, List.filterMap_append, List.length_append]
  rfl

theorem firstFailure?_starts (ids : List NodeId) : firstFailure? (ids.map started) = none :=
  List.findSome?_eq_none_iff.mpr (List.forall_mem_map.mpr fun _ _ ↦ rfl)

theorem endings_starts (ids : List NodeId) : endings (ids.map started) = 0 := by
  rw [endings, ← List.nil_append (ids.map started), filterMap_ended?_starts]
  rfl

theorem mem_of_firstFailure?_eq_some {events : List Event} {halt : Halt FlowError}
    (h : firstFailure? events = some halt) : ∃ id, ended id (.error halt) ∈ events := by
  obtain ⟨event, hmem, hevent⟩ := List.exists_of_findSome?_eq_some h
  match event, hevent with
  | .ended id (.error _), rfl => exact ⟨id, hmem⟩

end Event

/-- What stopped a computation. -/
def Halt.of? {ε α : Type} : Except (Halt ε) α → Option (Halt ε)
  | .ok _ => none
  | .error halt => some halt

theorem Halt.eq_error_iff {ε α : Type} {result : Except (Halt ε) α} {halt : Halt ε} :
    result = .error halt ↔ Halt.of? result = some halt := by
  cases result <;> simp [Halt.of?]

/-- What a distributed run reports when a task has failed. -/
def Distributed.noticed : Halt FlowError → FlowError
  | .error e => e
  | .crash => .internal "task failed to complete: the task crashed"

theorem RunContext.notices_eq_true_iff (context : RunContext ε) {turn : Nat}
    {env : Environment ε} : context.notices turn env = true ↔
      context.cancelled env = true ∧ context.schedule.missed turn = false := by
  rw [notices, Bool.and_eq_true, Bool.not_eq_true']

theorem RunContext.missed_of_unnoticed (context : RunContext ε) {turn : Nat} {env : Environment ε}
    (hcancelled : context.cancelled env = true) (hunnoticed : context.notices turn env = false) :
    context.schedule.missed turn = true := by
  rw [notices, hcancelled, Bool.true_and, Bool.not_eq_false'] at hunnoticed
  exact hunnoticed

namespace Runner

/-- What a run reports when a node has failed. -/
def reported (runner : Runner) (halt : Halt FlowError) : Halt FlowError :=
  match runner with
  | .distributed _ => .error (Distributed.noticed halt)
  | _ => halt

/-- Whether a runner takes what the next node to end gives before it looks for a cancellation. The
sequential runner always does. The distributed runner does when it misses the cancellation in that
turn. -/
def blind (runner : Runner) (schedule : Schedule) (front : List Event) : Bool :=
  match runner with
  | .sequential => true
  | .distributed _ => schedule.missed (Event.endings front)
  | .visualize _ => false

/-- What may follow on a node during which a run was cancelled: tasks in flight end. Nodes start
before that only if the distributed runner has missed the cancellation, and then those only that
idle workers begin with at once. -/
def WindsUp (runner : Runner) (schedule : Schedule) (front back : List Event) : Prop :=
  ∃ (ids : List NodeId) (rest : List Event), back = ids.map .started ++ rest ∧
    (∀ id, .started id ∉ rest) ∧
    (ids ≠ [] → runner ≠ .sequential ∧ runner.blind schedule front = true)

/-- What is reported of a failure is not that the run was cancelled. -/
theorem reported_ne_cancelled (runner : Runner) {halt : Halt FlowError}
    (h : halt ≠ .error .cancelled) : runner.reported halt ≠ .error .cancelled := by
  cases runner with
  | distributed workers =>
    cases halt with
    | error e => simpa [reported, Distributed.noticed] using h
    | crash => simp [reported, Distributed.noticed]
  | _ => exact h

/-- No failure is reported as a cancellation. -/
theorem reported_failure_ne (runner : Runner) {g : Graph ε σ} {context : RunContext ε}
    {start last : World ε σ} {front back : List Event} {id : NodeId}
    {outcome : Except (Halt FlowError) (List Payload)}
    (h : CancelledDuring g context start last front id outcome back) :
    (Event.firstFailure? (front ++ [.ended id outcome])).map runner.reported ≠
      some (.error .cancelled) := by
  intro hreported
  obtain ⟨halt, hfailure, hhalt⟩ := Option.map_eq_some_iff.mp hreported
  obtain ⟨other, hother⟩ := Event.mem_of_firstFailure?_eq_some hfailure
  have hevents := h.evolves
  rw [List.append_cons] at hevents
  exact runner.reported_ne_cancelled (hevents.ne_cancelled (List.mem_append_left _ hother)) hhalt

/-- How a run of so many nodes ends that was cancelled while a node worked: what was seen before, what
the node gave, what was seen after it, and what stopped the run, if anything did. -/
inductive Settled (runner : Runner) (schedule : Schedule) (total : Nat) (front : List Event) :
    Except (Halt FlowError) (List Payload) → List Event → Option (Halt FlowError) → Prop
  /-- The runner notices the cancellation when the node has ended. -/
  | noticed {outcome : Except (Halt FlowError) (List Payload)} {back : List Event}
      (hsound : Event.firstFailure? front = none) (hlooks : runner.blind schedule front = false)
      (hback : ∀ id, .started id ∉ back) :
      Settled runner schedule total front outcome back (some (.error .cancelled))
  /-- It takes what the node gave, and notices the cancellation before another node ends. -/
  | belated {outputs : List Payload} {back : List Event}
      (hsound : Event.firstFailure? front = none) (hmore : Event.endings front + 1 ≠ total)
      (hback : runner.WindsUp schedule front back) :
      Settled runner schedule total front (.ok outputs) back (some (.error .cancelled))
  /-- It takes what the node gave, and no node is left. -/
  | ending {outputs : List Payload} (hsound : Event.firstFailure? front = none)
      (hblind : runner.blind schedule front = true) (hlast : Event.endings front + 1 = total) :
      Settled runner schedule total front (.ok outputs) [] none
  /-- It takes that the node has failed. -/
  | failing {halt : Halt FlowError} {back : List Event}
      (hsound : Event.firstFailure? front = none) (hblind : runner.blind schedule front = true)
      (hback : ∀ id, .started id ∉ back) :
      Settled runner schedule total front (.error halt) back (some (runner.reported halt))
  /-- Another node had failed before. -/
  | late {outcome : Except (Halt FlowError) (List Payload)} {back : List Event}
      {halt : Halt FlowError} (hfailed : Event.firstFailure? front = some halt)
      (hback : ∀ id, .started id ∉ back) :
      Settled runner schedule total front outcome back (some (runner.reported halt))

theorem windsUp_of_quiet (runner : Runner) (schedule : Schedule) (front : List Event)
    {back : List Event} (hback : ∀ id, .started id ∉ back) :
    runner.WindsUp schedule front back :=
  ⟨[], back, rfl, hback, fun hids ↦ absurd rfl hids⟩

theorem Settled.windsUp {runner : Runner} {schedule : Schedule} {total : Nat}
    {front back : List Event} {outcome : Except (Halt FlowError) (List Payload)}
    {halt? : Option (Halt FlowError)}
    (h : runner.Settled schedule total front outcome back halt?) :
    runner.WindsUp schedule front back := by
  cases h with
  | noticed hsound hlooks hback => exact windsUp_of_quiet runner schedule front hback
  | belated hsound hmore hback => exact hback
  | ending hsound hblind hlast => exact windsUp_of_quiet runner schedule front fun _ ↦ List.not_mem_nil
  | failing hsound hblind hback => exact windsUp_of_quiet runner schedule front hback
  | late hfailed hback => exact windsUp_of_quiet runner schedule front hback

end Runner

/-! ### Sequential runs -/

namespace Sequential

variable {g : Graph ε σ} {context : RunContext ε} {p : Produced} {start w last : World ε σ}

/-- When visiting nodes is cancelled on the way, the node during which it was is the last to
start. -/
theorem settled_visitAll (hg : g.Sound) {ids : List NodeId} {events : List Event}
    (hbegun : Evolves g context.binding start events w)
    (hsound : Event.firstFailure? events = none)
    (hcount : Event.endings events + ids.length = g.nodes.length)
    (hlive : context.cancelled w.environment = false) {result : Except (Halt FlowError) Produced}
    (hresult : Flow.result (visitAll g context ids p) w = (result, last))
    (hcancelled : context.cancelled last.environment = true) :
    ∃ front id outcome,
      events ++ tracing.visitAll g context ids p w = front ++ [.ended id outcome] ∧
      CancelledDuring g context start last front id outcome [] ∧
      Runner.sequential.Settled context.schedule g.nodes.length front outcome []
        (Halt.of? result) := by
  induction ids generalizing events p w with
  | nil =>
    obtain ⟨-, rfl⟩ := Prod.mk.inj hresult
    rw [hlive] at hcancelled
    cases hcancelled
  | cons id rest ih =>
    have hactor : ∀ {node : Node ε σ} {actor : InstanceId} {inputs : List Payload},
        g.nodes[id]? = some node → prepare g context p node = .ok (actor, inputs) →
        context.binding[id]? = some actor := fun hnode hready ↦
      hg.wired.id_eq id _ hnode ▸ (prepare_eq_ok.mp hready).2
    have hstarted := hbegun.started id
    have hsound' : Event.firstFailure? (events ++ [.started id]) = none := by
      rw [Event.firstFailure?_append, hsound]
      rfl
    have hcount' : Event.endings (events ++ [.started id]) = Event.endings events :=
      Event.endings_append events [.started id]
    rw [visitAll, Flow.result_bind] at hresult
    rw [Observer.visitAll]
    rw [List.length_cons] at hcount
    cases visited g context p id w with
    | refused hseen hvisit hevolves hexplained =>
      rw [hvisit] at hresult
      obtain ⟨-, rfl⟩ := Prod.mk.inj hresult
      rw [hevolves.environment_of_nil, hlive] at hcancelled
      cases hcancelled
    | @failed node actor inputs halt mid after hnode hready hexecute hseen hvisit hevolves =>
      rw [hvisit] at hresult ⊢
      obtain ⟨rfl, rfl⟩ := Prod.mk.inj hresult
      rw [hevolves.environment_of_nil] at hcancelled
      rw [hseen, List.append_nil]
      refine ⟨_, id, _, List.append_cons _ _ _, ?_, .failing hsound' rfl fun _ ↦ List.not_mem_nil⟩
      exact ⟨hnode, hactor hnode hready, hstarted, hlive, hexecute, hcancelled, hevolves⟩
    | @completed node actor inputs outputs after hnode hready hexecute hseen hvisit =>
      rw [hvisit] at hresult ⊢
      rw [hseen]
      dsimp only at hresult ⊢
      by_cases hafter : context.cancelled after.environment = true
      · have hduring : CancelledDuring g context start after (events ++ [.started id]) id
            (.ok outputs) [] :=
          ⟨hnode, hactor hnode hready, hstarted, hlive, hexecute, hafter, .refl⟩
        cases rest with
        | nil =>
          obtain ⟨rfl, rfl⟩ := Prod.mk.inj hresult
          exact ⟨_, id, _, List.append_cons _ _ _, hduring, .ending hsound' rfl (hcount' ▸ hcount)⟩
        | cons next others =>
          -- The run looks at its token before the next node, and stops there.
          have hnext := result_visit_of_cancelled g hafter (p.record id outputs) next
          have hmore : Event.endings (events ++ [.started id]) + 1 ≠ g.nodes.length := by
            rw [List.length_cons] at hcount
            omega
          rw [visitAll, Flow.result_bind, hnext] at hresult
          obtain ⟨rfl, rfl⟩ := Prod.mk.inj hresult
          rw [Observer.visitAll, tracing.visit_of_cancelled g hafter, hnext]
          exact ⟨_, id, _, List.append_cons _ _ _, hduring.told _, .belated hsound' hmore
            (Runner.windsUp_of_quiet _ _ _ fun _ ↦ List.not_mem_nil)⟩
      · rw [Bool.not_eq_true] at hafter
        have hended := hstarted.ended hnode (hactor hnode hready) inputs
        rw [hexecute, List.append_assoc] at hended
        rw [← List.append_assoc]
        refine ih hended ?_ ?_ hafter hresult
        · rw [Event.firstFailure?_append, hsound]
          rfl
        · rw [Event.endings_append, ← hcount, Nat.add_comm rest.length 1, ← Nat.add_assoc]
          rfl

theorem settled_run (hg : g.Sound) (hlive : context.cancelled w.environment = false)
    {result : Except (Halt FlowError) Report}
    (hresult : Flow.result (run g context) w = (result, last))
    (hcancelled : context.cancelled last.environment = true) :
    ∃ front id outcome, trace g context w = front ++ [.ended id outcome] ∧
      CancelledDuring g context w last front id outcome [] ∧
      Runner.sequential.Settled context.schedule g.nodes.length front outcome []
        (Halt.of? result) := by
  have hbegun : Evolves g context.binding w [] (w.told (.runStarted name g.mode g.nodes.length)) :=
    Evolves.refl.told _
  have hcount : Event.endings [] + g.order.length = g.nodes.length := by
    rw [hg.toValid.orders.perm.length_eq, List.length_range]
    exact Nat.zero_add _
  rw [result_run] at hresult
  rcases hvisits : Flow.result (visitAll g context g.order .nothing)
    (w.told (.runStarted name g.mode g.nodes.length)) with ⟨halt | p, after⟩
  · rw [hvisits] at hresult
    obtain ⟨rfl, rfl⟩ := Prod.mk.inj hresult
    exact settled_visitAll hg hbegun rfl hcount hlive hvisits hcancelled
  · rw [hvisits] at hresult
    obtain ⟨rfl, rfl⟩ := Prod.mk.inj hresult
    obtain ⟨front, id, outcome, hevents, hduring, hsettled⟩ :=
      settled_visitAll hg hbegun rfl hcount hlive hvisits hcancelled
    exact ⟨front, id, outcome, hevents, hduring.told _, hsettled⟩

end Sequential

end Dataflow
