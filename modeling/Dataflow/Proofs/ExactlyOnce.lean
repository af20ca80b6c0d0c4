import Dataflow.Proofs.ConcurrentTraces
import Mathlib.Data.Finset.Card

/-!
# Every task runs once, and the run is never stuck

`Distributed.Attained` are the states at which the loop of the distributed runner can stand, with
what has been seen so far, as long as no task has failed and the run has not been cancelled: tasks
start from the front of the queue while workers are idle, and then any task in flight ends, with any
outputs. What a turn can come to is said once (`Distributed.Attained.outcome`), so the states of a
run are among them, whatever the schedule and the actors are (`Distributed.Attained.turns`).

At such a state the tasks are told apart by the queue, the tasks in flight, the recorded outputs and
the counters (`Distributed.Phase`), and the counters are those of what the state itself shows to be
missing (`Distributed.Orderly`). One step and one induction carry this
(`Distributed.Attained.exists_recorded`): what has been seen accounts for the recorded outputs, and
the counters are right for the nodes that have ended.

Since a node that is missing has a first missing one among those it waits for, some task is in
flight whenever idle workers have been given work (`Distributed.Live`). So one of the ways for a
turn to end never occurs, and the run goes on until all tasks are completed
(`Distributed.exactly_once`).
-/

set_option autoImplicit false
set_option relaxedAutoImplicit false

namespace Dataflow

variable {ε σ : Type}

/-- The node that is seen to start. -/
def Event.started? : Event → Option NodeId
  | .started id => some id
  | .ended _ _ => none

/-- The nodes that a node waits for: the tails of the data edges and of the state edges into it,
each once. -/
def Graph.predecessors (g : Graph ε σ) (id : NodeId) : Finset NodeId :=
  ((g.edges.filter (·.head = id)).map Edge.tail).toFinset

theorem Graph.predecessors_eq (g : Graph ε σ) (id : NodeId) :
    g.predecessors id = (g.dependencies id).toFinset := by
  ext other
  rw [List.mem_toFinset, mem_dependencies]
  simp [predecessors, and_assoc]

namespace Distributed

/-! ### States of the loop -/

/-- What a run reports when it is stuck. -/
def stuck : FlowError :=
  .internal "no runnable tasks left before completion"

/-- The state when a task in flight has ended, before its dependents are released. -/
def Progress.ended (s : Progress ε σ) (position : Nat) (id : NodeId) (outputs : List Payload) :
    Progress ε σ :=
  { s with
    running := s.running.eraseIdx position
    produced := s.produced.record id outputs
    completed := s.completed + 1 }

/-- The states at which the loop can stand, and what has been seen by then. While workers are idle
the first task of the queue starts. When no more can start, any task in flight may end. -/
inductive Attained (g : Graph ε σ) (context : RunContext ε) (workers : Nat) :
    List Event → Progress ε σ → Prop
  | start : Attained g context workers [] (.start (TaskGraph.compile g))
  | starts {events : List Event} {s : Progress ε σ} (h : Attained g context workers events s)
      (hidle : s.running.length < workers) {rank : Nat} {id : NodeId} {rest : ReadyQueue}
      (hqueue : s.ready = (rank, id) :: rest) {task : Job ε σ}
      (hjob : job g context s.produced id = .ok task) :
      Attained g context workers (events ++ [.started id])
        { s with ready := rest, running := s.running ++ [task] }
  | ends {events : List Event} {s : Progress ε σ} (h : Attained g context workers events s)
      (hfilled : s.ready = [] ∨ workers ≤ s.running.length) {position : Nat} {ended : Job ε σ}
      (hended : s.running[position]? = some ended) (outputs : List Payload) :
      Attained g context workers (events ++ [.ended ended.node.id (.ok outputs)])
        (complete (TaskGraph.compile g) { s with running := s.running.eraseIdx position }
          ended.node.id outputs)

/-- How far a task has come. -/
inductive Phase
  | waiting
  | ready
  | running
  | completed
  deriving DecidableEq

/-- How far the task of a node has come: it waits for others, it is in the queue, it is in flight,
or its outputs are recorded. -/
def Progress.Stands (s : Progress ε σ) (id : NodeId) : Phase → Prop
  | .waiting => 0 < s.pending.getD id 0
  | .ready => id ∈ s.ready.map Prod.snd
  | .running => id ∈ s.running.map fun job ↦ job.node.id
  | .completed => (s.produced id).isSome = true

instance (s : Progress ε σ) (id : NodeId) : (phase : Phase) → Decidable (s.Stands id phase)
  | .waiting => inferInstanceAs (Decidable (0 < s.pending.getD id 0))
  | .ready => inferInstanceAs (Decidable (id ∈ s.ready.map Prod.snd))
  | .running => inferInstanceAs (Decidable (id ∈ s.running.map fun job ↦ job.node.id))
  | .completed => inferInstanceAs (Decidable ((s.produced id).isSome = true))

/-- Every task is in one phase, once, and starts once, behind the tasks it waits for; its counter
says how many of these are missing; and no more tasks are in flight than there are workers. -/
structure Orderly (g : Graph ε σ) (workers : Nat) (events : List Event) (s : Progress ε σ) :
    Prop where
  phase : ∀ id < g.nodes.length, ∃! phase, s.Stands id phase
  once : (s.ready.map Prod.snd ++ s.running.map fun job ↦ job.node.id).Nodup
  pending : ∀ id < g.nodes.length,
    s.pending[id]? = some {tail ∈ g.predecessors id | s.produced tail = none}.card
  bounded : s.running.length ≤ workers
  startable : ∀ id, s.Stands id .ready → ∀ tail ∈ g.predecessors id, s.Stands tail .completed
  heeds : g.Heeds events
  started_once : (events.filterMap Event.started?).Nodup
  mem_started : ∀ id, id ∈ events.filterMap Event.started? ↔
    s.Stands id .running ∨ s.Stands id .completed
  completed : s.completed = {id ∈ Finset.range g.nodes.length | s.Stands id .completed}.card

variable {g : Graph ε σ} {context : RunContext ε} {workers : Nat} {events : List Event}
  {s : Progress ε σ} {done : List NodeId} {id : NodeId}

/-! ### What has been seen accounts for the state -/

/-- What has been seen accounts for what is recorded, the counters are right for the nodes that have
ended, and those that have started are these and the nodes in flight. -/
structure Recorded (g : Graph ε σ) (workers : Nat) (events : List Event) (s : Progress ε σ)
    (done : List NodeId) : Prop where
  tallied : Tallied g s done
  accounts : Accounts g events done s.produced
  bounded : s.running.length ≤ workers
  started : (events.filterMap Event.started?).Perm (done ++ s.running.map fun job ↦ job.node.id)

theorem recorded_start (hg : g.Valid) (workers : Nat) :
    Recorded g workers [] (.start (TaskGraph.compile g) : Progress ε σ) [] where
  tallied := tallied_start hg
  accounts := .nil g
  bounded := Nat.zero_le _
  started := .refl _

/-- The first task of the queue starts. -/
theorem Recorded.starts (h : Recorded g workers events s done) (hidle : s.running.length < workers)
    {rank : Nat} {rest : ReadyQueue} (hqueue : s.ready = (rank, id) :: rest) {task : Job ε σ}
    (htask : task.node.id = id) :
    Recorded g workers (events ++ [.started id])
      { s with ready := rest, running := s.running ++ [task] } done where
  tallied := h.tallied.starts hqueue task htask
  accounts := h.accounts.starts [id] fun other hother ↦ by
    rw [List.mem_singleton.mp hother]
    exact (h.tallied.ready_head hqueue).ready
  bounded := by
    rw [List.length_append]
    exact hidle
  started := by
    rw [List.filterMap_append, List.map_append, ← List.append_assoc]
    refine (h.started.append_right _).trans ?_
    simp [Event.started?, htask]

/-- A task in flight ends. -/
theorem Recorded.ends (h : Recorded g workers events s done) (hg : g.Valid) {position : Nat}
    {ended : Job ε σ} (hended : s.running[position]? = some ended) (outputs : List Payload) :
    Recorded g workers (events ++ [.ended ended.node.id (.ok outputs)])
      (complete (TaskGraph.compile g) { s with running := s.running.eraseIdx position }
        ended.node.id outputs) (done ++ [ended.node.id]) := by
  have hready := h.tallied.ready_running (List.mem_of_getElem? hended)
  have hreleased := h.tallied.released hg hended outputs
  obtain ⟨hposition, rfl⟩ := List.getElem?_eq_some_iff.mp hended
  refine ⟨h.tallied.complete hg hended outputs, ?_, ?_, ?_⟩
  · rw [hreleased.produced]
    exact h.accounts.ends hready.fresh outputs
  · rw [hreleased.running]
    exact Nat.le_trans (List.length_eraseIdx_le ..) h.bounded
  · rw [hreleased.running, List.filterMap_append]
    refine (List.append_nil _).symm ▸ h.started.trans ?_
    rw [List.append_assoc]
    exact ((List.getElem_cons_eraseIdx_perm hposition).map (·.node.id)).symm.append_left _

theorem Attained.exists_recorded (h : Attained g context workers events s) (hg : g.Valid) :
    ∃ done, Recorded g workers events s done := by
  induction h with
  | start => exact ⟨[], recorded_start hg workers⟩
  | starts _ hidle hqueue hjob ih =>
    obtain ⟨done, hrecorded⟩ := ih
    exact ⟨done, hrecorded.starts hidle hqueue (job_eq_ok hg hjob).1⟩
  | ends _ _ hended outputs ih =>
    obtain ⟨done, hrecorded⟩ := ih
    exact ⟨_, hrecorded.ends hg hended outputs⟩

/-! ### Phases -/

section Recorded

theorem Recorded.isSome_produced (h : Recorded g workers events s done) :
    (s.produced id).isSome = true ↔ id ∈ done := by
  rw [h.accounts.mem_done, Option.isSome_iff_exists]

/-- A counter says how many of the tasks are missing that a task waits for. -/
theorem Recorded.missing_eq (h : Recorded g workers events s done) (id : NodeId) :
    g.missing done id = {tail ∈ g.predecessors id | s.produced tail = none}.card := by
  have hmissing : {tail ∈ g.predecessors id | s.produced tail = none} =
      ((g.dependencies id).filter (· ∉ done)).toFinset := by
    ext tail
    rw [g.predecessors_eq, Finset.mem_filter, List.mem_toFinset, List.mem_toFinset,
      List.mem_filter, decide_eq_true_eq, ← h.isSome_produced, Option.not_isSome_iff_eq_none]
  rw [hmissing, List.toFinset_card_of_nodup ((g.nodup_dependencies id).filter _), Graph.missing,
    List.countP_eq_length_filter]

theorem Recorded.waits_iff (h : Recorded g workers events s done) (hid : id < g.nodes.length) :
    s.Stands id .waiting ↔ id ∉ done ∧ ¬ g.Ready done id := by
  have hpending : s.pending.getD id 0 = g.missing done id := by
    rw [List.getD_eq_getElem?_getD, h.tallied.pending id hid, Option.getD_some]
  change 0 < s.pending.getD id 0 ↔ _
  rw [hpending, Nat.pos_iff_ne_zero, Ne, Graph.missing_eq_zero]
  constructor
  · intro hmissing
    exact ⟨fun hdone ↦ hmissing (h.tallied.begun.closed id hdone),
      fun hready ↦ hmissing hready.ready⟩
  · rintro ⟨hfresh, hready⟩ hall
    exact hready ⟨hid, hfresh, hall⟩

/-- A task is in the queue or in flight, but not both, exactly if it waits for nothing else. -/
theorem Recorded.ready_iff (h : Recorded g workers events s done) :
    s.Stands id .ready ∨ s.Stands id .running ↔ g.Ready done id :=
  List.mem_append.symm.trans (h.tallied.mem_available id)

theorem Recorded.not_both (h : Recorded g workers events s done) (hready : s.Stands id .ready) :
    ¬ s.Stands id .running := fun hrunning ↦
  (List.nodup_append.mp h.tallied.nodup).2.2 id hready id hrunning rfl

theorem Recorded.existsUnique_phase (h : Recorded g workers events s done)
    (hid : id < g.nodes.length) : ∃! phase, s.Stands id phase := by
  have hwaits := h.waits_iff hid
  have hready : s.Stands id .ready ∨ s.Stands id .running ↔ g.Ready done id := h.ready_iff
  have hboth : s.Stands id .ready → ¬ s.Stands id .running := h.not_both
  have hfresh : g.Ready done id → id ∉ done := Graph.Ready.fresh
  have hcompleted : s.Stands id .completed ↔ id ∈ done := h.isSome_produced
  have hphase : ∃ phase, s.Stands id phase := by
    by_cases hdone : id ∈ done
    · exact ⟨.completed, hcompleted.mpr hdone⟩
    by_cases hnow : g.Ready done id
    · rcases hready.mpr hnow with hstands | hstands
      · exact ⟨.ready, hstands⟩
      · exact ⟨.running, hstands⟩
    · exact ⟨.waiting, hwaits.mpr ⟨hdone, hnow⟩⟩
  obtain ⟨phase, hstands⟩ := hphase
  refine ⟨phase, hstands, fun other hother ↦ ?_⟩
  cases phase <;> cases other <;> grind

theorem Recorded.orderly (h : Recorded g workers events s done) : Orderly g workers events s where
  phase id hid := h.existsUnique_phase hid
  once := h.tallied.nodup
  pending id hid := by
    rw [h.tallied.pending id hid, h.missing_eq]
  bounded := h.bounded
  startable id hready tail htail := by
    rw [g.predecessors_eq, List.mem_toFinset] at htail
    exact h.isSome_produced.mpr ((h.ready_iff.mp (.inl hready)).ready tail htail)
  heeds := h.accounts.heeds
  started_once := by
    have hrunning := (List.nodup_append.mp h.tallied.nodup).2.1
    refine h.started.nodup_iff.mpr (List.nodup_append.mpr ⟨h.accounts.nodup, hrunning, ?_⟩)
    rintro other hother id hid rfl
    exact (h.ready_iff.mp (.inr hid)).fresh hother
  mem_started id := by
    rw [h.started.mem_iff, List.mem_append, or_comm]
    exact or_congr_right h.isSome_produced.symm
  completed := by
    have hall : {id ∈ Finset.range g.nodes.length | s.Stands id .completed} = done.toFinset := by
      ext id
      rw [Finset.mem_filter, Finset.mem_range, List.mem_toFinset]
      exact ⟨fun hboth ↦ h.isSome_produced.mp hboth.2,
        fun hdone ↦ ⟨h.tallied.begun.lt id hdone, h.isSome_produced.mpr hdone⟩⟩
    rw [hall, List.toFinset_card_of_nodup h.accounts.nodup, h.tallied.completed]

end Recorded

/-! ### Turns -/

/-- Starting tasks goes from one state of the loop to another, at which no more can start. -/
theorem Attained.filling (h : Attained g context workers events s) (hg : g.Valid)
    {started : List (Job ε σ)} {filled : Progress ε σ} {fault : Option FlowError}
    (hfilling : Filling g context workers s started filled fault) (hfault : fault = none) :
    filled.completed = s.completed ∧ (filled.ready = [] ∨ workers ≤ filled.running.length) ∧
      Attained g context workers (events ++ started.map fun job ↦ .started job.node.id) filled := by
  induction hfilling generalizing events with
  | full hfull => exact ⟨rfl, hfull, by simpa using h⟩
  | @starts _ _ _ id _ first _ _ hidle hqueue hjob hrest ih =>
    obtain ⟨hcompleted, hfull, hattained⟩ := ih (h.starts hidle hqueue hjob) hfault
    have hself : first.node.id = id := (job_eq_ok hg hjob).1
    refine ⟨hcompleted, hfull, ?_⟩
    rw [List.map_cons, hself, List.append_cons]
    exact hattained
  | refused hqueue hjob => cases hfault

/-- How a turn can end: a task cannot be started, the run has been cancelled, nothing is in flight,
the task that the schedule names has failed or crashed, or one more task is completed. -/
inductive Outcome (g : Graph ε σ) (context : RunContext ε) (workers : Nat) (events : List Event)
    (s : Progress ε σ) (w : World ε σ) : Except (Halt FlowError) (Progress ε σ) → Prop
  | unstartable {e : FlowError} (he : e.Unstartable) :
      Outcome g context workers events s w (.error (.error e))
  | cancelled : Outcome g context workers events s w (.error (.error .cancelled))
  | stuck {before : List Event} {filled : Progress ε σ}
      (hfilled : Attained g context workers before filled)
      (hcompleted : filled.completed = s.completed)
      (hfull : filled.ready = [] ∨ workers ≤ filled.running.length)
      (hnone : filled.running = []) : Outcome g context workers events s w (.error (.error stuck))
  | failed {node : Node ε σ} {actor : InstanceId} {inputs : List Payload} {e : FlowError}
      (hexecute : (Action.result (execute node actor inputs) w).1 = .error (.error e)) :
      Outcome g context workers events s w (.error (.error e))
  | crashed : Outcome g context workers events s w
      (.error (.error (.internal "task failed to complete: the task crashed")))
  | completed {next : Progress ε σ} (hcompleted : next.completed = s.completed + 1)
      (hnext : Attained g context workers (events ++ tracing.turn g context workers s w) next) :
      Outcome g context workers events s w (.ok next)

theorem Attained.outcome (h : Attained g context workers events s) (hg : g.Valid) (w : World ε σ) :
    Outcome g context workers events s w
      (Flow.result (turn g context (TaskGraph.compile g) workers s) w).1 := by
  obtain ⟨started, filled, fault, hfill, hfilling⟩ := exists_filling g context workers s
  obtain ⟨done, hrecorded⟩ := h.exists_recorded hg
  have hthrough := hfilling.filled hg hrecorded.tallied
  cases fault with
  | some e =>
    rw [result_turn_of_fault _ hfill]
    exact .unstartable (hthrough.unstartable e rfl)
  | none =>
    obtain ⟨hcompleted, hfull, hfilled⟩ := h.filling hg hfilling rfl
    by_cases hcancelled : context.cancelled w.environment = true
    · rw [result_turn_of_cancelled _ hfill hcancelled]
      exact .cancelled
    rw [Bool.not_eq_true] at hcancelled
    generalize hposition : context.schedule.next filled.completed % filled.running.length = position
    cases hended : filled.running[position]? with
    | none =>
      have hnone : filled.running = [] := by
        by_contra hsome
        have hlt := Nat.mod_lt (context.schedule.next filled.completed)
          (List.length_pos_of_ne_nil hsome)
        rw [hposition] at hlt
        rw [List.getElem?_eq_getElem hlt] at hended
        cases hended
      rw [← hposition] at hended
      rw [result_turn_of_idle _ hfill hcancelled hended]
      exact .stuck hfilled hcompleted hfull hnone
    | some ended =>
      rcases hexecute : Action.result (execute ended.node ended.actor ended.inputs) w with
        ⟨outcome, after⟩
      obtain ⟨more, hseen, hclosed⟩ := tracing.closed_turn (TaskGraph.compile g) hfill
        hthrough.running hcancelled hposition hended hexecute
      rw [tracing_work, hexecute, starts_tracing, List.map_map] at hseen
      generalize Flow.result (turn g context (TaskGraph.compile g) workers s) w = result at hclosed
      cases hclosed with
      | noticed hnoticed => exact .cancelled
      | failed hunnoticed => exact .failed (congrArg Prod.fst hexecute)
      | crashed hunnoticed => exact .crashed
      | @completed outputs hunnoticed =>
        have hends := hfilled.ends hfull hended outputs
        rw [List.append_assoc] at hends
        rw [List.append_nil] at hseen
        refine .completed ?_ (hseen ▸ hends)
        rw [((hthrough.tallied rfl).released hg hended outputs).completed, hcompleted]

theorem ne_stuck_of_unstartable {e : FlowError} (h : e.Unstartable) : e ≠ stuck := by
  intro he
  have hopening : ∀ front rest : String, FlowError.internal (front ++ rest) = stuck →
      front.toList.isPrefixOf "no runnable tasks left before completion".toList = true := by
    intro front rest hsame
    rw [← FlowError.internal.inj hsame, String.toList_append, List.isPrefixOf_iff_prefix]
    exact List.prefix_append _ _
  cases h with
  | input rest => exact absurd (hopening _ _ he) (by decide)
  | actor rest => exact absurd (hopening _ _ he) (by decide)
  | task rest => exact absurd (hopening _ _ he) (by decide)

theorem ne_stuck_of_execute {node : Node ε σ} {actor : InstanceId} {inputs : List Payload}
    {w : World ε σ} {e : FlowError}
    (h : (Action.result (execute node actor inputs) w).1 = .error (.error e)) : e ≠ stuck := by
  rw [execute, Action.result_bind] at h
  generalize (Action.result (perform node actor inputs) w).1 = found at h
  rcases found with _ | ((cause | _) | outputs)
  · exact ne_stuck_of_unstartable (Halt.error.inj (Except.error.inj h) ▸ .actor _)
  · obtain rfl := Halt.error.inj (Except.error.inj h)
    cases cause <;> exact fun hsame ↦ nomatch hsame
  · cases Except.error.inj h
  · cases h

/-! ### The run -/

/-- The tasks that wait for a task in flight still wait when their turn comes to be released, so no
counter is taken below zero. -/
def Progress.Decrements (g : Graph ε σ) (s : Progress ε σ) : Prop :=
  ∀ (position : Nat) (ended : Job ε σ), s.running[position]? = some ended →
    ∀ (outputs : List Payload) (before : List NodeId) (id : NodeId) (after : List NodeId),
      (TaskGraph.compile g)[ended.node.id]?.map Task.dependents = some (before ++ id :: after) →
      0 < (before.foldl (release (TaskGraph.compile g))
        (s.ended position ended.node.id outputs)).pending.getD id 0

/-- A run that stands here goes on until all tasks are completed: no counter is taken below zero,
idle workers find some task to start or have left some in flight, and then a turn does not end for
want of one; and at the end there is nothing left to start or to wait for. -/
structure Live (g : Graph ε σ) (context : RunContext ε) (workers : Nat) (s : Progress ε σ) :
    Prop where
  decrements : s.Decrements g
  running : s.completed < g.nodes.length → ∀ filled,
    fill g context workers s.ready.length s = (filled, none) → 0 < filled.running.length
  turn : s.completed < g.nodes.length → ∀ w,
    (Flow.result (turn g context (TaskGraph.compile g) workers s) w).1 ≠ .error (.error stuck)
  finished : s.completed = g.nodes.length → s.ready = [] ∧ s.running = []

theorem Recorded.decrements (h : Recorded g workers events s done) (hg : g.Valid) :
    s.Decrements g := by
  intro position ended hended outputs before id after hdependents
  have hready := h.tallied.ready_running (List.mem_of_getElem? hended)
  rw [TaskGraph.getElem?_compile hg hready.lt] at hdependents
  have hsplit : g.dependents ended.node.id = before ++ id :: after := Option.some.inj hdependents
  have hnodup := g.nodup_dependents ended.node.id
  rw [hsplit] at hnodup
  obtain ⟨hbefore, -, hapart⟩ := List.nodup_append.mp hnodup
  have hlt : ∀ other ∈ before ++ id :: after, other < g.nodes.length ∧
      ended.node.id ∈ g.dependencies other := fun other hother ↦
    Graph.mem_dependents.mp (hsplit ▸ hother)
  obtain ⟨hid, hdepends⟩ := hlt id (List.mem_append_right _ List.mem_cons_self)
  have hfresh : id ∉ before := fun hmem ↦ hapart id hmem id List.mem_cons_self rfl
  have hreleased := released_foldl hg (s.ended position ended.node.id outputs) hbefore
    (fun other hother ↦ (hlt other (List.mem_append_left _ hother)).1) h.tallied.length_pending
  have hpending : (s.ended position ended.node.id outputs).pending[id]? =
      some (g.missing done id) := h.tallied.pending id hid
  rw [List.getD_eq_getElem?_getD, hreleased.pending id hid, hpending, Option.map_some,
    if_neg hfresh, Option.getD_some, Graph.missing_snoc hready.fresh, if_pos hdepends]
  exact Nat.succ_pos _

theorem Attained.live (h : Attained g context workers events s) (hg : g.Valid)
    (hworkers : 1 ≤ workers) : Live g context workers s := by
  obtain ⟨done, hrecorded⟩ := h.exists_recorded hg
  have hrunning : ∀ {before : List Event} {filled : Progress ε σ},
      Attained g context workers before filled → filled.completed < g.nodes.length →
      filled.ready = [] ∨ workers ≤ filled.running.length → 0 < filled.running.length := by
    intro before filled hfilled hlt hfull
    obtain ⟨all, hall⟩ := hfilled.exists_recorded hg
    obtain ⟨id, hid, hmissing⟩ := exists_notMem_of_length_lt (hall.tallied.completed ▸ hlt)
    exact hall.tallied.running_pos hg hworkers hfull hid hmissing
  refine ⟨hrecorded.decrements hg, fun hlt filled hfill ↦ ?_, fun hlt w hresult ↦ ?_,
    fun hall ↦ ?_⟩
  · obtain ⟨started, other, fault, hother, hfilling⟩ := exists_filling g context workers s
    obtain ⟨rfl, rfl⟩ := Prod.mk.inj (hother.symm.trans hfill)
    obtain ⟨hcompleted, hfull, hfilled⟩ := h.filling hg hfilling rfl
    exact hrunning hfilled (hcompleted ▸ hlt) hfull
  · have houtcome := h.outcome hg w
    rw [hresult] at houtcome
    generalize hstuck : stuck = e at houtcome
    cases houtcome with
    | unstartable he => exact ne_stuck_of_unstartable he hstuck.symm
    | cancelled => cases hstuck
    | stuck hfilled hcompleted hfull hnone =>
      have hpos := hrunning hfilled (hcompleted ▸ hlt) hfull
      rw [hnone] at hpos
      exact Nat.lt_irrefl 0 hpos
    | failed hexecute => exact ne_stuck_of_execute hexecute hstuck.symm
    | crashed => exact absurd (FlowError.internal.inj hstuck) (by decide)
  · have hdone : ∀ id < g.nodes.length, id ∈ done := fun id hid ↦
      mem_of_length_eq hrecorded.tallied.begun (hrecorded.tallied.completed ▸ hall) hid
    have hnone : s.available = [] := by
      refine List.eq_nil_iff_forall_not_mem.mpr fun id hid ↦ ?_
      have hready := (hrecorded.tallied.mem_available id).mp hid
      exact hready.fresh (hdone id hready.lt)
    obtain ⟨hready, hrunning⟩ := List.append_eq_nil_iff.mp hnone
    exact ⟨List.map_eq_nil_iff.mp hready, List.map_eq_nil_iff.mp hrunning⟩

/-- Turns go from one state of the loop to another, with one more task completed in each. -/
theorem Attained.turns (h : Attained g context workers events s) (hg : g.Valid) {left : Nat}
    {w after : World ε σ} {last : Progress ε σ}
    (hresult : Flow.result (turns g context (TaskGraph.compile g) workers left s) w =
      (.ok last, after)) :
    last.completed = s.completed + left ∧ Attained g context workers
      (events ++ tracing.turns g context (TaskGraph.compile g) workers left s w) last := by
  induction left generalizing s events w with
  | zero =>
    obtain rfl := Except.ok.inj (Prod.mk.inj hresult).1
    exact ⟨rfl, (List.append_nil events).symm ▸ h⟩
  | succ left ih =>
    rw [Distributed.turns, Flow.result_bind] at hresult
    rw [Observer.turns, ← List.append_assoc]
    have houtcome := h.outcome hg w
    rcases hturn : Flow.result (turn g context (TaskGraph.compile g) workers s) w with
      ⟨halt | next, mid⟩
    · rw [hturn] at hresult
      cases (Prod.mk.inj hresult).1
    · rw [hturn] at hresult houtcome
      cases houtcome with
      | completed hcompleted hnext =>
        obtain ⟨hlast, hattained⟩ := ih hnext hresult
        refine ⟨?_, hattained⟩
        omega

/-- Turns do not end for want of a task in flight, if there are not more turns than tasks that are
not completed. -/
theorem Attained.turns_ne_stuck (h : Attained g context workers events s) (hg : g.Valid)
    (hworkers : 1 ≤ workers) {left : Nat} (hleft : s.completed + left ≤ g.nodes.length)
    (w : World ε σ) :
    (Flow.result (Distributed.turns g context (TaskGraph.compile g) workers left s) w).1 ≠
      .error (.error stuck) := by
  induction left generalizing s events w with
  | zero => exact fun hresult ↦ nomatch hresult
  | succ left ih =>
    have hturn := (h.live hg hworkers).turn (by omega) w
    have houtcome := h.outcome hg w
    rw [Distributed.turns, Flow.result_bind]
    rcases hresult : Flow.result (turn g context (TaskGraph.compile g) workers s) w with
      ⟨halt | next, mid⟩
    · rwa [hresult] at hturn
    · rw [hresult] at houtcome
      cases houtcome with
      | completed hcompleted hnext => exact ih hnext (by omega) mid

/-- Whatever the graph, the binding, the actors and the order in which tasks end: at every state of
the loop each task is in one phase, with the counters and the limits that go with it, and until all
tasks are completed some task is in flight when idle workers have been given work. Runs go through
such states, complete one task in each turn, never report to be stuck, and succeed with all tasks
completed. -/
theorem exactly_once {b : Builder ε σ} {g : Graph ε σ} (hb : b.Assembled)
    (hbuild : b.build = .ok g) (context : RunContext ε) (maxConcurrency : Nat) :
    (∀ events s, Attained g context (max maxConcurrency 1) events s →
      Orderly g (max maxConcurrency 1) events s ∧ Live g context (max maxConcurrency 1) s) ∧
    (∀ left w last after,
      Flow.result (turns g context (TaskGraph.compile g) (max maxConcurrency 1) left
        (.start (TaskGraph.compile g))) w = (.ok last, after) →
      last.completed = left ∧ Attained g context (max maxConcurrency 1)
        (tracing.turns g context (TaskGraph.compile g) (max maxConcurrency 1) left
          (.start (TaskGraph.compile g)) w) last) ∧
    ∀ w, match (Flow.result (run maxConcurrency g context) w).1 with
      | .ok report => ∃ last,
        Attained g context (max maxConcurrency 1) (trace maxConcurrency g context w) last ∧
          last.completed = g.nodes.length ∧ report = g.report name last.produced
      | .error halt => halt ≠ .error stuck := by
  have hg := Graph.valid_of_build hb hbuild
  have hworkers : 1 ≤ max maxConcurrency 1 := Nat.le_max_right ..
  have hturns : ∀ left w last after,
      Flow.result (turns g context (TaskGraph.compile g) (max maxConcurrency 1) left
        (.start (TaskGraph.compile g))) w = (.ok last, after) →
      last.completed = left ∧ Attained g context (max maxConcurrency 1)
        (tracing.turns g context (TaskGraph.compile g) (max maxConcurrency 1) left
          (.start (TaskGraph.compile g)) w) last := by
    intro left w last after hresult
    obtain ⟨hcompleted, hlast⟩ := Attained.turns .start hg hresult
    exact ⟨hcompleted.trans (Nat.zero_add left), hlast⟩
  refine ⟨fun events s h ↦ ?_, hturns, fun w ↦ ?_⟩
  · obtain ⟨done, hrecorded⟩ := h.exists_recorded hg
    exact ⟨hrecorded.orderly, h.live hg hworkers⟩
  · have hall : 0 + (TaskGraph.compile g).length ≤ g.nodes.length := by
      rw [Nat.zero_add, TaskGraph.length_compile]
    have hnever :=
      (Attained.start : Attained g context (max maxConcurrency 1) [] _).turns_ne_stuck hg hworkers
        hall (announced maxConcurrency g w)
    have hlast := hturns (TaskGraph.compile g).length (announced maxConcurrency g w)
    rw [result_run]
    rcases hresult : Flow.result (turns g context (TaskGraph.compile g) (max maxConcurrency 1)
      (TaskGraph.compile g).length (.start (TaskGraph.compile g)))
      (announced maxConcurrency g w) with ⟨halt | last, after⟩
    · rw [hresult] at hnever
      exact fun hstuck ↦ hnever (congrArg Except.error hstuck)
    · obtain ⟨hcompleted, hattained⟩ := hlast last after hresult
      exact ⟨last, hattained, hcompleted.trans (TaskGraph.length_compile g), rfl⟩

end Distributed

/-! ### A graph with several edges between two nodes -/

/-- A source that gives two columns. -/
def doubling : Spec Unit Unit :=
  { name := "doubling", behavior := .pure fun _ ↦ .ok (.tuple [.column [], .column []])
    arity := ⟨0, 2⟩ }

/-- A sink that takes two columns. -/
def pairing : Spec Unit Unit :=
  { name := "pairing", behavior := .pure fun inputs ↦ .ok (.tuple inputs), arity := ⟨2, 1⟩ }

/-- A builder in which the sink takes both outputs of the source, and waits for it besides. -/
def braid : Builder Unit Unit :=
  { mode := .apply
    context := ⟨0, .apply⟩
    nodes := [⟨0, .source, doubling, none, ⟨0, 2⟩⟩, ⟨1, .sink, pairing, none, ⟨2, 1⟩⟩]
    edges := [.data ⟨0, 0⟩ 1 0, .data ⟨0, 1⟩ 1 1, .state 0 1] }

theorem assembled_braid : braid.Assembled := by
  have hnodes : ({ braid with edges := [] } : Builder Unit Unit).Assembled :=
    ((Builder.Assembled.new .apply).addNode .source doubling none ⟨0, 2⟩).addNode .sink pairing none
      ⟨2, 1⟩
  have hfirst : ({ braid with edges := [.data ⟨0, 0⟩ 1 0] } : Builder Unit Unit).Assembled :=
    hnodes.connect (rfl : Builder.connect _ ⟨0, 0⟩ 1 0 = _)
  have hsecond : ({ braid with edges := [.data ⟨0, 0⟩ 1 0, .data ⟨0, 1⟩ 1 1] } :
      Builder Unit Unit).Assembled :=
    hfirst.connect (rfl : Builder.connect _ ⟨0, 1⟩ 1 1 = _)
  exact hsecond.addStateEdge (rfl : Builder.addStateEdge _ 0 1 = _)

/-- The graph that it is frozen into. -/
def braided : Graph Unit Unit :=
  { mode := .apply, nodes := braid.nodes, edges := braid.edges, groups := [], order := [0, 1]
    source := 0, sink := 1 }

theorem build_braid : braid.build = .ok braided := rfl

/-- The run on two instances that is not cancelled. -/
def braiding : RunContext Unit :=
  { binding := [0, 1], cancelled := fun _ ↦ false }

namespace Distributed

/-- Where a run stands when the source has ended: the sink is ready, though three edges lead to
it. -/
def between : Progress Unit Unit :=
  { pending := [0, 0]
    ready := [(1, 1)]
    running := []
    produced := Produced.nothing.record 0 [.column [], .column []]
    completed := 1 }

theorem attained_between :
    Attained braided braiding 1 [.started 0, .ended 0 (.ok [.column [], .column []])] between := by
  have hstarted : Attained braided braiding 1 [.started 0]
      { Progress.start (TaskGraph.compile braided) with
        ready := [], running := [⟨⟨0, .source, doubling, none, ⟨0, 2⟩⟩, 0, []⟩] } :=
    Attained.start.starts Nat.zero_lt_one rfl rfl
  exact hstarted.ends (.inl rfl) (rfl : _[0]? = _) [.column [], .column []]

theorem exactly_once_between :
    (Orderly braided 1 [.started 0, .ended 0 (.ok [.column [], .column []])] between ∧
      Live braided braiding 1 between) ∧
    between.Stands 1 .ready ∧
    ∀ w, (Flow.result (run 0 braided braiding) w).1 ≠ .error (.error stuck) := by
  obtain ⟨hattained, -, hrun⟩ := exactly_once assembled_braid build_braid braiding 0
  refine ⟨hattained _ _ attained_between, by decide, fun w hstuck ↦ ?_⟩
  have hended := hrun w
  rw [hstuck] at hended
  exact hended rfl

end Distributed

end Dataflow
