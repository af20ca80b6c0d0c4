import Dataflow.Proofs.ConcurrentTraces
import Dataflow.Proofs.Histories
import Dataflow.Proofs.Lockstep

/-!
# One worker

A runner calls the actors bound to the nodes of a graph. `Sequential.calls` and `Distributed.calls`
say which calls a run makes: of which actor, with which inputs, and what came of it.

With one worker the distributed runner starts a task only when nothing is in flight, so it never
has a choice of what ends next, and what starts next is the head of the queue. The queue is ordered
by rank, and of the nodes that wait for nothing else the next one in the order of the graph has the
lowest (`Distributed.Abreast.exists_ready_eq`). So a turn does what the sequential runner does with
that node (`Distributed.Abreast.step`), whatever actors share, because the two worlds differ in
their journals only. By induction on what is left of the order the runs make the same calls and end
alike (`Distributed.single_worker`).
-/

set_option autoImplicit false
set_option relaxedAutoImplicit false

namespace Dataflow

variable {ε σ : Type}

/-! ### Calls -/

/-- A call of the actor bound to a node: what it was given, what came of it, and how it left the
environment. -/
structure Call (ε : Type) where
  node : NodeId
  actor : InstanceId
  inputs : List Payload
  outcome : Except (Halt FlowError) (List Payload)
  environment : Environment ε

/-- The call by which an instance does the work of a node. -/
def Call.made (node : Node ε σ) (actor : InstanceId) (inputs : List Payload) (w : World ε σ) :
    Call ε :=
  let result := Action.result (execute node actor inputs) w
  ⟨node.id, actor, inputs, result.1, result.2.environment⟩

/-- Lists the calls. -/
def calling : Observer ε σ (Call ε) where
  start _ := []
  work _ node actor inputs w := [.made node actor inputs w]

@[simp]
theorem calling_start (id : NodeId) : (calling : Observer ε σ (Call ε)).start id = [] :=
  rfl

@[simp]
theorem calling_work (id : NodeId) (node : Node ε σ) (actor : InstanceId) (inputs : List Payload)
    (w : World ε σ) : calling.work id node actor inputs w = [.made node actor inputs w] :=
  rfl

/-- The calls of a sequential run. -/
def Sequential.calls (g : Graph ε σ) (context : RunContext ε) (w : World ε σ) : List (Call ε) :=
  calling.sequential g context w

/-- The calls of a distributed run. -/
def Distributed.calls (workers : Nat) (g : Graph ε σ) (context : RunContext ε) (w : World ε σ) :
    List (Call ε) :=
  calling.distributed workers g context w

/-- Nodes are called one after another until one cannot be called or its call fails, and this is the
error of the first that does. -/
inductive Serial : List NodeId → List (Call ε) → Option FlowError → Prop
  | nil : Serial [] [] none
  | succeeded {id : NodeId} {rest : List NodeId} {call : Call ε} {more : List (Call ε)}
      {failure : Option FlowError} {outputs : List Payload} (hnode : call.node = id)
      (houtcome : call.outcome = .ok outputs) (hrest : Serial rest more failure) :
      Serial (id :: rest) (call :: more) failure
  | failed {id : NodeId} {call : Call ε} {e : FlowError} (hnode : call.node = id)
      (houtcome : call.outcome = .error (.error e)) (rest : List NodeId) :
      Serial (id :: rest) [call] (some e)
  | unstartable {e : FlowError} (he : e.Unstartable) (id : NodeId) (rest : List NodeId) :
      Serial (id :: rest) [] (some e)

/-! ### Worlds that differ in their journals -/

theorem worksAlike_quiet (node : Node ε σ) (actor : InstanceId) :
    WorksAlike (World.Quiet (ε := ε) (σ := σ)) node actor actor := by
  refine worksAlike_of_calls (fun inputs w v h ↦ ?_) (fun inputs label w v h ↦ ?_) node
  · cases hactor : w.instances[actor]? with
    | none =>
      rw [Action.result_apply_of_none hactor,
        Action.result_apply_of_none (h.instances.symm ▸ hactor)]
      exact ⟨rfl, h⟩
    | some bound =>
      rw [Action.result_apply_of_some hactor,
        Action.result_apply_of_some (h.instances.symm ▸ hactor), h.environment]
      exact ⟨rfl, h.instances, rfl⟩
  · cases hactor : w.instances[actor]? with
    | none =>
      rw [Action.result_train_of_none hactor,
        Action.result_train_of_none (h.instances.symm ▸ hactor)]
      exact ⟨rfl, h⟩
    | some bound =>
      rw [Action.result_train_of_some hactor,
        Action.result_train_of_some (h.instances.symm ▸ hactor), h.environment]
      refine ⟨rfl, ?_, rfl⟩
      unfold World.setFit
      rw [h.instances]

/-! ### The queue -/

theorem TaskGraph.rank_eq {g : Graph ε σ} {task : Task} (h : task ∈ TaskGraph.compile g) :
    task.rank = g.order.idxOf task.node := by
  unfold compile at h
  obtain ⟨entry, -, rfl⟩ := List.mem_map.mp h
  rfl

/-- Entries carry the positions of their nodes in an order, and do not decrease. -/
structure ReadyQueue.Ranked (order : List NodeId) (queue : ReadyQueue) : Prop where
  rank : ∀ entry ∈ queue, entry.1 = order.idxOf entry.2
  sorted : queue.Pairwise fun first second ↦ first.1 ≤ second.1

namespace ReadyQueue

variable {order : List NodeId} {queue : ReadyQueue} {task : Task}

theorem mem_push {entry : Nat × NodeId} :
    entry ∈ queue.push task ↔ entry = (task.rank, task.node) ∨ entry ∈ queue := by
  induction queue with
  | nil => simp [push]
  | cons first rest ih =>
    obtain ⟨rank, node⟩ := first
    rw [push]
    split_ifs
    · exact List.mem_cons
    · rw [List.mem_cons, ih, List.mem_cons]
      exact or_left_comm

theorem ranked_nil (order : List NodeId) : Ranked order [] where
  rank _ hentry := nomatch hentry
  sorted := .nil

theorem Ranked.tail {entry : Nat × NodeId} (h : Ranked order (entry :: queue)) :
    Ranked order queue where
  rank other hother := h.rank other (List.mem_cons_of_mem _ hother)
  sorted := (List.pairwise_cons.mp h.sorted).2

theorem Ranked.push (h : queue.Ranked order) (hrank : task.rank = order.idxOf task.node) :
    (queue.push task).Ranked order := by
  refine ⟨fun entry hentry ↦ ?_, ?_⟩
  · rcases mem_push.mp hentry with rfl | hentry
    · exact hrank
    · exact h.rank entry hentry
  · have hsorted := h.sorted
    clear h
    induction queue with
    | nil => exact List.pairwise_singleton _ _
    | cons first rest ih =>
      obtain ⟨rank, node⟩ := first
      obtain ⟨hfirst, hrest⟩ := List.pairwise_cons.mp hsorted
      rw [ReadyQueue.push]
      split_ifs with hbefore
      · refine List.pairwise_cons.mpr ⟨fun entry hentry ↦ ?_, hsorted⟩
        rcases List.mem_cons.mp hentry with rfl | hentry
        · dsimp only
          omega
        · have hle := hfirst entry hentry
          dsimp only at hle ⊢
          omega
      · refine List.pairwise_cons.mpr ⟨fun entry hentry ↦ ?_, ih hrest⟩
        rcases mem_push.mp hentry with rfl | hentry
        · dsimp only
          omega
        · exact hfirst entry hentry

theorem Ranked.foldl_push (h : queue.Ranked order) (tasks : List Task)
    (hranks : ∀ task ∈ tasks, task.rank = order.idxOf task.node) :
    (tasks.foldl (fun queue task ↦ queue.push task) queue).Ranked order := by
  induction tasks generalizing queue with
  | nil => exact h
  | cons task rest ih =>
    exact ih (h.push (hranks task List.mem_cons_self))
      fun other hother ↦ hranks other (List.mem_cons_of_mem _ hother)

end ReadyQueue

namespace Distributed

section Queue

variable {g : Graph ε σ} {s : Progress ε σ}

theorem ranked_start (g : Graph ε σ) :
    (Progress.start (TaskGraph.compile g) : Progress ε σ).ready.Ranked g.order :=
  (ReadyQueue.ranked_nil g.order).foldl_push _ fun _ htask ↦
    TaskGraph.rank_eq (List.mem_filter.mp htask).1

theorem ranked_release (h : s.ready.Ranked g.order) (id : NodeId) :
    (release (TaskGraph.compile g) s id).ready.Ranked g.order := by
  unfold release
  dsimp only
  split
  · rename_i htask
    exact h.push (TaskGraph.rank_eq (List.mem_of_getElem? htask))
  · exact h

theorem ranked_complete (h : s.ready.Ranked g.order) (id : NodeId) (outputs : List Payload) :
    (complete (TaskGraph.compile g) s id outputs).ready.Ranked g.order := by
  have hfoldl : ∀ (ids : List NodeId) (t : Progress ε σ), t.ready.Ranked g.order →
      (ids.foldl (release (TaskGraph.compile g)) t).ready.Ranked g.order := by
    intro ids
    induction ids with
    | nil => exact fun _ ht ↦ ht
    | cons first rest ih => exact fun t ht ↦ ih _ (ranked_release ht first)
  exact hfoldl _ _ h

end Queue

/-! ### Side by side -/

/-- A distributed run stands, with nothing in flight, where the sequential run has these nodes
behind it. -/
structure Abreast (g : Graph ε σ) (s : Progress ε σ) (done : List NodeId) (p : Produced) :
    Prop where
  tallied : Tallied g s done
  ranked : s.ready.Ranked g.order
  idle : s.running = []
  produced : s.produced = p

variable {g : Graph ε σ} {context : RunContext ε} {s : Progress ε σ} {done rest : List NodeId}
  {p : Produced} {id : NodeId} {w v : World ε σ}

theorem abreast_start (hg : g.Valid) :
    Abreast g (.start (TaskGraph.compile g) : Progress ε σ) [] .nothing :=
  ⟨tallied_start hg, ranked_start g, rfl, rfl⟩

/-- The next node in the order waits for nothing else, because the order respects dependencies. -/
theorem ready_of_order (hg : g.Valid) (horder : g.order = done ++ id :: rest) :
    g.Ready done id := by
  obtain ⟨hlt, hfresh, hready⟩ := hg.front_of_order horder
  exact ⟨hlt, hfresh, hready⟩

/-- The head of the queue is the next node in the order: of the nodes that wait for nothing else it
has the lowest rank. -/
theorem Abreast.exists_ready_eq (h : Abreast g s done p) (hg : g.Valid)
    (horder : g.order = done ++ id :: rest) : ∃ rank more, s.ready = (rank, id) :: more := by
  have hmem : ∀ other, other ∈ s.ready.map Prod.snd ↔ g.Ready done other := by
    intro other
    rw [← h.tallied.mem_available, Progress.available, h.idle, List.map_nil, List.append_nil]
  have hready := ready_of_order hg horder
  have hbehind : ∀ other, other ∉ done →
      g.order.idxOf other = done.length + (id :: rest).idxOf other := fun other hother ↦ by
    rw [horder, List.idxOf_append_of_notMem hother]
  obtain ⟨entry, hentry, rfl⟩ := List.mem_map.mp ((hmem id).mpr hready)
  have hrank := (h.ranked.rank entry hentry).trans (hbehind _ hready.fresh)
  rw [List.idxOf_cons_self, Nat.add_zero] at hrank
  cases hqueue : s.ready with
  | nil => exact absurd (hqueue ▸ hentry) List.not_mem_nil
  | cons first more =>
    have hfirst : first ∈ s.ready := hqueue ▸ List.mem_cons_self
    have hhead := (hmem first.2).mp (List.mem_map_of_mem hfirst)
    have hle : first.1 ≤ entry.1 := by
      have hsorted := h.ranked.sorted
      rw [hqueue] at hsorted hentry
      rcases List.mem_cons.mp hentry with rfl | hlater
      · exact Nat.le_refl _
      · exact (List.pairwise_cons.mp hsorted).1 entry hlater
    rw [h.ranked.rank first hfirst, hbehind _ hhead.fresh, hrank] at hle
    have hsame : first.2 = entry.2 := by
      by_contra hother
      rw [List.idxOf_cons_ne _ (Ne.symm hother)] at hle
      omega
    exact ⟨first.1, more, by rw [← hsame]⟩

/-- When the head of the queue has been started and has ended, nothing is in flight again. -/
theorem Abreast.completed (h : Abreast g s done p) (hg : g.Valid) {rank : Nat} {more : ReadyQueue}
    (hqueue : s.ready = (rank, id) :: more) (started : Job ε σ) (hstarted : started.node.id = id)
    (outputs : List Payload) :
    Abreast g (complete (TaskGraph.compile g) { s with ready := more, running := [] }
      started.node.id outputs) (done ++ [id]) (p.record id outputs) := by
  have hfilled := h.tallied.starts hqueue started hstarted
  rw [h.idle, List.nil_append] at hfilled
  have hended : [started][0]? = some started := rfl
  have hreleased := hfilled.released hg hended outputs
  obtain rfl := hstarted
  refine ⟨hfilled.complete hg hended outputs, ranked_complete ?_ _ _, hreleased.running, ?_⟩
  · have hranked := h.ranked
    rw [hqueue] at hranked
    exact hranked.tail
  · exact hreleased.produced.trans (by rw [← h.produced])

/-- With one worker and nothing in flight, the head of the queue is started and nothing else. -/
theorem fill_of_idle (g : Graph ε σ) (context : RunContext ε) (hidle : s.running = []) {rank : Nat}
    {more : ReadyQueue} (hqueue : s.ready = (rank, id) :: more) :
    fill g context 1 s.ready.length s =
      match job g context s.produced id with
      | .ok started => ({ s with ready := more, running := [started] }, none)
      | .error e => ({ s with ready := more }, some e) := by
  have hlt : s.running.length < 1 := by
    rw [hidle]
    exact Nat.zero_lt_one
  rw [hqueue, List.length_cons, fill, if_pos hlt, hqueue, hidle]
  dsimp only
  cases job g context s.produced id with
  | error e => rfl
  | ok started => cases hfuel : more.length <;> rfl

theorem job_eq {node : Node ε σ} (hnode : g.nodes[id]? = some node) :
    job g context p id =
      (prepare g context p node).map fun ready ↦ ⟨node, ready.1, ready.2⟩ := by
  unfold job
  rw [hnode]
  dsimp only
  cases prepare g context p node with
  | error e => rfl
  | ok ready => rfl

/-- What both runners come to with the next node in the order. It cannot be called, its call fails,
or the run goes on with its outputs. -/
inductive Stepped (g : Graph ε σ) (context : RunContext ε) (s : Progress ε σ) (done : List NodeId)
    (p : Produced) (id : NodeId) (w v : World ε σ) : Prop
  | unstartable {e : FlowError} (he : e.Unstartable)
      (hcalled : calling.visit g context p id w = [])
      (hcalled' : calling.turn g context 1 s v = [])
      (hvisit : Flow.result (Sequential.visit g context p id) w = (.error (.error e), w))
      (hturn : Flow.result (turn g context (TaskGraph.compile g) 1 s) v = (.error (.error e), v))
  | failed {call : Call ε} {e : FlowError} {after after' : World ε σ} (hnode : call.node = id)
      (houtcome : call.outcome = .error (.error e))
      (hcalled : calling.visit g context p id w = [call])
      (hcalled' : calling.turn g context 1 s v = [call])
      (hvisit : Flow.result (Sequential.visit g context p id) w = (.error (.error e), after))
      (hturn : Flow.result (turn g context (TaskGraph.compile g) 1 s) v =
        (.error (.error e), after'))
      (hquiet : after.Quiet after')
  | succeeded {call : Call ε} {outputs : List Payload} {after after' : World ε σ}
      {next : Progress ε σ} (hnode : call.node = id) (houtcome : call.outcome = .ok outputs)
      (hcalled : calling.visit g context p id w = [call])
      (hcalled' : calling.turn g context 1 s v = [call])
      (hvisit : Flow.result (Sequential.visit g context p id) w =
        (.ok (p.record id outputs), after))
      (hturn : Flow.result (turn g context (TaskGraph.compile g) 1 s) v = (.ok next, after'))
      (hquiet : after.Quiet after') (hlive : context.cancelled after.environment = false)
      (hnext : Abreast g next (done ++ [id]) (p.record id outputs))

theorem Abreast.step (h : Abreast g s done p) (hg : g.Valid)
    (horder : g.order = done ++ id :: rest) (hquiet : w.Quiet v)
    (hlive : context.cancelled w.environment = false)
    (hcalls : ∀ call ∈ calling.visit g context p id w,
      context.cancelled call.environment = false ∧ call.outcome ≠ .error .crash) :
    Stepped g context s done p id w v := by
  obtain ⟨rank, more, hqueue⟩ := h.exists_ready_eq hg horder
  obtain rfl := h.produced
  obtain ⟨node, hnode⟩ : ∃ node, g.nodes[id]? = some node :=
    ⟨_, List.getElem?_eq_getElem (ready_of_order hg horder).lt⟩
  have hfill := fill_of_idle g context h.idle hqueue
  rw [job_eq hnode] at hfill
  have hlive' : context.cancelled v.environment = false := hquiet.environment ▸ hlive
  cases hready : prepare g context s.produced node with
  | error e =>
    rw [hready] at hfill
    refine .unstartable (unstartable_of_prepare_eq_error hready) ?_ ?_ ?_ ?_
    · exact calling.visit_of_unready hlive hnode hready
    · rw [calling.turn_of_fault hfill (List.append_nil _).symm, h.idle]
      rfl
    · exact Sequential.result_visit_of_unready hlive hnode hready
    · have hturn := result_turn_of_fault (TaskGraph.compile g) hfill v
      simpa only [h.idle, drain, Action.result_pure] using hturn
  | ok ready =>
    obtain ⟨actor, inputs⟩ := ready
    rw [hready] at hfill
    change _ = ({ s with ready := more, running := [⟨node, actor, inputs⟩] }, none) at hfill
    rcases hexecute : Action.result (execute node actor inputs) w with ⟨outcome, after⟩
    rcases hexecute' : Action.result (execute node actor inputs) v with ⟨outcome', after'⟩
    obtain ⟨rfl, hafter⟩ : outcome = outcome' ∧ after.Quiet after' := by
      have halike := worksAlike_quiet node actor inputs w v hquiet
      rwa [hexecute, hexecute'] at halike
    have hself : node.id = id := hg.linked.id_eq id node hnode
    have hcalled : calling.visit g context s.produced id w =
        [⟨node.id, actor, inputs, outcome, after.environment⟩] := by
      rw [calling.visit_of_ready hlive hnode hready, calling_start, calling_work, Call.made, hexecute]
      rfl
    obtain ⟨hlater, hsound⟩ := hcalls _ (hcalled ▸ List.mem_cons_self)
    dsimp only at hlater hsound
    have hlater' : context.cancelled after'.environment = false := hafter.environment ▸ hlater
    have hvisit := Sequential.result_visit_of_ready hlive hnode hready
    rw [hexecute] at hvisit
    have hrunning : [(⟨node, actor, inputs⟩ : Job ε σ)] = s.running ++ [⟨node, actor, inputs⟩] := by
      rw [h.idle]
      rfl
    obtain ⟨more', hcalled', hclosed⟩ := calling.closed_turn (TaskGraph.compile g) hfill hrunning
      hlive' (Nat.mod_one _) rfl hexecute'
    rw [Observer.starts_eq_nil calling_start, calling_work, Call.made, hexecute'] at hcalled'
    dsimp only at hcalled'
    rw [hafter.environment] at hcalled'
    generalize hturn : Flow.result (turn g context (TaskGraph.compile g) 1 s) v = result at hclosed
    cases hclosed with
    | noticed hnoticed => cases (not_notices_of_live hlater' s.completed).symm.trans hnoticed
    | failed hunnoticed =>
      exact .failed hself rfl hcalled hcalled' hvisit hturn ⟨hafter.instances, hafter.environment⟩
    | crashed hunnoticed => exact absurd rfl hsound
    | @completed outputs hunnoticed =>
      exact .succeeded hself rfl hcalled hcalled' hvisit hturn hafter hlater
        (h.completed hg hqueue ⟨node, actor, inputs⟩ hself outputs)

/-- How both runs end when the first node that fails does so with this error, or none does. -/
inductive EndAlike : Option FlowError → Except (Halt FlowError) Produced × World ε σ →
    Except (Halt FlowError) (Progress ε σ) × World ε σ → Prop
  | succeeded {last : Progress ε σ} {after after' : World ε σ} (hquiet : after.Quiet after') :
      EndAlike none (.ok last.produced, after) (.ok last, after')
  | failed {e : FlowError} {after after' : World ε σ} (hquiet : after.Quiet after') :
      EndAlike (some e) (.error (.error e), after) (.error (.error e), after')

/-- Both runs do the same with what is left of the order. -/
theorem Abreast.run (h : Abreast g s done p) (hg : g.Valid) {left : List NodeId}
    (horder : g.order = done ++ left) (hquiet : w.Quiet v)
    (hlive : context.cancelled w.environment = false)
    (hcalls : ∀ call ∈ calling.visitAll g context left p w,
      context.cancelled call.environment = false ∧ call.outcome ≠ .error .crash) :
    calling.turns g context (TaskGraph.compile g) 1 left.length s v =
        calling.visitAll g context left p w ∧
      ∃ failure, Serial left (calling.visitAll g context left p w) failure ∧
        EndAlike failure (Flow.result (Sequential.visitAll g context left p) w)
          (Flow.result (turns g context (TaskGraph.compile g) 1 left.length s) v) := by
  induction left generalizing s done p w v with
  | nil =>
    obtain rfl := h.produced
    exact ⟨rfl, none, .nil, .succeeded hquiet⟩
  | cons id rest ih =>
    rw [Observer.visitAll] at hcalls ⊢
    rw [List.length_cons, Observer.turns, turns, Sequential.visitAll, Flow.result_bind, Flow.result_bind]
    cases h.step hg horder hquiet hlive fun call hcall ↦
        hcalls call (List.mem_append_left _ hcall) with
    | unstartable he hcalled hcalled' hvisit hturn =>
      rw [hcalled, hcalled', hvisit, hturn]
      exact ⟨rfl, some _, .unstartable he id rest, .failed hquiet⟩
    | failed hnode houtcome hcalled hcalled' hvisit hturn hafter =>
      rw [hcalled, hcalled', hvisit, hturn]
      exact ⟨rfl, some _, .failed hnode houtcome rest, .failed hafter⟩
    | succeeded hnode houtcome hcalled hcalled' hvisit hturn hafter hlater hnext =>
      rw [hvisit] at hcalls
      have horder' := horder.trans (List.append_cons done id rest)
      obtain ⟨hsame, failure, hserial, hend⟩ := ih hnext horder' hafter hlater fun call hcall ↦
        hcalls call (List.mem_append_right _ hcall)
      rw [hcalled, hcalled', hvisit, hturn]
      exact ⟨congrArg _ hsame, failure, .succeeded hnode houtcome hserial, hend⟩

/-- With one worker, or none asked for, the distributed runner is the sequential runner, whatever
the graph, the binding and the actors: unless the run is cancelled or a call crashes, both make the
same calls, in the order of the graph up to the first node that fails, and both end with the error
of that node, or report the same output; and they leave the same instances and environment. -/
theorem single_worker {b : Builder ε σ} {g : Graph ε σ} (hb : b.Assembled)
    (hbuild : b.build = .ok g) (context : RunContext ε) (w : World ε σ) {workers : Nat}
    (hworkers : workers ≤ 1) (hlive : context.cancelled w.environment = false)
    (hcalls : ∀ call ∈ Sequential.calls g context w,
      context.cancelled call.environment = false ∧ call.outcome ≠ .error .crash) :
    calls workers g context w = Sequential.calls g context w ∧
      (∃ failure, Serial g.order (Sequential.calls g context w) failure ∧
        match failure with
        | some e =>
          (Flow.result (Sequential.run g context) w).1 = .error (.error e) ∧
            (Flow.result (run workers g context) w).1 = .error (.error e)
        | none => ∃ output,
          (Flow.result (Sequential.run g context) w).1 =
              .ok ⟨g.mode, Sequential.name, output, none⟩ ∧
            (Flow.result (run workers g context) w).1 = .ok ⟨g.mode, name, output, none⟩) ∧
      (Flow.result (Sequential.run g context) w).2.Quiet
        (Flow.result (run workers g context) w).2 := by
  have hg := Graph.valid_of_build hb hbuild
  have hone : max workers 1 = 1 := Nat.max_eq_right hworkers
  have hlength : (TaskGraph.compile g).length = g.order.length := by
    rw [TaskGraph.length_compile, hg.orders.perm.length_eq, List.length_range]
  have hquiet : (w.told (.runStarted Sequential.name g.mode g.nodes.length)).Quiet
      (announced workers g w) := ⟨rfl, rfl⟩
  obtain ⟨hsame, failure, hserial, hend⟩ :=
    (abreast_start hg).run hg (List.nil_append g.order).symm hquiet hlive hcalls
  unfold calls Sequential.calls Observer.distributed Observer.sequential
  dsimp only
  rw [result_run, Sequential.result_run, hone, hlength]
  refine ⟨hsame, ?_⟩
  generalize Flow.result (Sequential.visitAll g context g.order .nothing) _ = ended at hend ⊢
  generalize Flow.result (turns g context (TaskGraph.compile g) 1 g.order.length _) _ = ended'
    at hend ⊢
  cases hend with
  | succeeded hafter => exact ⟨⟨none, hserial, _, rfl, rfl⟩, hafter.instances, hafter.environment⟩
  | failed hafter => exact ⟨⟨some _, hserial, rfl, rfl⟩, hafter⟩

end Distributed

/-! ### Actors that share a counter -/

/-- An actor that gives as many parts as calls have been made before, whoever made them. -/
def tallying : Spec Nat Unit :=
  { name := "tallying"
    behavior := .stateless fun _ env ↦
      (.ok (.tuple (List.replicate env.shared .unit)), { env with shared := env.shared + 1 }) }

/-- A builder in which two nodes stand between the source and a sink that takes both their
outputs. -/
def diamond : Builder Nat Unit :=
  { mode := .apply
    context := ⟨0, .apply⟩
    nodes := [⟨0, .source, tallying, none, ⟨0, 1⟩⟩, ⟨1, .applier, tallying, none, ⟨1, 1⟩⟩,
      ⟨2, .applier, tallying, none, ⟨1, 1⟩⟩, ⟨3, .sink, tallying, none, ⟨2, 1⟩⟩]
    edges := [.data ⟨0, 0⟩ 2 0, .data ⟨0, 0⟩ 1 0, .data ⟨1, 0⟩ 3 0, .data ⟨2, 0⟩ 3 1] }

theorem assembled_diamond : diamond.Assembled := by
  have hnodes : ({ diamond with edges := [] } : Builder Nat Unit).Assembled :=
    ((((Builder.Assembled.new .apply).addNode .source tallying none ⟨0, 1⟩).addNode
      .applier tallying none ⟨1, 1⟩).addNode .applier tallying none ⟨1, 1⟩).addNode
      .sink tallying none ⟨2, 1⟩
  have hlower : ({ diamond with edges := [.data ⟨0, 0⟩ 2 0] } : Builder Nat Unit).Assembled :=
    hnodes.connect (rfl : Builder.connect _ ⟨0, 0⟩ 2 0 = _)
  have hupper : ({ diamond with edges := [.data ⟨0, 0⟩ 2 0, .data ⟨0, 0⟩ 1 0] } :
      Builder Nat Unit).Assembled :=
    hlower.connect (rfl : Builder.connect _ ⟨0, 0⟩ 1 0 = _)
  have hfirst : ({ diamond with
      edges := [.data ⟨0, 0⟩ 2 0, .data ⟨0, 0⟩ 1 0, .data ⟨1, 0⟩ 3 0] } :
      Builder Nat Unit).Assembled :=
    hupper.connect (rfl : Builder.connect _ ⟨1, 0⟩ 3 0 = _)
  exact hfirst.connect (rfl : Builder.connect _ ⟨2, 0⟩ 3 1 = _)

/-- The graph that it is frozen into. -/
def tallied : Graph Nat Unit :=
  { mode := .apply, nodes := diamond.nodes, edges := diamond.edges, groups := []
    order := [0, 1, 2, 3], source := 0, sink := 3 }

theorem build_diamond : diamond.build = .ok tallied := rfl

/-- All nodes are bound to one instance. -/
def sharing : RunContext Nat :=
  { binding := [0, 0, 0, 0], cancelled := fun _ ↦ false }

/-- The world of that instance. -/
def shared : World Nat Unit :=
  ⟨#[tallying.instantiate], ⟨[], 0⟩, #[]⟩

theorem single_worker_tallied :
    (Distributed.calls 0 tallied sharing shared).map Call.node = [0, 1, 2, 3] ∧
      (Flow.result (Distributed.run 0 tallied sharing) shared).2.environment.shared = 4 := by
  have hsound : (Sequential.calls tallied sharing shared).all (·.outcome.isOk) = true := by
    decide +kernel
  obtain ⟨hsame, -, hquiet⟩ := Distributed.single_worker assembled_diamond build_diamond sharing
    shared (Nat.zero_le 1) rfl fun call hcall ↦ ⟨rfl, fun hcrash ↦ by
      have hall := List.all_eq_true.mp hsound call hcall
      rw [hcrash] at hall
      cases hall⟩
  rw [hsame, hquiet.environment]
  exact ⟨by decide +kernel, by decide +kernel⟩

end Dataflow
