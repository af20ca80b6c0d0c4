import Dataflow.Proofs.Traces

/-!
# What is seen of a concurrent run

In a turn of the distributed runner tasks start, and the one that the schedule names ends. What a
turn comes to is said once (`Distributed.turned`): it ends the run, or one more node has ended with
outputs and the counters are right again. What is seen of whole runs follows from it by induction on
the turns.

Together with the sequential runner this gives what is seen of a run on any runner: the world
changes by it only (`Runner.evolves_run`), it explains the error (`Runner.explained`), nodes start
behind their dependencies (`Runner.heeds_trace`), and if the run succeeds it accounts for the outputs
(`Runner.exists_accounts`).
-/

set_option autoImplicit false
set_option relaxedAutoImplicit false

namespace Dataflow

variable {ε σ : Type}

/-- What is seen when tasks start. -/
theorem starts_tracing (jobs : List (Distributed.Job ε σ)) :
    tracing.starts jobs = (jobs.map fun job ↦ job.node.id).map .started := by
  rw [List.map_map, List.map_eq_flatMap]
  rfl

/-- Tasks may start before what is seen. -/
theorem Evolves.behind {g : Graph ε σ} {binding : Binding} {start w : World ε σ}
    {events : List Event} (h : Evolves g binding start events w)
    (jobs : List (Distributed.Job ε σ)) :
    Evolves g binding start (tracing.starts jobs ++ events) w := by
  have hstarts : Evolves g binding start ([] ++ (jobs.map fun job ↦ job.node.id).map .started)
      start := Evolves.refl.starts _
  rw [List.nil_append, ← starts_tracing] at hstarts
  exact hstarts.trans h

/-! ### Distributed runs -/

namespace Distributed

/-- What is seen of a run. -/
def trace (workers : Nat) (g : Graph ε σ) (context : RunContext ε) (w : World ε σ) : List Event :=
  tracing.distributed workers g context w

variable {g : Graph ε σ} {context : RunContext ε} {workers : Nat} {s : Progress ε σ}
  {done : List NodeId} {w : World ε σ}

/-- Tasks are those of their nodes, on the instances bound to them. -/
def Staffed (g : Graph ε σ) (binding : Binding) (jobs : List (Job ε σ)) : Prop :=
  ∀ job ∈ jobs, g.nodes[job.node.id]? = some job.node ∧ binding[job.node.id]? = some job.actor

theorem Staffed.eraseIdx {binding : Binding} {jobs : List (Job ε σ)} (h : Staffed g binding jobs)
    (position : Nat) : Staffed g binding (jobs.eraseIdx position) :=
  fun job hjob ↦ h job (List.mem_of_mem_eraseIdx hjob)

theorem evolves_drain {binding : Binding} {jobs : List (Job ε σ)} (h : Staffed g binding jobs)
    (schedule : Schedule) (w : World ε σ) :
    Evolves g binding w (tracing.drain schedule jobs w) (Action.result (drain schedule jobs) w).2 := by
  induction jobs generalizing w with
  | nil => exact .refl
  | cons job rest ih =>
    have hrest := ih fun other hother ↦ h other (List.mem_cons_of_mem _ hother)
    rw [drain, Observer.drain]
    split
    · exact hrest w
    · obtain ⟨hnode, hactor⟩ := h job List.mem_cons_self
      exact (Evolves.refl.ended hnode hactor job.inputs).trans (hrest _)

/-- What is asked of a task that is started. -/
theorem job_eq_ok {p : Produced} {id : NodeId} {started : Job ε σ} (hg : g.Valid)
    (h : job g context p id = .ok started) :
    started.node.id = id ∧ Staffed g context.binding [started] := by
  unfold job at h
  cases hnode : g.nodes[id]? with
  | none => simp [hnode, throw, throwThe, MonadExceptOf.throw] at h
  | some node =>
    cases hready : prepare g context p node with
    | error e => simp [hnode, hready, bind, Except.bind] at h
    | ok ready =>
      obtain ⟨actor, inputs⟩ := ready
      simp only [hnode, hready, bind, Except.bind, pure, Except.pure, Except.ok.injEq] at h
      have hself := hg.linked.id_eq id node hnode
      subst h
      refine ⟨hself, fun other hother ↦ ?_⟩
      rw [List.mem_singleton.mp hother]
      dsimp only
      rw [hself, hnode]
      exact ⟨rfl, hself ▸ (prepare_eq_ok.mp hready).2⟩

theorem unstartable_of_job_eq_error {p : Produced} {id : NodeId} {e : FlowError}
    (h : job g context p id = .error e) : e.Unstartable := by
  unfold job at h
  cases hnode : g.nodes[id]? with
  | none =>
    simp only [hnode, throw, throwThe, MonadExceptOf.throw, Except.error.injEq] at h
    exact h ▸ .task _
  | some node =>
    cases hready : prepare g context p node with
    | error other =>
      simp only [hnode, hready, bind, Except.bind, Except.error.injEq] at h
      rw [← h]
      exact unstartable_of_prepare_eq_error hready
    | ok ready => simp [hnode, hready, bind, Except.bind, pure, Except.pure] at h

/-- What starting tasks comes to: those started were ready, and the counters stay right unless one
could not be started. -/
structure Filled (g : Graph ε σ) (binding : Binding) (done : List NodeId) (s : Progress ε σ)
    (started : List (Job ε σ)) (after : Progress ε σ) (fault : Option FlowError) : Prop where
  running : after.running = s.running ++ started
  ready : ∀ job ∈ started, g.Ready done job.node.id
  staffed : Staffed g binding started
  produced : after.produced = s.produced
  tallied : fault = none → Tallied g after done
  unstartable : ∀ e, fault = some e → e.Unstartable

theorem Filling.filled {started : List (Job ε σ)} {after : Progress ε σ} {fault : Option FlowError}
    (hfilling : Filling g context workers s started after fault) (hg : g.Valid)
    (h : Tallied g s done) : Filled g context.binding done s started after fault := by
  induction hfilling with
  | full hfull =>
    exact ⟨(List.append_nil _).symm, by simp, fun _ hjob ↦ (nomatch hjob), rfl, fun _ ↦ h, by simp⟩
  | starts hidle hqueue hjob hrest ih =>
    obtain ⟨hself, hstaffed⟩ := job_eq_ok hg hjob
    have hfilled := ih (h.starts hqueue _ hself)
    refine ⟨?_, fun other hother ↦ ?_, fun other hother ↦ ?_, hfilled.produced, hfilled.tallied,
      hfilled.unstartable⟩
    · exact hfilled.running.trans (List.append_cons _ _ _).symm
    · rcases List.mem_cons.mp hother with rfl | hother
      · rw [hself]
        exact h.ready_head hqueue
      · exact hfilled.ready other hother
    · rcases List.mem_cons.mp hother with rfl | hother
      · exact hstaffed other List.mem_cons_self
      · exact hfilled.staffed other hother
  | refused hqueue hjob =>
    refine ⟨(List.append_nil _).symm, by simp, fun _ hother ↦ (nomatch hother), rfl, by simp,
      fun other he ↦ ?_⟩
    rw [← Option.some.inj he]
    exact unstartable_of_job_eq_error hjob

/-- What a turn comes to. It ends the run, or a node completes. In both cases nodes may have started
before, which were ready. -/
inductive Turned (g : Graph ε σ) (context : RunContext ε) (workers : Nat) (s : Progress ε σ)
    (done : List NodeId) (w : World ε σ) : Prop
  | stopped {halt : Halt FlowError} {after : World ε σ}
      (hresult : Flow.result (turn g context (TaskGraph.compile g) workers s) w =
        (.error halt, after))
      (hevolves : Evolves g context.binding w (tracing.turn g context workers s w) after)
      (hready : ∀ id, .started id ∈ tracing.turn g context workers s w → g.Ready done id)
      (hexplained : ∀ e, halt = .error e → Explained (tracing.turn g context workers s w) e)
  | completed {started : List NodeId} {id : NodeId} {outputs : List Payload}
      {next : Progress ε σ} {after : World ε σ}
      (hresult : Flow.result (turn g context (TaskGraph.compile g) workers s) w = (.ok next, after))
      (hevolves : Evolves g context.binding w (tracing.turn g context workers s w) after)
      (hseen : tracing.turn g context workers s w = started.map .started ++ [.ended id (.ok outputs)])
      (hstarted : ∀ other ∈ started, g.Ready done other) (hready : g.Ready done id)
      (htallied : Tallied g next (done ++ [id])) (hstaffed : Staffed g context.binding next.running)
      (hproduced : next.produced = s.produced.record id outputs)

theorem started_notMem_drain (id : NodeId) (schedule : Schedule) (jobs : List (Job ε σ))
    (w : World ε σ) : .started id ∉ tracing.drain schedule jobs w := by
  induction jobs generalizing w with
  | nil => exact List.not_mem_nil
  | cons job rest ih =>
    rw [Observer.drain]
    split
    · exact ih w
    · simp [ih]

section Filled

variable {started : List (Job ε σ)} {filled : Progress ε σ} {fault : Option FlowError}

/-- A turn that ends the run after tasks have started. -/
theorem Filled.stopped (h : Filled g context.binding done s started filled fault)
    {more : List Event} {halt : Halt FlowError} {after : World ε σ}
    (hseen : tracing.turn g context workers s w = tracing.starts started ++ more)
    (hmore : ∀ id, .started id ∉ more)
    (hresult : Flow.result (turn g context (TaskGraph.compile g) workers s) w =
      (.error halt, after)) (hevolves : Evolves g context.binding w more after)
    (hexplained : ∀ e, halt = .error e → Explained more e) : Turned g context workers s done w := by
  refine .stopped hresult (hseen ▸ hevolves.behind started) (fun id hid ↦ ?_)
    fun e he ↦ hseen ▸ (hexplained e he).append _
  rw [hseen, starts_tracing, List.map_map] at hid
  rcases List.mem_append.mp hid with hid | hid
  · obtain ⟨job, hjob, hsame⟩ := List.mem_map.mp hid
    rw [← Event.started.inj hsame]
    exact h.ready job hjob
  · exact absurd hid (hmore id)

theorem Filled.staffed_running (h : Filled g context.binding done s started filled fault)
    (hstaffed : Staffed g context.binding s.running) :
    Staffed g context.binding filled.running := by
  intro job hjob
  rw [h.running] at hjob
  rcases List.mem_append.mp hjob with hjob | hjob
  · exact hstaffed job hjob
  · exact h.staffed job hjob

/-- The task that the schedule names has finished: the run goes on exactly if the task has given
outputs and the run is not seen to be cancelled. -/
theorem Filled.finished {ended : Job ε σ} (hg : g.Sound)
    (h : Filled g context.binding done s started filled none)
    (hfill : fill g context workers s.ready.length s = (filled, none))
    (hstaffed : Staffed g context.binding filled.running)
    (hlive : context.cancelled w.environment = false) {position : Nat}
    (hposition : context.schedule.next filled.completed % filled.running.length = position)
    (hended : filled.running[position]? = some ended) : Turned g context workers s done w := by
  let others := filled.running.eraseIdx position
  have hothers : Staffed g context.binding others := hstaffed.eraseIdx position
  obtain ⟨hnode, hactor⟩ := hstaffed ended (List.mem_of_getElem? hended)
  rcases hexecute : Action.result (execute ended.node ended.actor ended.inputs) w with
    ⟨outcome, after⟩
  have hexecuted : Evolves g context.binding w [.ended ended.node.id outcome] after := by
    have hstill : Evolves g context.binding w [] w := .refl
    have hran := hstill.ended hnode hactor ended.inputs
    rwa [hexecute] at hran
  have hdrained := hexecuted.trans (evolves_drain hothers context.schedule after)
  have hnone : ∀ id, .started id ∉ [.ended ended.node.id outcome] ++
      tracing.drain context.schedule others after := fun id hid ↦ by
    rcases List.mem_append.mp hid with hid | hid
    · simp at hid
    · exact started_notMem_drain id context.schedule others after hid
  obtain ⟨more, hseen, hclosed⟩ := tracing.closed_turn (TaskGraph.compile g) hfill h.running hlive
    hposition hended hexecute
  rw [tracing_work, hexecute] at hseen
  generalize hresult : Flow.result (turn g context (TaskGraph.compile g) workers s) w = result
    at hclosed
  cases hclosed with
  | noticed hnoticed =>
    exact h.stopped hseen hnone hresult (hdrained.told _) fun e he ↦ .inl (Halt.error.inj he).symm
  | failed hunnoticed =>
    refine h.stopped hseen hnone hresult (hdrained.told _) fun other he ↦ ?_
    rw [← Halt.error.inj he]
    exact .inr (.inr ⟨ended.node.id, List.mem_cons_self⟩)
  | crashed hunnoticed =>
    exact h.stopped hseen hnone hresult hdrained
      fun e he ↦ .inr (.inl ⟨_, (Halt.error.inj he).symm⟩)
  | @completed outputs hunnoticed =>
    rw [List.append_nil] at hseen
    have htallied := h.tallied rfl
    have hmem := List.mem_of_getElem? hended
    have hreleased := htallied.released hg.toValid hended outputs
    refine .completed hresult (hseen ▸ hexecuted.behind started) (starts_tracing started ▸ hseen)
      (fun other hother ↦ ?_) (htallied.ready_running hmem)
      (htallied.complete hg.toValid hended outputs) ?_ ?_
    · obtain ⟨job, hjob, rfl⟩ := List.mem_map.mp hother
      exact h.ready job hjob
    · rw [hreleased.running]
      exact hothers
    · rw [hreleased.produced, h.produced]

end Filled

theorem turned (hg : g.Sound) (context : RunContext ε) (workers : Nat) (h : Tallied g s done)
    (hstaffed : Staffed g context.binding s.running) (w : World ε σ) :
    Turned g context workers s done w := by
  obtain ⟨started, filled, fault, hfill, hfilling⟩ := exists_filling g context workers s
  have hfilled := hfilling.filled hg.toValid h
  have hall := hfilled.staffed_running hstaffed
  have hnone := fun id ↦ started_notMem_drain id context.schedule filled.running w
  have hdrained := evolves_drain hall context.schedule w
  cases fault with
  | some e =>
    refine hfilled.stopped (tracing.turn_of_fault hfill hfilled.running w) hnone
      (result_turn_of_fault _ hfill w) hdrained fun e' he ↦ ?_
    rw [← Halt.error.inj he]
    exact .inr (.inl (hfilled.unstartable e rfl).internal)
  | none =>
    by_cases hcancelled : context.cancelled w.environment = true
    · exact hfilled.stopped (tracing.turn_of_cancelled hfill hfilled.running hcancelled) hnone
        (result_turn_of_cancelled _ hfill hcancelled) (hdrained.told _)
        fun e he ↦ .inl (Halt.error.inj he).symm
    rw [Bool.not_eq_true] at hcancelled
    cases hended : filled.running[
        context.schedule.next filled.completed % filled.running.length]? with
    | none =>
      have hseen := tracing.turn_of_idle hfill hfilled.running hcancelled hended
      exact hfilled.stopped (hseen.trans (List.append_nil _).symm) (fun _ ↦ List.not_mem_nil)
        (result_turn_of_idle _ hfill hcancelled hended) .refl
        fun e he ↦ .inr (.inl ⟨_, (Halt.error.inj he).symm⟩)
    | some ended => exact hfilled.finished hg hfill hall hcancelled rfl hended

theorem evolves_turns (hg : g.Sound) (workers left : Nat) (h : Tallied g s done)
    (hstaffed : Staffed g context.binding s.running) (w : World ε σ) :
    Evolves g context.binding w (tracing.turns g context (TaskGraph.compile g) workers left s w)
      (Flow.result (turns g context (TaskGraph.compile g) workers left s) w).2 := by
  induction left generalizing s done w with
  | zero => exact .refl
  | succ left ih =>
    rw [turns, Flow.result_bind, Observer.turns]
    cases turned hg context workers h hstaffed w with
    | stopped hresult hevolves hready hexplained =>
      rw [hresult, List.append_nil]
      exact hevolves
    | completed hresult hevolves hseen hstarted hready htallied hstaffed hproduced =>
      rw [hresult]
      exact hevolves.trans (ih htallied hstaffed _)

/-- What stops a run of turns was seen, unless the runner gave up. -/
theorem explained_turns (hg : g.Sound) {left : Nat} (h : Tallied g s done)
    (hstaffed : Staffed g context.binding s.running) {e : FlowError} {after : World ε σ}
    (hresult : Flow.result (turns g context (TaskGraph.compile g) workers left s) w =
      (.error (.error e), after)) :
    Explained (tracing.turns g context (TaskGraph.compile g) workers left s w) e := by
  induction left generalizing s done w with
  | zero => cases (Prod.mk.inj hresult).1
  | succ left ih =>
    rw [turns, Flow.result_bind] at hresult
    rw [Observer.turns]
    cases turned hg context workers h hstaffed w with
    | stopped hturn hevolves hready hexplained =>
      rw [hturn] at hresult ⊢
      rw [List.append_nil]
      exact hexplained e (Except.error.inj (Prod.mk.inj hresult).1)
    | completed hturn hevolves hseen hstarted hready htallied hstaffed hproduced =>
      rw [hturn] at hresult ⊢
      exact (ih htallied hstaffed hresult).append _

/-- In every turn nodes start behind their dependencies, and each turn that succeeds has ended one
more node with outputs. -/
theorem accounts_turns (hg : g.Sound) {left : Nat} {events : List Event} (h : Tallied g s done)
    (hstaffed : Staffed g context.binding s.running)
    (haccounts : Accounts g events done s.produced) :
    g.Heeds (events ++ tracing.turns g context (TaskGraph.compile g) workers left s w) ∧
      ∀ last after, Flow.result (turns g context (TaskGraph.compile g) workers left s) w =
          (.ok last, after) → ∃ all, g.Begun all ∧ all.length = done.length + left ∧
        Accounts g (events ++ tracing.turns g context (TaskGraph.compile g) workers left s w) all
          last.produced := by
  induction left generalizing s done events w with
  | zero =>
    rw [Observer.turns, List.append_nil]
    refine ⟨haccounts.heeds, fun last after hlast ↦ ⟨done, h.begun, rfl, ?_⟩⟩
    rw [← Except.ok.inj (Prod.mk.inj hlast).1]
    exact haccounts
  | succ left ih =>
    rw [turns, Flow.result_bind, Observer.turns]
    cases turned hg context workers h hstaffed w with
    | stopped hresult hevolves hready hexplained =>
      rw [hresult, List.append_nil]
      exact ⟨haccounts.heeds_append fun id hid ↦ (hready id hid).ready,
        fun last after hlast ↦ by cases (Prod.mk.inj hlast).1⟩
    | @completed started id outputs next mid hresult hevolves hseen hstarted hready htallied
        hstaffed hproduced =>
      have hstarts := haccounts.starts started fun other hother ↦ (hstarted other hother).ready
      have hended := hstarts.ends hready.fresh outputs
      rw [← hproduced, List.append_assoc, ← hseen] at hended
      have hrest := ih htallied hstaffed hended (w := mid)
      rw [hresult]
      rw [List.append_assoc, List.length_append, List.length_singleton, Nat.add_assoc,
        Nat.add_comm 1 left] at hrest
      exact hrest

/-! ### From start to end -/

theorem staffed_nil (g : Graph ε σ) (binding : Binding) :
    Staffed g binding ([] : List (Job ε σ)) := fun _ hjob ↦ nomatch hjob

theorem evolves_run (hg : g.Sound) (workers : Nat) (context : RunContext ε) (w : World ε σ) :
    Evolves g context.binding w (trace workers g context w)
      (Flow.result (run workers g context) w).2 := by
  have hannounced : Evolves g context.binding w [] (announced workers g w) :=
    (Evolves.refl.told _).told _
  have hturns := hannounced.trans (evolves_turns hg (max workers 1) (TaskGraph.compile g).length
    (tallied_start hg.toValid) (staffed_nil g context.binding) (announced workers g w))
  rw [result_run]
  rcases hresult : Flow.result (turns g context (TaskGraph.compile g) (max workers 1)
    (TaskGraph.compile g).length (.start (TaskGraph.compile g))) (announced workers g w) with
      ⟨halt | s, last⟩
  · rw [hresult] at hturns
    exact hturns
  · rw [hresult] at hturns
    exact hturns.told _

theorem explained_run (hg : g.Sound) {e : FlowError} {after : World ε σ}
    (h : Flow.result (run workers g context) w = (.error (.error e), after)) :
    Explained (trace workers g context w) e :=
  explained_turns hg (tallied_start hg.toValid) (staffed_nil g context.binding)
    (result_run_eq_error.mp h)

theorem heeds_trace (hg : g.Sound) (workers : Nat) (context : RunContext ε) (w : World ε σ) :
    g.Heeds (trace workers g context w) :=
  (accounts_turns hg (tallied_start hg.toValid) (staffed_nil g context.binding) (.nil g)).1

theorem exists_accounts (hg : g.Sound) {report : Report} {after : World ε σ}
    (h : Flow.result (run workers g context) w = (.ok report, after)) :
    ∃ all p, report = g.report name p ∧ g.Begun all ∧ all.length = g.nodes.length ∧
      Accounts g (trace workers g context w) all p := by
  obtain ⟨s, last, hturns, rfl, -⟩ := result_run_eq_ok.mp h
  obtain ⟨all, hbegun, hlength, haccounts⟩ := (accounts_turns hg (tallied_start hg.toValid)
    (staffed_nil g context.binding) (.nil g)).2 s last hturns
  rw [TaskGraph.length_compile, List.length_nil, Nat.zero_add] at hlength
  exact ⟨all, s.produced, rfl, hbegun, hlength, haccounts⟩

end Distributed

/-! ### Runs that succeed -/

/-- What a successful sequential run has seen are the outputs of the nodes at the moment to which
they have come, one after another. -/
theorem Sequential.exists_runsAll {g : Graph ε σ} {context : RunContext ε} {w after : World ε σ}
    (hg : g.Sound) (hfits : context.binding.Fits g w)
    (hlive : context.cancelled w.environment = false) {report : Report}
    (h : Flow.result (run g context) w = (.ok report, after)) :
    ∃ final, RunsAll g context.binding g.order ⟨.nothing, w⟩ final ∧
      after.instances = final.world.instances ∧
      Accounts g (trace g context w) g.order final.produced := by
  obtain ⟨p, last, hvisits, -, rfl⟩ := result_run_eq_ok.mp h
  have hruns : RunsAll g context.binding g.order
      ⟨.nothing, w.told (.runStarted name g.mode g.nodes.length)⟩ ⟨p, last⟩ :=
    (result_visitAll_eq_ok (s := ⟨.nothing, _⟩) (t := ⟨p, last⟩) hg (hfits.told _) hlive
      fun id hid ↦ hg.mem_order.mp hid).mp hvisits
  exact ⟨_, hruns.noted w.journal, rfl,
    (accounts_visitAll hg (List.nil_append _).symm (.nil g)).2 p last hvisits⟩

/-- The same holds of a distributed run, because all orders that respect dependencies come to the
same. -/
theorem Distributed.exists_runsAll {g : Graph ε σ} {context : RunContext ε} {w after : World ε σ}
    (hg : g.Sound) (hjoined : g.TrainersJoined) (workers : Nat) (hfits : context.binding.Fits g w)
    (hlive : context.cancelled w.environment = false) {report : Report}
    (h : Flow.result (run workers g context) w = (.ok report, after)) :
    ∃ final all, RunsAll g context.binding g.order ⟨.nothing, w⟩ final ∧
      after.instances = final.world.instances ∧
      Accounts g (trace workers g context w) all final.produced := by
  have hfits' : context.binding.Fits g (announced workers g w) := (hfits.told _).told _
  obtain ⟨s, last, hresult, -, rfl⟩ := result_run_eq_ok.mp h
  rcases result_turns hg hfits' hlive (Nat.le_max_right workers 1)
    (follows_start hg context.binding (announced workers g w)) (Nat.zero_add _) with
      ⟨found, all, final, hbegun, hlength, hall, hproduced, hturns⟩ |
        ⟨before, now, failed, e, found, -, -, -, -, hturns⟩
  · dsimp only at hturns
    rw [← TaskGraph.length_compile, hresult] at hturns
    obtain ⟨hfound, rfl⟩ := Prod.mk.inj hturns
    obtain rfl := Except.ok.inj hfound
    have horder := hbegun.eq_of_all hg (hfits.independent hg hjoined)
      (fun id hid ↦ mem_of_length_eq hbegun hlength hid) hall
    obtain ⟨done, -, -, haccounts⟩ := (accounts_turns hg (tallied_start hg.toValid)
      (staffed_nil g context.binding) (.nil g)).2 s final.world hresult
    refine ⟨_, done, horder.noted w.journal, rfl, ?_⟩
    rw [hproduced] at haccounts
    exact haccounts
  · dsimp only at hturns
    rw [← TaskGraph.length_compile, hresult] at hturns
    cases (Prod.mk.inj hturns).1

/-! ### Runs on any runner -/

/-- What is seen of a run; of a drawing, nothing. -/
def Runner.trace (runner : Runner) (g : Graph ε σ) (context : RunContext ε) (w : World ε σ) :
    List Event :=
  tracing.run runner g context w

namespace Runner

variable {g : Graph ε σ} {context : RunContext ε} {runner : Runner} {w after : World ε σ}

/-- A run changes the world by what is seen of it only. -/
theorem evolves_run (hg : g.Sound) (runner : Runner) (context : RunContext ε) (w : World ε σ) :
    Evolves g context.binding w (runner.trace g context w)
      (Flow.result (runner.run g context) w).2 := by
  cases runner with
  | sequential => exact Sequential.evolves_run hg context w
  | distributed workers => exact Distributed.evolves_run hg workers context w
  | visualize direction => exact (Evolves.refl.told _).told _

/-- Where nothing is executed, nothing is seen. -/
theorem trace_of_draws (h : ¬ runner.executes = true) : runner.trace g context w = [] := by
  cases runner with
  | sequential => exact absurd rfl h
  | distributed workers => exact absurd rfl h
  | visualize direction => rfl

/-- The error of a run was seen, unless the runner gave up. -/
theorem explained (hg : g.Sound) {e : FlowError}
    (h : Flow.result (runner.run g context) w = (.error (.error e), after)) :
    Explained (runner.trace g context w) e := by
  cases runner with
  | sequential => exact Sequential.explained_run h
  | distributed workers => exact Distributed.explained_run hg h
  | visualize direction => cases (Prod.mk.inj h).1

/-- No node starts before its dependencies have ended with outputs, whatever the runner, the
schedule and the actors. -/
theorem heeds_trace (hg : g.Sound) (runner : Runner) (context : RunContext ε) (w : World ε σ) :
    g.Heeds (runner.trace g context w) := by
  cases runner with
  | sequential => exact Sequential.heeds_trace hg context w
  | distributed workers => exact Distributed.heeds_trace hg workers context w
  | visualize direction => exact .nil g

/-- A run that succeeds has ended every node with outputs, and reports those of the sink. -/
theorem exists_accounts (hg : g.Sound) (hexecutes : runner.executes = true) {report : Report}
    (h : Flow.result (runner.run g context) w = (.ok report, after)) :
    ∃ all p, report = g.report runner.name p ∧ (∀ id < g.nodes.length, id ∈ all) ∧
      Accounts g (runner.trace g context w) all p := by
  cases runner with
  | sequential =>
    obtain ⟨p, hreport, haccounts⟩ := Sequential.exists_accounts hg h
    exact ⟨g.order, p, hreport, fun id hid ↦ hg.mem_order.mpr hid, haccounts⟩
  | distributed workers =>
    obtain ⟨all, p, hreport, hbegun, hlength, haccounts⟩ := Distributed.exists_accounts hg h
    exact ⟨all, p, hreport, fun id hid ↦ Distributed.mem_of_length_eq hbegun hlength hid,
      haccounts⟩
  | visualize direction => cases hexecutes

/-- A run that succeeds comes to running the nodes in the order of the graph, and what was seen are
the outputs they have given. -/
theorem exists_runsAll (hg : g.Sound) (hjoined : g.TrainersJoined)
    (hexecutes : runner.executes = true) (hfits : context.binding.Fits g w)
    (hlive : context.cancelled w.environment = false) {report : Report}
    (h : Flow.result (runner.run g context) w = (.ok report, after)) :
    ∃ final all, RunsAll g context.binding g.order ⟨.nothing, w⟩ final ∧
      after.instances = final.world.instances ∧
      Accounts g (runner.trace g context w) all final.produced := by
  cases runner with
  | sequential =>
    obtain ⟨final, hruns, hinstances, haccounts⟩ := Sequential.exists_runsAll hg hfits hlive h
    exact ⟨final, g.order, hruns, hinstances, haccounts⟩
  | distributed workers =>
    exact Distributed.exists_runsAll hg hjoined workers hfits hlive h
  | visualize direction => cases hexecutes

end Runner

end Dataflow
