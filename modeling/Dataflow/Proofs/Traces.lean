import Dataflow.Proofs.Observing

/-!
# What is seen of a run

A run is seen as a list of events: nodes start, and they end with outputs or with what stopped them.
Such a list says much about a run that fails or is cancelled, and it is there for any actors, whether
or not they keep to themselves.

Three things are said of the events of a run. The world changes by what is seen only: the run tells
messages and executes nodes on the instances bound to them, with the outcomes seen (`Evolves`). The
error of the run is that of a node, unless the runner itself gives up (`Explained`). And no node
starts before all its dependencies have ended with outputs (`Graph.Heeds`); of a run that succeeds
the events account for all outputs (`Accounts`). Here they are shown of the sequential runner.
-/

set_option autoImplicit false
set_option relaxedAutoImplicit false

namespace Dataflow

variable {ε σ : Type}

/-- What is seen of a node in a run. -/
inductive Event
  | started (id : NodeId)
  | ended (id : NodeId) (outcome : Except (Halt FlowError) (List Payload))

/-- Sees nodes start and end. -/
def tracing : Observer ε σ Event where
  start id := [.started id]
  work id node actor inputs w := [.ended id (Action.result (execute node actor inputs) w).1]

@[simp]
theorem tracing_work (id : NodeId) (node : Node ε σ) (actor : InstanceId) (inputs : List Payload)
    (w : World ε σ) : tracing.work id node actor inputs w =
      [.ended id (Action.result (execute node actor inputs) w).1] :=
  rfl

/-! ### Worlds change by what is seen -/

/-- One world comes from another by telling messages and by executing nodes on the instances bound
to them, and this is what is seen of it. -/
inductive Evolves (g : Graph ε σ) (binding : Binding) (start : World ε σ) :
    List Event → World ε σ → Prop
  | refl : Evolves g binding start [] start
  | told {events : List Event} {w : World ε σ} (h : Evolves g binding start events w)
      (message : Message) : Evolves g binding start events (w.told message)
  | started {events : List Event} {w : World ε σ} (h : Evolves g binding start events w)
      (id : NodeId) : Evolves g binding start (events ++ [.started id]) w
  | ended {events : List Event} {w : World ε σ} (h : Evolves g binding start events w)
      {id : NodeId} {node : Node ε σ} {actor : InstanceId} (hnode : g.nodes[id]? = some node)
      (hactor : binding[id]? = some actor) (inputs : List Payload) :
      Evolves g binding start
        (events ++ [.ended id (Action.result (execute node actor inputs) w).1])
        (Action.result (execute node actor inputs) w).2

theorem Evolves.trans {g : Graph ε σ} {binding : Binding} {start mid last : World ε σ}
    {events more : List Event} (h : Evolves g binding start events mid)
    (hmore : Evolves g binding mid more last) : Evolves g binding start (events ++ more) last := by
  induction hmore with
  | refl =>
    rw [List.append_nil]
    exact h
  | told _ message ih => exact ih.told message
  | started _ id ih =>
    rw [← List.append_assoc]
    exact ih.started id
  | ended _ hnode hactor inputs ih =>
    rw [← List.append_assoc]
    exact ih.ended hnode hactor inputs

theorem Evolves.starts {g : Graph ε σ} {binding : Binding} {start w : World ε σ}
    {events : List Event} (h : Evolves g binding start events w) (ids : List NodeId) :
    Evolves g binding start (events ++ ids.map .started) w := by
  induction ids generalizing events with
  | nil =>
    rw [List.map_nil, List.append_nil]
    exact h
  | cons id rest ih =>
    rw [List.map_cons, List.append_cons]
    exact ih (h.started id)

/-- The error of a run is one that was seen, or the runner gave up: because it was cancelled, or for
a reason of its own. -/
def Explained (events : List Event) (e : FlowError) : Prop :=
  e = .cancelled ∨ (∃ text, e = .internal text) ∨ ∃ id, .ended id (.error (.error e)) ∈ events

theorem Explained.append {more : List Event} {e : FlowError} (h : Explained more e)
    (events : List Event) : Explained (events ++ more) e := by
  rcases h with h | h | ⟨id, h⟩
  · exact .inl h
  · exact .inr (.inl h)
  · exact .inr (.inr ⟨id, List.mem_append_right _ h⟩)

/-! ### Nodes wait for their dependencies -/

/-- The node that is seen to end. -/
def Event.ended? : Event → Option NodeId
  | .started _ => none
  | .ended id _ => some id

theorem filterMap_ended?_starts (events : List Event) (ids : List NodeId) :
    (events ++ ids.map Event.started).filterMap Event.ended? = events.filterMap Event.ended? := by
  have hstarts : (ids.map Event.started).filterMap Event.ended? = [] :=
    List.filterMap_eq_nil_iff.mpr (List.forall_mem_map.mpr fun _ _ ↦ rfl)
  rw [List.filterMap_append, hstarts, List.append_nil]

theorem filterMap_ended?_started (events : List Event) (id : NodeId) :
    (events ++ [Event.started id]).filterMap Event.ended? = events.filterMap Event.ended? :=
  filterMap_ended?_starts events [id]

/-- Among these events, a node has ended with outputs. -/
def Succeeded (events : List Event) (id : NodeId) : Prop :=
  ∃ outputs, .ended id (.ok outputs) ∈ events

theorem Succeeded.append {events : List Event} {id : NodeId} (h : Succeeded events id)
    (more : List Event) : Succeeded (events ++ more) id := by
  obtain ⟨outputs, hmem⟩ := h
  exact ⟨outputs, List.mem_append_left _ hmem⟩

/-- No node starts before its dependencies have ended with outputs. -/
def Graph.Heeds (g : Graph ε σ) (events : List Event) : Prop :=
  ∀ (front : List Event) (id : NodeId) (back : List Event), events = front ++ .started id :: back →
    ∀ other ∈ g.dependencies id, Succeeded front other

namespace Graph.Heeds

variable {g : Graph ε σ} {events more : List Event}

theorem nil (g : Graph ε σ) : g.Heeds [] := by
  intro front id back h
  simp at h

/-- More events may follow if the nodes that start in them had their dependencies before. -/
theorem append (h : g.Heeds events) (hmore : ∀ id, .started id ∈ more →
    ∀ other ∈ g.dependencies id, Succeeded events other) : g.Heeds (events ++ more) := by
  intro front id back hsplit other hother
  rcases List.append_eq_append_iff.mp hsplit with ⟨middle, rfl, hright⟩ | ⟨middle, hleft, hright⟩
  · refine (hmore id ?_ other hother).append middle
    rw [hright]
    simp
  · cases middle with
    | nil =>
      rw [List.append_nil] at hleft
      subst hleft
      refine hmore id ?_ other hother
      rw [List.nil_append] at hright
      rw [← hright]
      exact List.mem_cons_self
    | cons first rest =>
      rw [List.cons_append, List.cons.injEq] at hright
      obtain ⟨rfl, -⟩ := hright
      exact h front id rest hleft other hother

end Graph.Heeds

/-- The nodes that have ended with outputs are these, each once, what they have given is recorded, and
no node has started before its dependencies had ended. -/
structure Accounts (g : Graph ε σ) (events : List Event) (done : List NodeId) (p : Produced) :
    Prop where
  heeds : g.Heeds events
  nodup : done.Nodup
  ended : events.filterMap Event.ended? = done
  mem_done : ∀ id, id ∈ done ↔ ∃ outputs, p id = some outputs
  outputs : ∀ id outputs, p id = some outputs ↔ .ended id (.ok outputs) ∈ events

namespace Accounts

variable {g : Graph ε σ} {events : List Event} {done : List NodeId} {p : Produced} {id : NodeId}

theorem nil (g : Graph ε σ) : Accounts g [] [] .nothing where
  heeds := .nil g
  nodup := .nil
  ended := rfl
  mem_done id := by simp [Produced.nothing]
  outputs id outputs := by simp [Produced.nothing]

theorem succeeded (h : Accounts g events done p) (hid : id ∈ done) : Succeeded events id := by
  obtain ⟨outputs, houtputs⟩ := (h.mem_done id).mp hid
  exact ⟨outputs, (h.outputs id outputs).mp houtputs⟩

/-- Nodes may start whose dependencies have ended with outputs, and other events may follow that are
no starts. -/
theorem heeds_append (h : Accounts g events done p) {more : List Event}
    (hmore : ∀ id, .started id ∈ more → ∀ other ∈ g.dependencies id, other ∈ done) :
    g.Heeds (events ++ more) :=
  h.heeds.append fun id hid other hother ↦ h.succeeded (hmore id hid other hother)

theorem starts (h : Accounts g events done p) (ids : List NodeId)
    (hids : ∀ id ∈ ids, ∀ other ∈ g.dependencies id, other ∈ done) :
    Accounts g (events ++ ids.map .started) done p where
  heeds := h.heeds_append fun id hid ↦ by
    obtain ⟨other, hother, hsame⟩ := List.mem_map.mp hid
    rw [← Event.started.inj hsame]
    exact hids other hother
  nodup := h.nodup
  ended := (filterMap_ended?_starts events ids).trans h.ended
  mem_done := h.mem_done
  outputs id outputs := by simp [h.outputs]

theorem ends (h : Accounts g events done p) (hid : id ∉ done) (outputs : List Payload) :
    Accounts g (events ++ [.ended id (.ok outputs)]) (done ++ [id]) (p.record id outputs) where
  heeds := h.heeds_append fun other hother ↦ by simp at hother
  nodup := by
    refine List.nodup_append.mpr ⟨h.nodup, List.pairwise_singleton _ id,
      fun other hother last hlast ↦ ?_⟩
    rintro rfl
    exact hid (List.mem_singleton.mp hlast ▸ hother)
  ended := by
    rw [List.filterMap_append, h.ended]
    rfl
  mem_done other := by
    by_cases hsame : other = id
    · simp [hsame, Produced.record_self]
    · simp [hsame, Produced.record_of_ne, h.mem_done]
  outputs other others := by
    by_cases hsame : other = id
    · subst hsame
      have hnone : .ended other (.ok others) ∉ events := fun hmem ↦
        hid ((h.mem_done other).mpr ⟨others, (h.outputs other others).mpr hmem⟩)
      simp [Produced.record_self, hnone, eq_comm]
    · simp [Produced.record_of_ne _ hsame, hsame, h.outputs]

end Accounts

/-! ### Sequential runs -/

/-- The errors that say why a node cannot be run: an input, its instance or its task is missing. -/
inductive FlowError.Unstartable : FlowError → Prop
  | input (rest : String) : Unstartable (.internal ("input " ++ rest))
  | actor (rest : String) : Unstartable (.internal ("no actor bound to node " ++ rest))
  | task (rest : String) : Unstartable (.internal ("no task for node " ++ rest))

theorem FlowError.Unstartable.internal {e : FlowError} (h : e.Unstartable) :
    ∃ text, e = .internal text := by
  cases h <;> exact ⟨_, rfl⟩

theorem unstartable_of_gather_eq_error {g : Graph ε σ} {p : Produced} {node : Node ε σ}
    {e : FlowError} (h : gather g p node = .error e) : e.Unstartable := by
  unfold gather at h
  generalize g.inputs node.id = ports at h
  induction ports with
  | nil => cases h
  | cons port rest ih =>
    rw [List.mapM_cons] at h
    cases hport : p.at? port with
    | none =>
      simp only [hport, bind, Except.bind, Except.error.injEq, String.append_assoc] at h
      exact h ▸ .input _
    | some payload =>
      simp only [hport, bind, Except.bind] at h
      split at h
      · rename_i hrest
        rw [Except.error.inj h] at hrest
        exact ih hrest
      · cases h

theorem unstartable_of_prepare_eq_error {g : Graph ε σ} {context : RunContext ε} {p : Produced}
    {node : Node ε σ} {e : FlowError} (h : prepare g context p node = .error e) :
    e.Unstartable := by
  unfold prepare at h
  cases hinputs : gather g p node with
  | error other =>
    simp only [hinputs, bind, Except.bind, Except.error.injEq] at h
    rw [← h]
    exact unstartable_of_gather_eq_error hinputs
  | ok inputs =>
    cases hactor : context.binding[node.id]? with
    | none =>
      simp only [hinputs, hactor, bind, Except.bind, throw, throwThe, MonadExceptOf.throw,
        Except.error.injEq] at h
      exact h ▸ .actor _
    | some actor => simp [hinputs, hactor, bind, Except.bind, pure, Except.pure] at h

namespace Sequential

/-- What is seen of a run. -/
def trace (g : Graph ε σ) (context : RunContext ε) (w : World ε σ) : List Event :=
  tracing.sequential g context w

variable {g : Graph ε σ} {context : RunContext ε} {p : Produced} {id : NodeId} {w : World ε σ}

/-- What a visit comes to. It gives up before anything is seen, or it starts and ends the node: with
outputs, which are recorded, or with an error, which is told and ends the run. -/
inductive Visited (g : Graph ε σ) (context : RunContext ε) (p : Produced) (id : NodeId)
    (w : World ε σ) : Prop
  | refused {halt : Halt FlowError} {after : World ε σ} (hseen : tracing.visit g context p id w = [])
      (hresult : Flow.result (visit g context p id) w = (.error halt, after))
      (hevolves : Evolves g context.binding w [] after)
      (hexplained : ∀ e, halt = .error e → Explained [] e)
  | failed {node : Node ε σ} {actor : InstanceId} {inputs : List Payload} {halt : Halt FlowError}
      {last after : World ε σ} (hnode : g.nodes[id]? = some node)
      (hready : prepare g context p node = .ok (actor, inputs))
      (hexecute : Action.result (execute node actor inputs) w = (.error halt, last))
      (hseen : tracing.visit g context p id w = [.started id, .ended id (.error halt)])
      (hresult : Flow.result (visit g context p id) w = (.error halt, after))
      (hevolves : Evolves g context.binding last [] after)
  | completed {node : Node ε σ} {actor : InstanceId} {inputs outputs : List Payload}
      {after : World ε σ} (hnode : g.nodes[id]? = some node)
      (hready : prepare g context p node = .ok (actor, inputs))
      (hexecute : Action.result (execute node actor inputs) w = (.ok outputs, after))
      (hseen : tracing.visit g context p id w = [.started id, .ended id (.ok outputs)])
      (hresult : Flow.result (visit g context p id) w = (.ok (p.record id outputs), after))

theorem visited (g : Graph ε σ) (context : RunContext ε) (p : Produced) (id : NodeId)
    (w : World ε σ) : Visited g context p id w := by
  by_cases hcancelled : context.cancelled w.environment = true
  · exact .refused (tracing.visit_of_cancelled g hcancelled p id)
      (result_visit_of_cancelled g hcancelled p id) (.told .refl _)
      fun e he ↦ .inl (Halt.error.inj he).symm
  have hlive : context.cancelled w.environment = false := Bool.eq_false_iff.mpr hcancelled
  cases hnode : g.nodes[id]? with
  | none =>
    exact .refused (tracing.visit_of_absent hlive hnode p) (result_visit_of_absent hlive hnode p)
      .refl fun e he ↦ by cases he
  | some node =>
    cases hready : prepare g context p node with
    | error e =>
      refine .refused (tracing.visit_of_unready hlive hnode hready)
        (result_visit_of_unready hlive hnode hready) .refl fun e' he ↦ ?_
      rw [← Halt.error.inj he]
      exact .inr (.inl (unstartable_of_prepare_eq_error hready).internal)
    | ok ready =>
      obtain ⟨actor, inputs⟩ := ready
      have hseen : tracing.visit g context p id w =
          [.started id, .ended id (Action.result (execute node actor inputs) w).1] :=
        tracing.visit_of_ready hlive hnode hready
      rcases hexecute : Action.result (execute node actor inputs) w with ⟨outcome, last⟩
      have hresult := result_visit_of_ready hlive hnode hready
      rw [hexecute] at hseen hresult
      rcases outcome with (e | _) | outputs
      · exact .failed hnode hready hexecute hseen hresult (.told .refl _)
      · exact .failed hnode hready hexecute hseen hresult .refl
      · exact .completed hnode hready hexecute hseen hresult

/-- A visit changes the world by what is seen of it only. -/
theorem evolves_visit (hg : g.Sound) (context : RunContext ε) (p : Produced) (id : NodeId)
    (w : World ε σ) :
    Evolves g context.binding w (tracing.visit g context p id w)
      (Flow.result (visit g context p id) w).2 := by
  have hexecuted : ∀ {node : Node ε σ} {actor : InstanceId} {inputs : List Payload},
      g.nodes[id]? = some node → prepare g context p node = .ok (actor, inputs) →
      Evolves g context.binding w
        [.started id, .ended id (Action.result (execute node actor inputs) w).1]
        (Action.result (execute node actor inputs) w).2 := by
    intro node actor inputs hnode hready
    have hactor := (prepare_eq_ok.mp hready).2
    rw [hg.wired.id_eq id node hnode] at hactor
    exact (Evolves.refl.started id).ended hnode hactor inputs
  cases visited g context p id w with
  | refused hseen hresult hevolves hexplained =>
    rw [hseen, hresult]
    exact hevolves
  | failed hnode hready hexecute hseen hresult hevolves =>
    have hran := hexecuted hnode hready
    rw [hexecute] at hran
    rw [hseen, hresult, ← List.append_nil [_, _]]
    exact hran.trans hevolves
  | completed hnode hready hexecute hseen hresult =>
    have hran := hexecuted hnode hready
    rw [hexecute] at hran
    rw [hseen, hresult]
    exact hran

theorem evolves_visitAll (hg : g.Sound) (context : RunContext ε) (ids : List NodeId)
    (p : Produced) (w : World ε σ) :
    Evolves g context.binding w (tracing.visitAll g context ids p w)
      (Flow.result (visitAll g context ids p) w).2 := by
  induction ids generalizing p w with
  | nil => exact .refl
  | cons id rest ih =>
    have hvisit := evolves_visit hg context p id w
    rw [visitAll, Flow.result_bind, Observer.visitAll]
    rcases hresult : Flow.result (visit g context p id) w with ⟨halt | q, after⟩
    · rw [hresult] at hvisit
      rw [List.append_nil]
      exact hvisit
    · rw [hresult] at hvisit
      exact hvisit.trans (ih q after)

/-- What stops a run of visits was seen, unless the runner gave up. -/
theorem explained_visitAll {ids : List NodeId} {e : FlowError} {after : World ε σ}
    (h : Flow.result (visitAll g context ids p) w = (.error (.error e), after)) :
    Explained (tracing.visitAll g context ids p w) e := by
  induction ids generalizing p w with
  | nil => cases (Prod.mk.inj h).1
  | cons id rest ih =>
    rw [visitAll, Flow.result_bind] at h
    rw [Observer.visitAll]
    cases visited g context p id w with
    | refused hseen hresult hevolves hexplained =>
      rw [hresult] at h ⊢
      rw [hseen]
      exact hexplained e (Except.error.inj (Prod.mk.inj h).1)
    | failed hnode hready hexecute hseen hresult hevolves =>
      rw [hresult] at h ⊢
      rw [hseen, Except.error.inj (Prod.mk.inj h).1]
      exact .inr (.inr ⟨id, by simp⟩)
    | completed hnode hready hexecute hseen hresult =>
      rw [hresult] at h ⊢
      exact (ih h).append _

/-- As the nodes of the order are visited, each starts behind its dependencies, and if all visits
succeed, all nodes have ended with outputs. -/
theorem accounts_visitAll (hg : g.Sound) {front ids : List NodeId} {events : List Event}
    (horder : g.order = front ++ ids) (h : Accounts g events front p) :
    g.Heeds (events ++ tracing.visitAll g context ids p w) ∧
      ∀ q after, Flow.result (visitAll g context ids p) w = (.ok q, after) →
        Accounts g (events ++ tracing.visitAll g context ids p w) g.order q := by
  induction ids generalizing front events p w with
  | nil =>
    rw [List.append_nil] at horder
    rw [Observer.visitAll, List.append_nil]
    refine ⟨h.heeds, fun q after hq ↦ ?_⟩
    rw [horder, ← Except.ok.inj (Prod.mk.inj hq).1]
    exact h
  | cons id rest ih =>
    obtain ⟨-, hfresh, hbefore⟩ := hg.front_of_order horder
    have hstarted : Accounts g (events ++ [.started id]) front p :=
      h.starts [id] fun other hother ↦ by rwa [List.mem_singleton.mp hother]
    rw [Observer.visitAll, visitAll, Flow.result_bind]
    cases visited g context p id w with
    | refused hseen hresult hevolves hexplained =>
      rw [hseen, hresult, List.append_nil, List.append_nil]
      exact ⟨h.heeds, fun q after hq ↦ by cases (Prod.mk.inj hq).1⟩
    | failed hnode hready hexecute hseen hresult hevolves =>
      rw [hseen, hresult, List.append_nil]
      refine ⟨?_, fun q after hq ↦ by cases (Prod.mk.inj hq).1⟩
      rw [List.append_cons]
      exact hstarted.heeds_append fun other hother ↦ by simp at hother
    | @completed node actor inputs outputs last hnode hready hexecute hseen hresult =>
      rw [hseen, hresult, ← List.append_assoc]
      rw [List.append_cons] at horder
      have hended := hstarted.ends hfresh outputs
      rw [List.append_assoc] at hended
      exact ih horder hended

theorem evolves_run (hg : g.Sound) (context : RunContext ε) (w : World ε σ) :
    Evolves g context.binding w (trace g context w) (Flow.result (run g context) w).2 := by
  have hvisits := (Evolves.refl.told (.runStarted name g.mode g.nodes.length)).trans
    (evolves_visitAll hg context g.order .nothing (w.told (.runStarted name g.mode g.nodes.length)))
  rw [result_run]
  rcases hresult : Flow.result (visitAll g context g.order .nothing)
    (w.told (.runStarted name g.mode g.nodes.length)) with ⟨halt | p, last⟩
  · rw [hresult] at hvisits
    exact hvisits
  · rw [hresult] at hvisits
    exact hvisits.told _

theorem explained_run {e : FlowError} {after : World ε σ}
    (h : Flow.result (run g context) w = (.error (.error e), after)) :
    Explained (trace g context w) e :=
  explained_visitAll (result_run_eq_error.mp h)

theorem heeds_trace (hg : g.Sound) (context : RunContext ε) (w : World ε σ) :
    g.Heeds (trace g context w) :=
  (accounts_visitAll hg (List.nil_append _).symm (.nil g)).1

theorem exists_accounts (hg : g.Sound) {report : Report} {after : World ε σ}
    (h : Flow.result (run g context) w = (.ok report, after)) :
    ∃ p, report = g.report name p ∧ Accounts g (trace g context w) g.order p := by
  obtain ⟨p, last, hvisits, rfl, -⟩ := result_run_eq_ok.mp h
  exact ⟨p, rfl, (accounts_visitAll hg (List.nil_append _).symm (.nil g)).2 p last hvisits⟩

end Sequential

end Dataflow
