import Dataflow.Proofs.Stepping
import Dataflow.Run.Runner
import Mathlib.Data.List.Forall2

/-!
# Runs in lockstep

A runner looks at a world in two ways only: it asks whether the run has been cancelled, and it lets
bound instances do the work of nodes. So let a relation hold between two worlds that telling
messages never breaks, in which both runs are cancelled or neither is, and such that the instances
bound to a node do its work alike and keep the relation (`RunContext.Related`). Then two runs of a
graph from related worlds go in lockstep: they give the same and leave related worlds
(`Runner.related_run`).
-/

set_option autoImplicit false
set_option relaxedAutoImplicit false

namespace Dataflow

variable {ε σ α β γ δ : Type}

/-! ### Related computations -/

/-- Two outcomes are alike: the same failure, or results that are related. -/
inductive Alike (related : α → β → Prop) : Except δ α → Except δ β → Prop
  | ok {a : α} {b : β} (h : related a b) : Alike related (.ok a) (.ok b)
  | error (e : δ) : Alike related (.error e) (.error e)

theorem Alike.eq {first second : Except δ α} (h : Alike Eq first second) : first = second := by
  cases h with
  | ok h => rw [h]
  | error e => rfl

/-- From related worlds two computations give related results and lead to related worlds. -/
def Action.Relates (R : World ε σ → World ε σ → Prop) (related : α → β → Prop)
    (first : Action ε σ α) (second : Action ε σ β) : Prop :=
  ∀ w v, R w v →
    related (result first w).1 (result second v).1 ∧ R (result first w).2 (result second v).2

/-- From related worlds two computations that may fail end alike and lead to related worlds. -/
def Flow.Relates (R : World ε σ → World ε σ → Prop) (related : α → β → Prop)
    (first : Flow ε σ α) (second : Flow ε σ β) : Prop :=
  Action.Relates R (Alike related) (Flow.run first) (Flow.run second)

/-- A relation of worlds that telling messages does not break. -/
def World.Deaf (R : World ε σ → World ε σ → Prop) : Prop :=
  ∀ w v message other, R w v → R (w.told message) (v.told other)

variable {R : World ε σ → World ε σ → Prop}

namespace Action

theorem relates_pure {related : α → β → Prop} {a : α} {b : β} (h : related a b) :
    Relates R related (pure a) (pure b) := fun _ _ hworlds ↦ ⟨h, hworlds⟩

theorem relates_bind {related : α → β → Prop} {related' : γ → δ → Prop} {first : Action ε σ α}
    {second : Action ε σ β} {next : α → Action ε σ γ} {next' : β → Action ε σ δ}
    (h : Relates R related first second)
    (hnext : ∀ a b, related a b → Relates R related' (next a) (next' b)) :
    Relates R related' (first >>= next) (second >>= next') := by
  intro w v hworlds
  obtain ⟨hrelated, hafter⟩ := h w v hworlds
  exact hnext _ _ hrelated _ _ hafter

end Action

namespace Flow

theorem relates_pure {related : α → β → Prop} {a : α} {b : β} (h : related a b) :
    Relates R related (pure a) (pure b) := fun _ _ hworlds ↦ ⟨.ok h, hworlds⟩

theorem relates_throw {related : α → β → Prop} (h : Halt FlowError) :
    Relates R related (throw h : Flow ε σ α) (throw h : Flow ε σ β) :=
  fun _ _ hworlds ↦ ⟨.error h, hworlds⟩

theorem relates_fail {related : α → β → Prop} (e : FlowError) :
    Relates R related (fail e : Flow ε σ α) (fail e : Flow ε σ β) := relates_throw (.error e)

/-- Nothing follows a failure. -/
theorem relates_fail_bind {related : γ → δ → Prop} (e : FlowError) (next : α → Flow ε σ γ)
    (next' : β → Flow ε σ δ) : Relates R related (fail e >>= next) (fail e >>= next') :=
  relates_fail e

theorem relates_tell (htold : World.Deaf R) (message : Message) :
    Relates R Eq (tell message : Flow ε σ Unit) (tell message) :=
  fun w v hworlds ↦ ⟨.ok rfl, htold w v message message hworlds⟩

theorem relates_get : Relates R R (get : Flow ε σ (World ε σ)) get :=
  fun _ _ hworlds ↦ ⟨.ok hworlds, hworlds⟩

theorem relates_lift {related : α → β → Prop} {first : Action ε σ α} {second : Action ε σ β}
    (h : Action.Relates R related first second) :
    Relates R related (ExceptT.lift first) (ExceptT.lift second) := fun w v hworlds ↦
  ⟨.ok (h w v hworlds).1, (h w v hworlds).2⟩

theorem relates_bind {related : α → β → Prop} {related' : γ → δ → Prop} {first : Flow ε σ α}
    {second : Flow ε σ β} {next : α → Flow ε σ γ} {next' : β → Flow ε σ δ}
    (h : Relates R related first second)
    (hnext : ∀ a b, related a b → Relates R related' (next a) (next' b)) :
    Relates R related' (first >>= next) (second >>= next') := by
  intro w v hworlds
  obtain ⟨hrelated, hafter⟩ := h w v hworlds
  change Alike related' (Flow.result (first >>= next) w).1 (Flow.result (second >>= next') v).1 ∧
    R (Flow.result (first >>= next) w).2 (Flow.result (second >>= next') v).2
  change Alike related (Flow.result first w).1 (Flow.result second v).1 at hrelated
  change R (Flow.result first w).2 (Flow.result second v).2 at hafter
  rw [result_bind, result_bind]
  rcases hfirst : Flow.result first w with ⟨outcome, after⟩
  rcases hsecond : Flow.result second v with ⟨outcome', after'⟩
  rw [hfirst, hsecond] at hrelated hafter
  cases hrelated with
  | ok hab => exact hnext _ _ hab after after' hafter
  | error e => exact ⟨.error e, hafter⟩

end Flow

/-! ### Related contexts -/

/-- Two instances do the work of a node alike, and keep worlds related. -/
def WorksAlike (R : World ε σ → World ε σ → Prop) (node : Node ε σ) (i j : InstanceId) : Prop :=
  ∀ inputs, Action.Relates R Eq (execute node i inputs) (execute node j inputs)

/-- Two instances work alike if applying and training them is related. -/
theorem worksAlike_of_calls {i j : InstanceId}
    (happly : ∀ inputs, Action.Relates R Eq (Action.apply i inputs) (Action.apply j inputs))
    (htrain : ∀ inputs label,
      Action.Relates R Eq (Action.train i inputs label) (Action.train j inputs label))
    (node : Node ε σ) : WorksAlike R node i j := by
  have hperform : ∀ inputs,
      Action.Relates R Eq (perform node i inputs) (perform node j inputs) := by
    intro inputs
    unfold perform
    split
    · split
      · exact Action.relates_pure rfl
      · refine Action.relates_bind (htrain _ _) ?_
        rintro result _ rfl
        exact Action.relates_pure rfl
    · refine Action.relates_bind (happly inputs) ?_
      rintro result _ rfl
      exact Action.relates_pure rfl
  intro inputs
  unfold execute
  refine Action.relates_bind (hperform inputs) ?_
  rintro (_ | result) _ rfl
  · exact Action.relates_pure rfl
  · exact Action.relates_pure rfl

/-- In related worlds two contexts do not differ: both runs are cancelled or neither is, tasks
finish by the same schedule, and the instances bound to a node work alike. -/
structure RunContext.Related (R : World ε σ → World ε σ → Prop) (g : Graph ε σ)
    (c d : RunContext ε) : Prop where
  told : World.Deaf R
  cancelled : ∀ w v, R w v → d.cancelled v.environment = c.cancelled w.environment
  schedule : d.schedule = c.schedule
  binding : ∀ node ∈ g.nodes, (c.binding[node.id]? = none ∧ d.binding[node.id]? = none) ∨
    ∃ i j, c.binding[node.id]? = some i ∧ d.binding[node.id]? = some j ∧ WorksAlike R node i j

variable {g : Graph ε σ} {c d : RunContext ε}

theorem RunContext.Related.notices (h : c.Related R g d) (turn : Nat) {w v : World ε σ}
    (hworlds : R w v) : d.notices turn v.environment = c.notices turn w.environment := by
  rw [RunContext.notices, RunContext.notices, h.cancelled w v hworlds, h.schedule]

theorem alike_prepare (h : c.Related R g d) (p : Produced) {node : Node ε σ}
    (hnode : node ∈ g.nodes) :
    Alike (fun x y ↦ WorksAlike R node x.1 y.1 ∧ x.2 = y.2) (prepare g c p node)
      (prepare g d p node) := by
  unfold prepare
  cases gather g p node with
  | error e => exact .error e
  | ok inputs =>
    rcases h.binding node hnode with ⟨hc, hd⟩ | ⟨i, j, hc, hd, hworks⟩
    · simp only [bind, Except.bind, hc, hd]
      exact .error _
    · simp only [bind, Except.bind, hc, hd]
      exact .ok ⟨hworks, rfl⟩

/-! ### Sequential runs -/

namespace Sequential

theorem related_visit (h : c.Related R g d) (p : Produced) (id : NodeId) :
    Flow.Relates R Eq (visit g c p id) (visit g d p id) := by
  unfold visit
  refine Flow.relates_bind Flow.relates_get fun w v hworlds ↦ ?_
  rw [h.cancelled w v hworlds]
  by_cases hcancelled : c.cancelled w.environment = true
  · rw [if_pos hcancelled, if_pos hcancelled]
    exact Flow.relates_bind (Flow.relates_tell h.told _) fun _ _ _ ↦
      Flow.relates_fail_bind .cancelled _ _
  · rw [if_neg hcancelled, if_neg hcancelled]
    cases hnode : g.nodes[id]? with
    | none => exact Flow.relates_throw .crash
    | some node =>
      have halike := alike_prepare h p (List.mem_of_getElem? hnode)
      dsimp only
      generalize prepare g c p node = ready at halike ⊢
      generalize prepare g d p node = ready' at halike ⊢
      cases halike with
      | error e => exact Flow.relates_fail e
      | @ok a b hready =>
        obtain ⟨actor, inputs⟩ := a
        obtain ⟨actor', inputs'⟩ := b
        obtain ⟨hworks, rfl⟩ : WorksAlike R node actor actor' ∧ inputs = inputs' := hready
        refine Flow.relates_bind (Flow.relates_lift (hworks inputs)) ?_
        rintro (halt | outputs) _ rfl
        · cases halt with
          | crash => exact Flow.relates_throw .crash
          | error e =>
            exact Flow.relates_bind (Flow.relates_tell h.told _) fun _ _ _ ↦ Flow.relates_fail e
        · exact Flow.relates_pure rfl

theorem related_visitAll (h : c.Related R g d) (ids : List NodeId) (p : Produced) :
    Flow.Relates R Eq (visitAll g c ids p) (visitAll g d ids p) := by
  induction ids generalizing p with
  | nil => exact Flow.relates_pure rfl
  | cons id rest ih =>
    refine Flow.relates_bind (related_visit h p id) ?_
    rintro q _ rfl
    exact ih q

theorem related_run (h : c.Related R g d) : Flow.Relates R Eq (run g c) (run g d) := by
  refine Flow.relates_bind (Flow.relates_tell h.told _) fun _ _ _ ↦ ?_
  refine Flow.relates_bind (related_visitAll h g.order .nothing) ?_
  rintro p _ rfl
  exact Flow.relates_bind (Flow.relates_tell h.told _) fun _ _ _ ↦ Flow.relates_pure rfl

end Sequential

/-! ### Distributed runs -/

/-- Related lists have related elements at a position, or none. -/
theorem getElem?_cases {related : α → β → Prop} {l : List α} {m : List β}
    (h : List.Forall₂ related l m) (k : Nat) :
    (l[k]? = none ∧ m[k]? = none) ∨ ∃ a b, related a b ∧ l[k]? = some a ∧ m[k]? = some b := by
  obtain ⟨hlength, hrelated⟩ := List.forall₂_iff_get.mp h
  by_cases hk : k < l.length
  · have hk' : k < m.length := hlength ▸ hk
    exact .inr ⟨_, _, hrelated k hk hk', List.getElem?_eq_getElem hk, List.getElem?_eq_getElem hk'⟩
  · have hk' : ¬ k < m.length := hlength ▸ hk
    exact .inl ⟨List.getElem?_eq_none (Nat.le_of_not_lt hk),
      List.getElem?_eq_none (Nat.le_of_not_lt hk')⟩

namespace Distributed

/-- Two jobs do the work of one node alike, on the same inputs. -/
structure Job.Related (R : World ε σ → World ε σ → Prop) (first second : Job ε σ) : Prop where
  node : second.node = first.node
  inputs : second.inputs = first.inputs
  works : WorksAlike R first.node first.actor second.actor

/-- Two runs stand at the same place, with related jobs in flight. -/
structure Progress.Related (R : World ε σ → World ε σ → Prop) (s t : Progress ε σ) : Prop where
  pending : t.pending = s.pending
  ready : t.ready = s.ready
  running : List.Forall₂ (Job.Related R) s.running t.running
  produced : t.produced = s.produced
  completed : t.completed = s.completed

theorem related_executeJob {first second : Job ε σ} (h : first.Related R second) :
    Action.Relates R Eq (execute first.node first.actor first.inputs)
      (execute second.node second.actor second.inputs) := by
  rw [h.node, h.inputs]
  exact h.works first.inputs

theorem related_drain (schedule : Schedule) {jobs others : List (Job ε σ)}
    (h : List.Forall₂ (Job.Related R) jobs others) :
    Action.Relates R Eq (drain schedule jobs) (drain schedule others) := by
  induction h with
  | nil => exact Action.relates_pure rfl
  | @cons job other rest more hjob hrest ih =>
    rw [drain, drain, hjob.node]
    by_cases hdropped : schedule.dropped job.node.id = true
    · rw [if_pos hdropped, if_pos hdropped]
      exact ih
    · rw [if_neg hdropped, if_neg hdropped]
      have hexecuted := related_executeJob hjob
      rw [hjob.node] at hexecuted
      exact Action.relates_bind hexecuted fun _ _ _ ↦ ih

theorem alike_job (h : c.Related R g d) (p : Produced) (id : NodeId) :
    Alike (Job.Related R) (job g c p id) (job g d p id) := by
  unfold job
  cases hnode : g.nodes[id]? with
  | none => exact .error _
  | some node =>
    have halike := alike_prepare h p (List.mem_of_getElem? hnode)
    dsimp only
    generalize prepare g c p node = ready at halike ⊢
    generalize prepare g d p node = ready' at halike ⊢
    cases halike with
    | error e => exact .error e
    | ok hready => exact .ok ⟨rfl, hready.2.symm, hready.1⟩

theorem related_fill (h : c.Related R g d) (workers fuel : Nat) {s t : Progress ε σ}
    (hst : s.Related R t) :
    (fill g c workers fuel s).1.Related R (fill g d workers fuel t).1 ∧
      (fill g d workers fuel t).2 = (fill g c workers fuel s).2 := by
  induction fuel generalizing s t with
  | zero => exact ⟨hst, rfl⟩
  | succ fuel ih =>
    have hlength : t.running.length = s.running.length := hst.running.length_eq.symm
    rw [fill, fill, hlength, hst.ready, hst.produced]
    by_cases hidle : s.running.length < workers
    · rw [if_pos hidle, if_pos hidle]
      cases s.ready with
      | nil => exact ⟨hst, rfl⟩
      | cons entry ready =>
        obtain ⟨rank, id⟩ := entry
        have halike := alike_job h s.produced id
        dsimp only
        generalize job g c s.produced id = started at halike ⊢
        generalize job g d s.produced id = started' at halike ⊢
        cases halike with
        | error e => exact ⟨⟨hst.pending, rfl, hst.running, rfl, hst.completed⟩, rfl⟩
        | ok hjob =>
          refine ih ⟨hst.pending, rfl, ?_, rfl, hst.completed⟩
          exact List.rel_append hst.running (.cons hjob .nil)
    · rw [if_neg hidle, if_neg hidle]
      exact ⟨hst, rfl⟩

theorem related_release (tasks : TaskGraph) {s t : Progress ε σ} (h : s.Related R t) (id : NodeId) :
    (release tasks s id).Related R (release tasks t id) := by
  unfold release
  dsimp only
  rw [h.pending]
  split
  · exact ⟨rfl, by rw [h.ready], h.running, h.produced, h.completed⟩
  · exact ⟨rfl, h.ready, h.running, h.produced, h.completed⟩

theorem related_foldl_release (tasks : TaskGraph) (ids : List NodeId) {s t : Progress ε σ}
    (h : s.Related R t) :
    (ids.foldl (release tasks) s).Related R (ids.foldl (release tasks) t) := by
  induction ids generalizing s t with
  | nil => exact h
  | cons id rest ih => exact ih (related_release tasks h id)

theorem related_complete (tasks : TaskGraph) {s t : Progress ε σ} (h : s.Related R t) (id : NodeId)
    (outputs : List Payload) :
    (complete tasks s id outputs).Related R (complete tasks t id outputs) := by
  refine related_foldl_release tasks _ ⟨h.pending, h.ready, h.running, ?_, ?_⟩
  · rw [h.produced]
  · rw [h.completed]

theorem related_stopCancelled (htold : World.Deaf R) (g : Graph ε σ) (schedule : Schedule)
    {jobs others : List (Job ε σ)} (h : List.Forall₂ (Job.Related R) jobs others) :
    Flow.Relates R (Progress.Related R) (stopCancelled g schedule jobs)
      (stopCancelled g schedule others) := by
  refine Flow.relates_bind (Flow.relates_lift (related_drain schedule h)) fun _ _ _ ↦ ?_
  exact Flow.relates_bind (Flow.relates_tell htold _) fun _ _ _ ↦ Flow.relates_fail .cancelled

theorem related_turn (h : c.Related R g d) (tasks : TaskGraph) (workers : Nat)
    {s t : Progress ε σ} (hst : s.Related R t) :
    Flow.Relates R (Progress.Related R) (turn g c tasks workers s) (turn g d tasks workers t) := by
  obtain ⟨hfilled, herror⟩ := related_fill h workers s.ready.length hst
  unfold turn
  rw [hst.ready]
  generalize fill g c workers s.ready.length s = filled at hfilled herror ⊢
  generalize fill g d workers s.ready.length t = filled' at hfilled herror ⊢
  obtain ⟨s, failed⟩ := filled
  obtain ⟨t, failed'⟩ := filled'
  obtain rfl : failed' = failed := herror
  cases failed' with
  | some e =>
    rw [h.schedule]
    exact Flow.relates_bind (Flow.relates_lift (related_drain _ hfilled.running)) fun _ _ _ ↦
      Flow.relates_fail e
  | none =>
    have hlength : t.running.length = s.running.length := hfilled.running.length_eq.symm
    refine Flow.relates_bind Flow.relates_get fun w v hworlds ↦ ?_
    rw [h.cancelled w v hworlds, h.schedule, hfilled.completed, hlength]
    by_cases hcancelled : c.cancelled w.environment = true
    · rw [if_pos hcancelled, if_pos hcancelled]
      exact related_stopCancelled h.told g _ hfilled.running
    · rw [if_neg hcancelled, if_neg hcancelled]
      generalize c.schedule.next s.completed % s.running.length = position
      have hothers : List.Forall₂ (Job.Related R) (s.running.eraseIdx position)
          (t.running.eraseIdx position) := by
        rw [List.eraseIdx_eq_take_drop_succ, List.eraseIdx_eq_take_drop_succ]
        exact List.rel_append (List.forall₂_take _ hfilled.running)
          (List.forall₂_drop _ hfilled.running)
      dsimp only
      rcases getElem?_cases hfilled.running position with ⟨hs, ht⟩ | ⟨ended, ended', hjob, hs, ht⟩
      · rw [hs, ht]
        exact Flow.relates_fail _
      · rw [hs, ht]
        refine Flow.relates_bind (Flow.relates_lift (related_executeJob hjob)) ?_
        rintro result _ rfl
        refine Flow.relates_bind Flow.relates_get fun w' v' hworlds' ↦ ?_
        rw [h.notices s.completed hworlds', hjob.node]
        by_cases hstopped : c.notices s.completed w'.environment = true
        · rw [if_pos hstopped, if_pos hstopped]
          exact related_stopCancelled h.told g _ hothers
        · rw [if_neg hstopped, if_neg hstopped]
          have hdrain := Flow.relates_lift (related_drain c.schedule hothers)
          rcases result with (e | _) | outputs
          · exact Flow.relates_bind hdrain fun _ _ _ ↦
              Flow.relates_bind (Flow.relates_tell h.told _) fun _ _ _ ↦ Flow.relates_fail e
          · exact Flow.relates_bind hdrain fun _ _ _ ↦ Flow.relates_fail _
          · refine Flow.relates_pure (related_complete tasks ?_ _ outputs)
            exact ⟨hfilled.pending, hfilled.ready, hothers, hfilled.produced, rfl⟩

theorem related_turns (h : c.Related R g d) (tasks : TaskGraph) (workers left : Nat)
    {s t : Progress ε σ} (hst : s.Related R t) :
    Flow.Relates R (Progress.Related R) (turns g c tasks workers left s)
      (turns g d tasks workers left t) := by
  induction left generalizing s t with
  | zero => exact Flow.relates_pure hst
  | succ left ih =>
    exact Flow.relates_bind (related_turn h tasks workers hst) fun _ _ hnext ↦ ih hnext

theorem related_run (h : c.Related R g d) (workers : Nat) :
    Flow.Relates R Eq (run workers g c) (run workers g d) := by
  refine Flow.relates_bind (Flow.relates_tell h.told _) fun _ _ _ ↦ ?_
  refine Flow.relates_bind (Flow.relates_tell h.told _) fun _ _ _ ↦ ?_
  have hstart : (Progress.start (TaskGraph.compile g) : Progress ε σ).Related R (.start _) :=
    ⟨rfl, rfl, .nil, rfl, rfl⟩
  refine Flow.relates_bind (related_turns h _ _ _ hstart) fun s t hst ↦ ?_
  rw [hst.produced]
  exact Flow.relates_bind (Flow.relates_tell h.told _) fun _ _ _ ↦ Flow.relates_pure rfl

end Distributed

/-! ### Runs on any runner -/

theorem Drawing.related_run (htold : World.Deaf R) (direction : String) (g : Graph ε σ) :
    Flow.Relates R Eq (run direction g) (run direction g) := by
  refine Flow.relates_bind (Flow.relates_tell htold _) fun _ _ _ ↦ ?_
  exact Flow.relates_bind (Flow.relates_tell htold _) fun _ _ _ ↦ Flow.relates_pure rfl

/-- A runner gives the same report in related worlds, and leaves them related. -/
theorem Runner.related_run (h : c.Related R g d) (runner : Runner) :
    Flow.Relates R Eq (runner.run g c) (runner.run g d) := by
  cases runner with
  | sequential => exact Sequential.related_run h
  | distributed workers => exact Distributed.related_run h workers
  | visualize direction => exact Drawing.related_run h.told direction g

end Dataflow
