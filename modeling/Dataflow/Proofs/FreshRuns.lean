import Dataflow.Proofs.Cancellation
import Dataflow.Proofs.Restoring

/-!
# Trainings and evaluations do not depend on history

A training or an evaluation starts from an empty roster, so every node gets an instance that was not
there before. Let the instances of one world from a number on be those of another world from another
number on (`World.Parallel`). This holds before the first instance is made, and making instances,
applying and training them keeps it, if what an actor does is a function of its inputs and its fit
state (`Behavior.Determined`). So a session that has come through any calls and a session that was
just launched bind their nodes to instances that match, and run them in lockstep, whatever else the
two worlds hold (`Session.invoke_eq_launched`).

Whether a session has been cancelled is not among these things. But a sequential run that does not
end as cancelled goes as if there were no cancellation (`Sequential.run_calm`).
-/

set_option autoImplicit false
set_option relaxedAutoImplicit false

namespace Dataflow

variable {ε σ : Type}

/-! ### Actors that look at nothing else -/

/-- What applying and training come to is a function of the inputs and the fit state. The
environment may be changed, but it is not looked at. -/
structure Behavior.Determined (b : Behavior ε σ) : Prop where
  apply : ∀ inputs fit env other, (b.apply inputs fit env).1 = (b.apply inputs fit other).1
  train : ∀ inputs label fit env other,
    (b.train inputs label fit env).1 = (b.train inputs label fit other).1 ∧
      (b.train inputs label fit env).2.1 = (b.train inputs label fit other).2.1

theorem Behavior.determined_pure [Inhabited σ]
    (apply : List Payload → Except (Halt ActorError) Payload) :
    (Behavior.pure apply : Behavior ε σ).Determined where
  apply _ _ _ _ := rfl
  train _ _ _ _ _ := ⟨rfl, rfl⟩

/-! ### Parallel worlds -/

/-- From two numbers on, two worlds have the same instances, and the actors of these are
determined. -/
structure World.Parallel (n m : Nat) (w v : World ε σ) : Prop where
  left : n ≤ w.instances.size
  right : m ≤ v.instances.size
  same : ∀ k, v.instances[m + k]? = w.instances[n + k]?
  determined : ∀ k actor, w.instances[n + k]? = some actor → actor.behavior.Determined

/-- Two numbers stand for the same instance of parallel worlds. -/
def Opposite (n m : Nat) (i j : InstanceId) : Prop :=
  ∃ k, i = n + k ∧ j = m + k

namespace World.Parallel

variable {n m : Nat} {w v : World ε σ}

/-- Two worlds are parallel from the instances on that they do not have yet. -/
theorem ahead (w v : World ε σ) : Parallel w.instances.size v.instances.size w v where
  left := Nat.le_refl _
  right := Nat.le_refl _
  same k := by
    rw [Array.getElem?_eq_none (Nat.le_add_right _ k),
      Array.getElem?_eq_none (Nat.le_add_right _ k)]
  determined k actor hactor := by
    rw [Array.getElem?_eq_none (Nat.le_add_right _ k)] at hactor
    cases hactor

/-- As many instances have been made in both. -/
theorem exists_size (h : Parallel n m w v) :
    ∃ k, w.instances.size = n + k ∧ v.instances.size = m + k := by
  obtain ⟨k, hk⟩ := Nat.exists_eq_add_of_le h.left
  obtain ⟨l, hl⟩ := Nat.exists_eq_add_of_le h.right
  have hnone : w.instances[n + k]? = none := Array.getElem?_eq_none (Nat.le_of_eq hk)
  have hnone' : v.instances[m + l]? = none := Array.getElem?_eq_none (Nat.le_of_eq hl)
  rw [← h.same, Array.getElem?_eq_none_iff] at hnone
  rw [h.same, Array.getElem?_eq_none_iff] at hnone'
  exact ⟨k, hk, by omega⟩

theorem told (h : Parallel n m w v) (message other : Message) :
    Parallel n m (w.told message) (v.told other) :=
  ⟨h.left, h.right, h.same, h.determined⟩

theorem setEnvironment (h : Parallel n m w v) (env other : Environment ε) :
    Parallel n m { w with environment := env } { v with environment := other } :=
  ⟨h.left, h.right, h.same, h.determined⟩

theorem spawned (h : Parallel n m w v) {spec : Spec ε σ} (hspec : spec.behavior.Determined) :
    Parallel n m (w.spawned spec) (v.spawned spec) := by
  obtain ⟨count, hw, hv⟩ := h.exists_size
  have hsame : ∀ k, (v.spawned spec).instances[m + k]? = (w.spawned spec).instances[n + k]? ∧
      ∀ actor, (w.spawned spec).instances[n + k]? = some actor → actor.behavior.Determined := by
    intro k
    unfold World.spawned
    rw [Array.getElem?_push, Array.getElem?_push, hw, hv]
    by_cases hk : k = count
    · rw [if_pos (by omega), if_pos (by omega)]
      refine ⟨rfl, fun actor hactor ↦ ?_⟩
      rw [← Option.some.inj hactor]
      exact hspec
    · rw [if_neg (by omega), if_neg (by omega)]
      exact ⟨h.same k, h.determined k⟩
  refine ⟨?_, ?_, fun k ↦ (hsame k).1, fun k ↦ (hsame k).2⟩
  · rw [World.size_spawned]
    exact Nat.le_succ_of_le h.left
  · rw [World.size_spawned]
    exact Nat.le_succ_of_le h.right

/-- Instances that stand for each other may take on a fit state together. -/
theorem setFit (h : Parallel n m w v) (k : Nat) (fit : σ) :
    Parallel n m (w.setFit (n + k) fit) (v.setFit (m + k) fit) := by
  have hsame : ∀ l, (v.setFit (m + k) fit).instances[m + l]? =
      (w.setFit (n + k) fit).instances[n + l]? ∧
      ∀ actor, (w.setFit (n + k) fit).instances[n + l]? = some actor →
        actor.behavior.Determined := by
    intro l
    rw [World.instances_setFit, World.instances_setFit, h.same l]
    by_cases hl : k = l
    · rw [if_pos (congrArg (m + ·) hl), if_pos (congrArg (n + ·) hl)]
      refine ⟨rfl, fun actor hactor ↦ ?_⟩
      obtain ⟨former, hformer, rfl⟩ := Option.map_eq_some_iff.mp hactor
      exact h.determined l former hformer
    · rw [if_neg (mt Nat.add_left_cancel hl), if_neg (mt Nat.add_left_cancel hl)]
      exact ⟨rfl, h.determined l⟩
  refine ⟨?_, ?_, fun l ↦ (hsame l).1, fun l ↦ (hsame l).2⟩
  · exact Nat.le_trans h.left (Nat.le_of_eq Array.size_modify.symm)
  · exact Nat.le_trans h.right (Nat.le_of_eq Array.size_modify.symm)

end World.Parallel

section Work

variable (n m k : Nat)

/-- Applying instances that stand for each other gives the same. -/
theorem Action.relates_apply (inputs : List Payload) :
    Relates (World.Parallel n m : World ε σ → World ε σ → Prop) Eq (apply (n + k) inputs)
      (apply (m + k) inputs) := by
  intro w v hworlds
  have hsame := hworlds.same k
  cases hactor : w.instances[n + k]? with
  | none =>
    rw [hactor] at hsame
    rw [result_apply_of_none hactor, result_apply_of_none hsame]
    exact ⟨rfl, hworlds⟩
  | some actor =>
    rw [hactor] at hsame
    rw [result_apply_of_some hactor, result_apply_of_some hsame]
    exact ⟨congrArg some ((hworlds.determined k actor hactor).apply ..), hworlds.setEnvironment _ _⟩

/-- Training them comes to the same, and leaves them with the same fit state. -/
theorem Action.relates_train (inputs : List Payload) (label : Payload) :
    Relates (World.Parallel n m : World ε σ → World ε σ → Prop) Eq (train (n + k) inputs label)
      (train (m + k) inputs label) := by
  intro w v hworlds
  have hsame := hworlds.same k
  cases hactor : w.instances[n + k]? with
  | none =>
    rw [hactor] at hsame
    rw [result_train_of_none hactor, result_train_of_none hsame]
    exact ⟨rfl, hworlds⟩
  | some actor =>
    rw [hactor] at hsame
    obtain ⟨hresult, hfit⟩ := (hworlds.determined k actor hactor).train inputs label actor.fit
      w.environment v.environment
    have htrained : actor.trained v.environment inputs label =
        actor.trained w.environment inputs label :=
      Prod.ext hresult.symm (congrArg (Instance.mk actor.behavior) hfit.symm)
    rw [result_train_of_some hactor, result_train_of_some hsame, htrained]
    exact ⟨rfl, (hworlds.setEnvironment _ _).setFit k _⟩

end Work

theorem worksAlike_of_opposite {n m : Nat} {i j : InstanceId} (h : Opposite n m i j)
    (node : Node ε σ) : WorksAlike (World.Parallel n m) node i j := by
  obtain ⟨k, rfl, rfl⟩ := h
  exact worksAlike_of_calls (Action.relates_apply n m k) (Action.relates_train n m k) node

/-! ### Binding in parallel -/

/-- Instances that are made of one spec stand for each other. -/
theorem Action.relates_spawn {n m : Nat} {spec : Spec ε σ} (hspec : spec.behavior.Determined) :
    Relates (World.Parallel n m) (Opposite n m) (spawn spec) (spawn spec) :=
  fun _ _ hworlds ↦ ⟨hworlds.exists_size, hworlds.spawned hspec⟩

namespace Roster

variable {n m : Nat} {roster other : Roster ε σ}

/-- Two rosters have members for the same groups, with instances that stand for each other. -/
def Parallel (n m : Nat) (roster other : Roster ε σ) : Prop :=
  ∀ group, Option.Rel (fun a b : Member ε σ ↦ Opposite n m a.actor b.actor)
    (roster.member? group) (other.member? group)

theorem parallel_empty (n m : Nat) : Parallel n m (empty : Roster ε σ) empty :=
  fun _ ↦ .none

theorem Parallel.put (h : Parallel n m roster other) (group : GroupId) {a b : Member ε σ}
    (hactors : Opposite n m a.actor b.actor) :
    Parallel n m (roster.put group a) (other.put group b) := by
  intro found
  rw [member?_put, member?_put]
  split_ifs
  · exact .some hactors
  · exact h found

theorem Parallel.exists_member (h : Parallel n m roster other) {group : GroupId}
    {member : Member ε σ} (hmember : roster.member? group = some member) :
    ∃ found, other.member? group = some found ∧ Opposite n m member.actor found.actor := by
  have hmembers := h group
  rw [hmember] at hmembers
  cases hother : other.member? group with
  | none =>
    rw [hother] at hmembers
    cases hmembers
  | some found =>
    rw [hother] at hmembers
    cases hmembers with
    | some hactors => exact ⟨found, rfl, hactors⟩

theorem relates_claim (h : Parallel n m roster other) {node : Node ε σ}
    (hnode : node.spec.behavior.Determined) :
    Action.Relates (World.Parallel n m) (fun a b ↦ Opposite n m a.1 b.1 ∧ Parallel n m a.2 b.2)
      (roster.claim node) (other.claim node) := by
  unfold claim
  cases node.group with
  | none =>
    exact Action.relates_bind (Action.relates_spawn hnode) fun _ _ hactors ↦
      Action.relates_pure ⟨hactors, h⟩
  | some group =>
    have hmembers := h group
    dsimp only
    unfold request
    generalize roster.member? group = found at hmembers ⊢
    generalize other.member? group = found' at hmembers ⊢
    cases hmembers with
    | none =>
      exact Action.relates_bind (Action.relates_spawn hnode) fun _ _ hactors ↦
        Action.relates_pure ⟨hactors, h.put group hactors⟩
    | some hactors => exact Action.relates_pure ⟨hactors, h⟩

/-- Nodes are bound to instances that stand for each other. -/
theorem relates_bind {nodes : List (Node ε σ)}
    (hnodes : ∀ node ∈ nodes, node.spec.behavior.Determined) (h : Parallel n m roster other) :
    Action.Relates (World.Parallel n m)
      (fun a b ↦ List.Forall₂ (Opposite n m) a.1 b.1 ∧ Parallel n m a.2 b.2) (bind nodes roster)
      (bind nodes other) := by
  induction nodes generalizing roster other with
  | nil => exact Action.relates_pure ⟨.nil, h⟩
  | cons node rest ih =>
    intro w v hworlds
    obtain ⟨⟨hactors, hrosters⟩, hafter⟩ :=
      relates_claim h (hnodes node List.mem_cons_self) w v hworlds
    obtain ⟨⟨hbinding, hlast⟩, hend⟩ :=
      ih (fun other hother ↦ hnodes other (List.mem_cons_of_mem _ hother)) hrosters _ _ hafter
    rw [result_bind_cons, result_bind_cons]
    exact ⟨⟨.cons hactors hbinding, hlast⟩, hend⟩

end Roster

/-! ### Runs that are not cancelled -/

/-- The same binding, where nothing is ever cancelled. -/
def RunContext.calm (c : RunContext ε) : RunContext ε where
  binding := c.binding
  cancelled _ := false

namespace Sequential

variable {g : Graph ε σ} {c : RunContext ε}

theorem visit_calm {p : Produced} {id : NodeId} {w : World ε σ}
    (h : (Flow.result (visit g c p id) w).1 ≠ .error (.error .cancelled)) :
    Flow.result (visit g c p id) w = Flow.result (visit g c.calm p id) w := by
  by_cases hcancelled : c.cancelled w.environment = true
  · rw [result_visit_of_cancelled g hcancelled p id] at h
    exact absurd rfl h
  · unfold visit
    rw [Flow.result_bind, Flow.result_bind, Flow.result_get]
    dsimp only
    rw [if_neg hcancelled]
    rfl

theorem visitAll_calm {ids : List NodeId} {p : Produced} {w : World ε σ}
    (h : (Flow.result (visitAll g c ids p) w).1 ≠ .error (.error .cancelled)) :
    Flow.result (visitAll g c ids p) w = Flow.result (visitAll g c.calm ids p) w := by
  induction ids generalizing p w with
  | nil => rfl
  | cons id rest ih =>
    rw [visitAll, Flow.result_bind] at h
    have hvisit : (Flow.result (visit g c p id) w).1 ≠ .error (.error .cancelled) := by
      intro hcancelled
      rcases hresult : Flow.result (visit g c p id) w with ⟨outcome, after⟩
      rw [hresult] at h hcancelled
      obtain rfl : outcome = .error (.error .cancelled) := hcancelled
      exact h rfl
    rw [visitAll, visitAll, Flow.result_bind, Flow.result_bind, ← visit_calm hvisit]
    rcases hresult : Flow.result (visit g c p id) w with ⟨halt | q, after⟩
    · rfl
    · rw [hresult] at h
      exact ih h

/-- A run that does not end as cancelled goes as if nothing were ever cancelled. -/
theorem run_calm {w : World ε σ}
    (h : (Flow.result (run g c) w).1 ≠ .error (.error .cancelled)) :
    Flow.result (run g c) w = Flow.result (run g c.calm) w := by
  rw [result_run] at h
  rw [result_run, result_run, ← visitAll_calm]
  intro hcancelled
  rcases hresult : Flow.result (visitAll g c g.order .nothing)
    (w.told (.runStarted name g.mode g.nodes.length)) with ⟨outcome, after⟩
  rw [hresult] at h hcancelled
  obtain rfl : outcome = .error (.error .cancelled) := hcancelled
  exact h rfl

end Sequential

namespace Session

variable {s t : Session ε σ} {w v : World ε σ} {mode : Mode} {g : Graph ε σ}
  {schedule schedule' : Schedule}

/-- A sequential training or evaluation binds its nodes to instances of an empty roster. -/
theorem staging_sequential (s : Session ε σ) (hmode : mode ≠ .apply) (g : Graph ε σ)
    (schedule : Schedule) (w : World ε σ) :
    s.staging mode g .sequential schedule w =
      let bound := Action.result (Roster.bind g.nodes .empty) w
      ⟨.sequential, g, s.context bound.1.1 bound.2 schedule, bound.1.2, bound.2⟩ := by
  have hbase : s.base mode = .empty := by
    cases mode with
    | train => rfl
    | eval => rfl
    | apply => exact absurd rfl hmode
  rw [staging, hbase]
  rfl

/-- Two sequential trainings or evaluations of one graph that are not cancelled give the same, in
whatever sessions and worlds, and the instances they have made are the same. -/
theorem parallel_ended (hmode : mode ≠ .apply)
    (hactors : ∀ node ∈ g.nodes, node.spec.behavior.Determined)
    (hlive : (s.staging mode g .sequential schedule w).ended.1 ≠ .error (.error .cancelled))
    (hlive' : (t.staging mode g .sequential schedule' v).ended.1 ≠ .error (.error .cancelled)) :
    let r := s.staging mode g .sequential schedule w
    let r' := t.staging mode g .sequential schedule' v
    r.ended.1 = r'.ended.1 ∧
      World.Parallel w.instances.size v.instances.size r.ended.2 r'.ended.2 ∧
      Roster.Parallel w.instances.size v.instances.size r.roster r'.roster := by
  rw [staging_sequential s hmode] at hlive
  rw [staging_sequential t hmode] at hlive'
  rw [staging_sequential s hmode, staging_sequential t hmode]
  obtain ⟨⟨hbinding, hrosters⟩, hworlds⟩ := Roster.relates_bind hactors
    (Roster.parallel_empty w.instances.size v.instances.size) w v (.ahead w v)
  generalize Action.result (Roster.bind g.nodes .empty) w = bound at *
  generalize Action.result (Roster.bind g.nodes .empty) v = bound' at *
  have hrelated : (s.context bound.1.1 bound.2 schedule).calm.Related
      (World.Parallel w.instances.size v.instances.size) g
      (t.context bound'.1.1 bound'.2 schedule').calm := by
    refine ⟨fun _ _ message other h ↦ h.told message other, fun _ _ _ ↦ rfl, rfl, fun node _ ↦ ?_⟩
    rcases getElem?_cases hbinding node.id with hnone | ⟨i, j, hij, hi, hj⟩
    · exact .inl hnone
    · exact .inr ⟨i, j, hi, hj, worksAlike_of_opposite hij node⟩
  obtain ⟨hresults, hafter⟩ := Sequential.related_run hrelated bound.2 bound'.2 hworlds
  have hcalm : Staging.ended ⟨.sequential, g, s.context bound.1.1 bound.2 schedule, bound.1.2,
      bound.2⟩ = _ := Sequential.run_calm hlive
  have hcalm' : Staging.ended ⟨.sequential, g, t.context bound'.1.1 bound'.2 schedule', bound'.1.2,
      bound'.2⟩ = _ := Sequential.run_calm hlive'
  dsimp only
  rw [hcalm, hcalm']
  exact ⟨hresults.eq, hafter, hrosters⟩

theorem tidy_staging (s : Session ε σ) (hmode : mode ≠ .apply) (g : Graph ε σ)
    (schedule : Schedule) (w : World ε σ) :
    (s.staging mode g .sequential schedule w).roster.Tidy := by
  rw [staging_sequential s hmode]
  exact Roster.tidy_empty.bind g.nodes w

variable [Inhabited σ] {runner : Option String}

/-- Why a session that has the runner does not come to run a training or an evaluation. This depends
on its workflow and its runtime alone. -/
def refusal? (s : Session ε σ) (mode : Mode) : Option FlowError :=
  if mode = .eval ∧ s.workflow.evaluation.isNone then some (.incompleteDescriptor .evaluation)
  else
    match s.build mode with
    | .error e => some e
    | .ok _ => none

theorem result_invoke_of_refusal (hfaithful : s.Faithful) {found : Runner}
    (hrunner : s.runtime.registry.resolve runner = .ok found) {e : FlowError}
    (h : s.refusal? mode = some e) (schedule : Schedule) (w : World ε σ) :
    (Action.result (s.invoke mode runner schedule) w).1.1 = .error (.error e) := by
  unfold refusal? at h
  by_cases hevaluates : mode = .eval ∧ s.workflow.evaluation.isNone = true
  · rw [if_pos hevaluates] at h
    rw [← Option.some.inj h]
    simp only [invoke, hrunner, Action.result_bind, if_pos hevaluates]
    rfl
  · rw [if_neg hevaluates] at h
    obtain ⟨graphs, start, hgraph, -, -⟩ := result_graph hfaithful mode found.name
      (w.told (.modeInvoked mode found.name))
    cases hbuild : s.build mode with
    | error other =>
      rw [hbuild] at h hgraph
      rw [← Option.some.inj h]
      simp only [invoke, hrunner, Action.result_bind, Action.result_tell, if_neg hevaluates, hgraph,
        Action.result_pure]
    | ok g =>
      rw [hbuild] at h
      cases h

/-- A sequential training or evaluation that is not refused is run as it is staged. -/
theorem exists_staged_of_not_refused (hfaithful : s.Faithful) (hmode : mode ≠ .apply)
    (hrunner : s.runtime.registry.resolve runner = .ok .sequential) (h : s.refusal? mode = none) :
    ∃ g, s.build mode = .ok g ∧ ∀ (schedule : Schedule) (w : World ε σ),
      ∃ graphs start, w.Quiet start ∧
        let r := s.staging mode g .sequential schedule start
        Action.result (s.invoke mode runner schedule) w =
          ((r.ended.1, { s with graphs, phase := some mode, roster := s.keeping mode r }),
            r.ended.2) := by
  unfold refusal? at h
  split_ifs at h with hevaluates
  cases hbuild : s.build mode with
  | error e =>
    rw [hbuild] at h
    cases h
  | ok g =>
    exact ⟨g, rfl, fun schedule w ↦
      exists_ran hfaithful hrunner hevaluates hbuild (fun happly ↦ absurd happly hmode) schedule w⟩

end Session

/-- The instance of a group in a roster, where the group counts as trained. -/
def Roster.TrainedAs (roster : Roster ε σ) (w : World ε σ) (group : GroupId)
    (actor : Instance ε σ) : Prop :=
  ∃ member, roster.member? group = some member ∧ member.trained = true ∧
    w.instances[member.actor]? = some actor

namespace Session

theorem trainedAs_keeping (s : Session ε σ) {r : Staging ε σ} {report : Report}
    (hok : r.ended.1 = .ok report) (hexecutes : r.runner.executes = true) (htidy : r.roster.Tidy)
    {group : GroupId} (hgroup : group ∈ r.graph.statefulGroups.map Prod.fst)
    {member : Member ε σ} (hmember : r.roster.member? group = some member) {actor : Instance ε σ}
    (hactor : r.ended.2.instances[member.actor]? = some actor) :
    (s.keeping .train r).TrainedAs r.ended.2 group actor := by
  have hkept := s.member?_keeping_train hok hexecutes htidy hmember
  rw [if_pos (List.contains_iff_mem.mpr hgroup)] at hkept
  exact ⟨_, hkept, rfl, hactor⟩

variable [Inhabited σ] {s : Session ε σ} {w : World ε σ} {mode : Mode} {runner : Option String}

/-- A training or an evaluation on the sequential runner that is not cancelled gives the same in a
session with any history as in a session that was just launched with the same workflow and the same
runtime, in whatever world, if applying and training are functions of the inputs and the fit state.
After a training that succeeds, the stateful groups count as trained in both sessions and have the
same instances, and so the same fit states. -/
theorem invoke_eq_launched (hreachable : s.Reachable w) (hmode : mode ≠ .apply)
    (hrunner : s.runtime.registry.resolve runner = .ok .sequential)
    (hactors : ∀ g, s.build mode = .ok g → ∀ node ∈ g.nodes, node.spec.behavior.Determined)
    (schedule schedule' : Schedule) (number : Nat) (v : World ε σ)
    (hlive : (Action.result (s.invoke mode runner schedule) w).1.1 ≠ .error (.error .cancelled))
    (hlive' : (Action.result ((s.runtime.launch number s.workflow).invoke mode runner schedule')
      v).1.1 ≠ .error (.error .cancelled)) :
    let after := Action.result (s.invoke mode runner schedule) w
    let after' :=
      Action.result ((s.runtime.launch number s.workflow).invoke mode runner schedule') v
    after.1.1 = after'.1.1 ∧
      ∀ report g, mode = .train → after.1.1 = .ok report → s.build .train = .ok g →
        ∀ entry ∈ g.statefulGroups, ∃ actor,
          after.1.2.roster.TrainedAs after.2 entry.1 actor ∧
            after'.1.2.roster.TrainedAs after'.2 entry.1 actor := by
  intro after after'
  let fresh : Session ε σ := s.runtime.launch number s.workflow
  have hlaunched : fresh.Reachable v := .launch _ _ _ _
  obtain ⟨-, hfaithful⟩ := hreachable.invariant
  cases hrefusal : s.refusal? mode with
  | some e =>
    have hresult : after.1.1 = .error (.error e) :=
      result_invoke_of_refusal hfaithful hrunner hrefusal schedule w
    have hresult' : after'.1.1 = .error (.error e) :=
      result_invoke_of_refusal hlaunched.invariant.2 hrunner hrefusal schedule' v
    refine ⟨hresult.trans hresult'.symm, fun report g _ hok ↦ ?_⟩
    rw [hresult] at hok
    cases hok
  | none =>
    obtain ⟨g, hbuild, hran⟩ := exists_staged_of_not_refused hfaithful hmode hrunner hrefusal
    obtain ⟨g', hbuild', hran'⟩ :=
      exists_staged_of_not_refused hlaunched.invariant.2 hmode hrunner hrefusal
    obtain rfl : g = g' := Except.ok.inj (hbuild.symm.trans hbuild')
    obtain ⟨graphs, start, hquiet, hresult⟩ := hran schedule w
    obtain ⟨graphs', start', -, hresult'⟩ := hran' schedule' v
    rw [hresult] at hlive
    rw [hresult'] at hlive'
    obtain ⟨hsame, hworlds, hrosters⟩ := parallel_ended hmode (hactors g hbuild) hlive hlive'
    have hafter : after = _ := hresult
    have hafter' : after' = _ := hresult'
    rw [hafter, hafter']
    refine ⟨hsame, fun report other htrain hok hother entry hentry ↦ ?_⟩
    subst htrain
    obtain rfl : g = other := Except.ok.inj (hbuild.symm.trans hother)
    have hlisted := ((mem_statefulGroups hbuild (by decide)).mp hentry).1
    have hgroup := List.mem_map_of_mem (f := Prod.fst) hentry
    obtain ⟨member, actor, hmember, hactor, -⟩ :=
      exists_taught_of_trained hbuild rfl rfl hok hlisted
    obtain ⟨found, hfound, k, hk, hk'⟩ := hrosters.exists_member hmember
    have hactor' := hworlds.same k
    rw [← hk, ← hk', hactor] at hactor'
    exact ⟨actor, trainedAs_keeping s hok rfl (s.tidy_staging hmode g schedule start) hgroup hmember
        hactor,
      trainedAs_keeping fresh (hsame.symm.trans hok) rfl
        (fresh.tidy_staging hmode g schedule' start') hgroup hfound hactor'⟩

theorem determined_tally : tally.behavior.Determined where
  apply inputs fit env other := by
    simp only [tally, gauge]
    split <;> rfl
  train _ _ _ _ _ := ⟨rfl, rfl⟩

theorem determined_tallies : ∀ g, tallies.build .train = .ok g →
    ∀ node ∈ g.nodes, node.spec.behavior.Determined := by
  intro g hbuild
  obtain ⟨producer, hproducer, hcompiled⟩ := Workflow.graph_ok hbuild
  cases hproducer
  refine hcompiled.forall_behavior Behavior.determined_pure (Behavior.determined_pure _)
    (Behavior.determined_pure _) (fun leaf hleaf ↦ ?_) fun heval ↦ by cases heval
  rw [spec_of_mem_tallies hleaf]
  exact determined_tally

/-- A load that the second tally refuses when the first has loaded the number five. -/
def refusedLoad : Call :=
  .loadState ⟨[("0.0", "BQ=="), ("0.1", "")]⟩

/-- The session of tallies after it has been trained. -/
def talliesTrained : Session Unit Nat × World Unit Nat :=
  Action.result (tallies.call (.invoke .train none .inOrder)) (World.new ())

/-- The session of trained tallies after a load that has failed. -/
def talliesMixed : Session Unit Nat × World Unit Nat :=
  Action.result (talliesTrained.1.call refusedLoad) talliesTrained.2

theorem reachable_talliesTrained : talliesTrained.1.Reachable talliesTrained.2 :=
  .call (.launch _ _ _ _) _

theorem reachable_talliesMixed : talliesMixed.1.Reachable talliesMixed.2 :=
  reachable_talliesTrained.call _

theorem exists_talliesMixed_eq :
    ∃ graphs phase roster, talliesMixed.1 = { tallies with graphs, phase, roster } := by
  have hlaunched : tallies.Reachable (World.new ()) := .launch _ _ _ _
  obtain ⟨graphs, phase, roster, htrained⟩ :=
    exists_call_eq hlaunched.invariant.2 (.invoke .train none .inOrder) (World.new ())
  obtain ⟨graphs', phase', roster', hmixed⟩ :=
    exists_call_eq reachable_talliesTrained.invariant.2 refusedLoad talliesTrained.2
  refine ⟨graphs', phase', roster', ?_⟩
  rw [talliesMixed, hmixed, talliesTrained, htrained]

/-- The training of that session. -/
def mixedTraining : (Except (Halt FlowError) Report × Session Unit Nat) × World Unit Nat :=
  Action.result (talliesMixed.1.invoke .train none .inOrder) talliesMixed.2

/-- The training of a session of tallies that was just launched. -/
def freshTraining : (Except (Halt FlowError) Report × Session Unit Nat) × World Unit Nat :=
  Action.result ((tallies.runtime.launch 1 tallies.workflow).invoke .train none .inOrder)
    (World.new ())

/-- The number that was loaded counts in the next application. It does not count in the next
training, which leaves the same instances behind as in a session that was just launched. -/
theorem invoke_eq_launched_tallies :
    cells (Action.result (talliesMixed.1.invoke .apply none .inOrder) talliesMixed.2).1.1 =
        some 6 ∧
      mixedTraining.1.1.isOk = true ∧ mixedTraining.1.1 = freshTraining.1.1 ∧
      ∀ group ∈ [(⟨0, 0⟩ : GroupId), ⟨0, 1⟩], ∃ actor,
        mixedTraining.1.2.roster.TrainedAs mixedTraining.2 group actor ∧
          freshTraining.1.2.roster.TrainedAs freshTraining.2 group actor := by
  have hcells : cells (Action.result (talliesMixed.1.invoke .apply none .inOrder)
      talliesMixed.2).1.1 = some 6 := by
    decide +kernel
  have hdone : mixedTraining.1.1.isOk = true := by decide +kernel
  have hdone' : freshTraining.1.1.isOk = true := by decide +kernel
  obtain ⟨report, hok⟩ := exists_eq_ok hdone
  obtain ⟨report', hok'⟩ := exists_eq_ok hdone'
  obtain ⟨g, hbuild⟩ := exists_eq_ok (by decide +kernel : (tallies.build .train).isOk = true)
  obtain ⟨graphs, phase, roster, hmixed⟩ := exists_talliesMixed_eq
  have hrunner : talliesMixed.1.runtime.registry.resolve none = .ok .sequential := by
    rw [hmixed]
    exact (rfl : tallies.runtime.registry.resolve none = .ok .sequential)
  have hbuild' : talliesMixed.1.build .train = .ok g := by
    rw [hmixed]
    exact hbuild
  have hactors : ∀ g, talliesMixed.1.build .train = .ok g →
      ∀ node ∈ g.nodes, node.spec.behavior.Determined := by
    rw [hmixed]
    exact determined_tallies
  have hlaunch : talliesMixed.1.runtime.launch 1 talliesMixed.1.workflow =
      tallies.runtime.launch 1 tallies.workflow := by
    rw [hmixed]
  have hsame := invoke_eq_launched reachable_talliesMixed (by decide : Mode.train ≠ .apply) hrunner
    hactors .inOrder .inOrder 1 (World.new ())
  rw [hlaunch, ← mixedTraining, ← freshTraining, hok, hok'] at hsame
  obtain ⟨hsame, hgroups⟩ := hsame (fun h ↦ nomatch h) (fun h ↦ nomatch h)
  refine ⟨hcells, hdone, hsame, fun group hgroup ↦ ?_⟩
  have hlisted : (group, tally) ∈ tallies.workflow.groupsIn 0 := by
    rcases List.mem_cons.mp hgroup with rfl | hgroup
    · exact List.mem_cons_self
    · obtain rfl := List.mem_singleton.mp hgroup
      exact List.mem_cons_of_mem _ List.mem_cons_self
  have hentry := (mem_statefulGroups hbuild (by decide)).mpr ⟨hlisted, rfl⟩
  exact hgroups report g rfl hok hbuild' (group, tally) hentry

end Session

end Dataflow
