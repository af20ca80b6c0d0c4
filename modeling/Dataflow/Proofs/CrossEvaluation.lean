import Dataflow.Proofs.BlindFits

/-!
# Evaluating a workflow fold by fold

What an evaluation means can be said without a graph, as for trainings and applications.
`Workflow.crossEvaluate` separates the label from the data, goes through the folds, aggregates their
metrics and hands the result to the sink. In a fold (`Workflow.evaluateFold`) the splitter gives
training features, training label, test features and test label. The pipeline is evaluated in the
train shape from new actors on the training parts, then in the apply shape, with the actors so
fitted, on the test features, and the metric compares what it gives with the test label.

The graph of an evaluation holds all folds at once, bound to the instances of one roster, and its
nodes run in one order. `Session.eval_eq_crossEvaluate` says that a sequential evaluation
nevertheless ends as this computation does, with the same output or for the same reason, and that it
leaves the roster of the session and all instances that were there before as they were.

The run is followed fold by fold. While a fold runs, its groups and no others change
(`Workflow.scopeSetting`), so the groups of the folds ahead still have new instances when their turn
comes (`Workflow.Poised`).
-/

set_option autoImplicit false
set_option relaxedAutoImplicit false

namespace Dataflow

variable {ε σ α β : Type}

/-! ### Direct evaluation of folds -/

namespace Direct

/-- Goes to the first leaf, with these actors for the leaves. -/
def startWith (actors : Nat → Instance ε σ) : Direct ε σ Unit :=
  modify fun s ↦ { s with leaf := 0, actors }

/-- Goes back to the first leaf and keeps the actors. -/
def rewind : Direct ε σ Unit :=
  modify fun s ↦ { s with leaf := 0 }

@[simp] theorem result_startWith (actors : Nat → Instance ε σ) (s : Stage ε σ) :
    result (startWith actors) s = (.ok (), { s with leaf := 0, actors }) := rfl

@[simp] theorem result_rewind (s : Stage ε σ) :
    result rewind s = (.ok (), { s with leaf := 0 }) := rfl

end Direct

namespace Workflow

open Direct

variable [Inhabited σ]

/-- For each leaf, a new actor. -/
def newActors (w : Workflow ε σ) (leaf : Nat) : Instance ε σ :=
  (w.leafSpec leaf).instantiate

/-- What the pipeline predicts for test features after new actors have been fitted to training
features and a training label. -/
def fitAndPredict (w : Workflow ε σ) (env : Environment ε) (features : List Payload)
    (label : Option Payload) (tested : List Payload) : Direct ε σ (List Payload) := do
  startWith w.newActors
  let _ ← w.pipeline.expression.evaluate .train env features label
  rewind
  w.pipeline.expression.evaluate .apply env tested none

/-- The metric of a fold, for features and a label. The parts that the splitter gives are training
features, training label, test features and test label. -/
def evaluateFold (w : Workflow ε σ) (env : Environment ε) (evaluation : Evaluation ε σ)
    (features : List Payload) (label : Option Payload) (fold : Nat) :
    Direct ε σ (List Payload) := do
  let splitter := evaluation.splitter fold
  let parts ← applyNew env splitter splitter.arity.outputs (features ++ label.toList)
  let predictions ← w.fitAndPredict env parts[0]?.toList parts[1]? parts[2]?.toList
  let metric ← applyNew env evaluation.metric evaluation.metric.arity.outputs
    (predictions ++ parts[3]?.toList)
  return metric.take 1

/-- The metrics of folds, one after another. -/
def evaluateFolds (w : Workflow ε σ) (env : Environment ε) (evaluation : Evaluation ε σ)
    (features : List Payload) (label : Option Payload) : List Nat → Direct ε σ (List Payload)
  | [] => return []
  | fold :: rest => do
    let metric ← w.evaluateFold env evaluation features label fold
    let metrics ← w.evaluateFolds env evaluation features label rest
    return metric ++ metrics

/-- What the sink gives in the end, with the producing and the receiving actor. -/
def crossEvaluate (w : Workflow ε σ) (env : Environment ε) (producer receiver : Spec ε σ)
    (evaluation : Evaluation ε σ) : Direct ε σ (Option Payload) := do
  let data ← applyNew env producer 1 []
  let (features, label) ← w.features env .train data
  let metrics ← w.evaluateFolds env evaluation features label (List.range evaluation.folds)
  let aggregator := evaluation.aggregator evaluation.folds
  let aggregated ← applyNew env aggregator aggregator.arity.outputs metrics
  let received ← applyNew env receiver 1 (aggregated.take 1)
  return received.getLast?

end Workflow

/-! ### Runs that follow a computation -/

/-- The next nodes, run from these outputs in this world, come to what a step of direct evaluation
comes to. If the step succeeds, it has made one call for each node, earlier outputs are kept, and
`given` relates the outputs and the world to what the step gives. -/
def Computes (g : Graph ε σ) (context : RunContext ε) (count : Nat)
    (given : Produced → World ε σ → α → Prop) (body : Direct ε σ α) (p : Produced) (s : Stage ε σ)
    (w : World ε σ) : Prop :=
  match Direct.result body s with
  | (.ok a, next) =>
    ∃ q after,
      Flow.result (Sequential.visitAll g context (List.range' s.calls count) p) w =
        (.ok q, after) ∧
      next.calls = s.calls + count ∧ (∀ k < s.calls, q k = p k) ∧ given q after a
  | (.error h, _) =>
    ∃ after, Flow.result (Sequential.visitAll g context (List.range' s.calls count) p) w =
      (.error h, after)

namespace Computes

variable {g : Graph ε σ} {context : RunContext ε} {count : Nat}
  {given : Produced → World ε σ → α → Prop} {body : Direct ε σ α} {p : Produced} {s : Stage ε σ}
  {w : World ε σ}

theorem pure {a : α} (h : given p w a) : Computes g context 0 given (pure a) p s w :=
  ⟨p, w, rfl, rfl, fun _ _ ↦ rfl, h⟩

/-- What follows a step is followed from where the step ended. -/
theorem bind (h : Computes g context count given body p s w) {more : Nat} {next : α → Direct ε σ β}
    {last : Produced → World ε σ → β → Prop}
    (hnext : ∀ (a : α) (q : Produced) (after : World ε σ) (stage : Stage ε σ),
      stage.calls = s.calls + count → (∀ k < s.calls, q k = p k) → given q after a →
        Computes g context more last (next a) q stage after) :
    Computes g context (count + more) last (body >>= next) p s w := by
  unfold Computes at h ⊢
  rw [Direct.result_bind, ← List.range'_append_1, Sequential.result_visitAll_append]
  rcases hbody : Direct.result body s with ⟨halt | a, stage⟩
  · rw [hbody] at h
    obtain ⟨after, hrun⟩ := h
    exact ⟨after, by rw [hrun]⟩
  · rw [hbody] at h
    obtain ⟨q, after, hrun, hcalls, hkept, hgiven⟩ := h
    have hrest := hnext a q after stage hcalls hkept hgiven
    unfold Computes at hrest
    rw [hcalls] at hrest
    rw [hrun]
    dsimp only
    rcases hend : Direct.result (next a) stage with ⟨halt | b, final⟩
    · rw [hend] at hrest
      exact hrest
    · rw [hend] at hrest
      obtain ⟨q', after', hrun', hcalls', hkept', hlast⟩ := hrest
      refine ⟨q', after', hrun', ?_, fun k hk ↦ ?_, hlast⟩
      · rw [hcalls', Nat.add_assoc]
      · rw [hkept' k (Nat.lt_of_lt_of_le hk (Nat.le_add_right _ _)), hkept k hk]

theorem mono {weaker : Produced → World ε σ → α → Prop}
    (h : Computes g context count given body p s w)
    (hweaker : ∀ q after a, given q after a → weaker q after a) :
    Computes g context count weaker body p s w := by
  unfold Computes at h ⊢
  rcases hbody : Direct.result body s with ⟨halt | a, stage⟩
  · rw [hbody] at h
    exact h
  · rw [hbody] at h
    obtain ⟨q, after, hrun, hcalls, hkept, hgiven⟩ := h
    exact ⟨q, after, hrun, hcalls, hkept, hweaker q after a hgiven⟩

/-- A step that changes only which actors come next makes no call. -/
theorem startWith {actors : Nat → Instance ε σ}
    (h : Computes g context count given body p { s with leaf := 0, actors } w) :
    Computes g context count given (Direct.startWith actors >>= fun _ ↦ body) p s w := by
  unfold Computes at h ⊢
  rw [Direct.result_bind, Direct.result_startWith]
  exact h

end Computes

namespace Setting

variable {r : Setting ε σ} {p : Produced} {s : Stage ε σ} {w : World ε σ}

/-- A run that simulates a step changes the instances of the leaves at most. -/
theorem Simulates.computes {count fits : Nat} {given : Produced → α → Prop} {body : Direct ε σ α}
    (h : r.Simulates count fits given body p s w) :
    Computes r.graph r.context count
      (fun q after a ↦ given q a ∧ after.environment = r.start.environment ∧
        ∀ id, (∀ i < r.leaves, r.home i ≠ id) → after.instances[id]? = r.start.instances[id]?)
      body p s w := by
  unfold Simulates at h
  unfold Computes
  rcases hbody : Direct.result body s with ⟨halt | a, stage⟩
  · rw [hbody] at h
    obtain ⟨after, hrun, -⟩ := h
    exact ⟨after, hrun⟩
  · rw [hbody] at h
    obtain ⟨q, after, hrun, hcalls, -, hmirrors, hkept, hgiven⟩ := h
    exact ⟨q, after, hrun, hcalls, hkept, hgiven, hmirrors.environment, hmirrors.other⟩

/-- Going back to the first leaf after the last makes no call, and so does passing all leaves
again. -/
theorem Simulates.rewind {count fits : Nat} {given : Produced → α → Prop} {body : Direct ε σ α}
    (hleaf : s.leaf = fits) (h : r.Simulates count fits given body p { s with leaf := 0 } w) :
    r.Simulates count 0 given (Direct.rewind >>= fun _ ↦ body) p s w := by
  unfold Simulates at h ⊢
  rw [Direct.result_bind, Direct.result_rewind]
  dsimp only at h ⊢
  rw [Nat.zero_add, ← hleaf] at h
  exact h

end Setting

/-! ### Groups wait for their fold -/

namespace Workflow

variable [Inhabited σ] (w : Workflow ε σ) (producer receiver : Spec ε σ)

/-- The graph of an evaluation has been bound to new instances, and its actors keep to
themselves. -/
structure Staged (evaluation : Evaluation ε σ) (g : Graph ε σ) (context : RunContext ε)
    (bound : Roster ε σ) (before start : World ε σ) : Prop where
  compiled : w.Compiled producer receiver .eval g
  sound : g.Sound
  bound : Roster.Bound g.nodes .empty before context.binding bound start
  live : context.cancelled before.environment = false
  folds : evaluation.folds < UInt32.size
  evaluation : w.evaluation = some evaluation
  isolated : ∀ node ∈ g.nodes, node.spec.behavior.Isolated

/-- The run of an evaluation from some moment on, in which the groups of one scope are followed. -/
def scopeSetting (g : Graph ε σ) (context : RunContext ε) (bound : Roster ε σ)
    (scope leaves : Nat) (now : World ε σ) : Setting ε σ where
  graph := g
  placements := w.layout producer receiver .eval
  context := context
  start := now
  scope := scope
  leaves := leaves
  home i := bound.actorOf ⟨scope, i⟩

/-- Before a fold runs, the groups of this fold and of those behind it still have new instances, and
nodes without a group always have. -/
structure Poised (evaluation : Evaluation ε σ) (binding : Binding) (bound : Roster ε σ)
    (env : Environment ε) (fold : Nat) (now : World ε σ) : Prop where
  environment : now.environment = env
  plain : ∀ (k : Nat) (p : Placement ε σ), (w.layout producer receiver .eval)[k]? = some p →
    p.group = none → ∃ actor, binding[k]? = some actor ∧
      now.instances[actor]? = some p.spec.instantiate ∧
      ∀ group member, bound.member? group = some member → member.actor ≠ actor
  ahead : ∀ other, fold ≤ other → other < evaluation.folds → ∀ (i : Nat) (leaf : Leaf ε σ),
    w.pipeline.expression.leaves[i]? = some leaf →
      ∃ member, bound.member? ⟨foldScope other, i⟩ = some member ∧
        now.instances[member.actor]? = some leaf.spec.instantiate

variable {w producer receiver} {evaluation : Evaluation ε σ} {g : Graph ε σ}
  {context : RunContext ε} {bound : Roster ε σ} {before start now after : World ε σ} {fold : Nat}

/-- Being poised looks at instances and environment. -/
theorem Poised.congr {env : Environment ε}
    (h : w.Poised producer receiver evaluation context.binding bound env fold now)
    (henvironment : after.environment = now.environment)
    (hinstances : ∀ id : InstanceId, after.instances[id]? = now.instances[id]?) :
    w.Poised producer receiver evaluation context.binding bound env fold after where
  environment := henvironment.trans h.environment
  plain k p hp hgroup := by
    obtain ⟨actor, hactor, hinstance, hapart⟩ := h.plain k p hp hgroup
    exact ⟨actor, hactor, (hinstances actor).trans hinstance, hapart⟩
  ahead other hle hlt i leaf hleaf := by
    obtain ⟨member, hmember, hinstance⟩ := h.ahead other hle hlt i leaf hleaf
    exact ⟨member, hmember, (hinstances member.actor).trans hinstance⟩

namespace Staged

variable {p : Produced} {s : Stage ε σ}

section

variable (hr : w.Staged producer receiver evaluation g context bound before start)

include hr

/-- All groups start with new instances. -/
theorem poised :
    w.Poised producer receiver evaluation context.binding bound before.environment 0 start where
  environment := hr.bound.environment
  plain k p hp hgroup := by
    have hnode := hr.compiled.getElem?_nodes k
    rw [hp] at hnode
    obtain ⟨actor, hactor, -, hinstance, hapart⟩ := hr.bound.plain k (p.node k) hnode hgroup
    exact ⟨actor, hactor, hinstance, hapart⟩
  ahead other _ hother i leaf hleaf :=
    hr.compiled.exists_member_of_leaf hr.bound hr.evaluation hr.folds hother hleaf

/-- When only the groups of the fold have changed, those behind it are as they were. -/
theorem poised_succ
    (h : w.Poised producer receiver evaluation context.binding bound before.environment fold now)
    (hfold : fold < evaluation.folds) (henvironment : after.environment = now.environment)
    (hother : ∀ id, (∀ i < w.pipeline.expression.leaves.length,
      bound.actorOf ⟨foldScope fold, i⟩ ≠ id) → after.instances[id]? = now.instances[id]?) :
    w.Poised producer receiver evaluation context.binding bound before.environment (fold + 1)
      after where
  environment := henvironment.trans h.environment
  plain k p hp hgroup := by
    obtain ⟨actor, hactor, hinstance, hapart⟩ := h.plain k p hp hgroup
    refine ⟨actor, hactor, (hother actor fun i hi ↦ ?_).trans hinstance, hapart⟩
    obtain ⟨member, hmember, -⟩ :=
      h.ahead fold (Nat.le_refl _) hfold i _ (List.getElem?_eq_getElem hi)
    rw [Roster.actorOf_eq hmember]
    exact hapart _ member hmember
  ahead other hle hlt i leaf hleaf := by
    obtain ⟨member, hmember, hinstance⟩ := h.ahead other (Nat.le_of_lt hle) hlt i leaf hleaf
    refine ⟨member, hmember, (hother member.actor fun j hj hsame ↦ ?_).trans hinstance⟩
    obtain ⟨member', hmember', -⟩ :=
      h.ahead fold (Nat.le_refl _) hfold j _ (List.getElem?_eq_getElem hj)
    rw [Roster.actorOf_eq hmember'] at hsame
    have hscope := congrArg GroupId.scope
      (hr.bound.sound.distinct _ _ member' member hmember' hmember hsame)
    rw [foldScope_of_lt (Nat.lt_trans hfold hr.folds), foldScope_of_lt (Nat.lt_trans hlt hr.folds)]
      at hscope
    exact Nat.ne_of_lt hle (Nat.succ.inj hscope)

/-- At every moment the run is a setting for what a scope does whose groups have members. -/
theorem sound_scopeSetting
    (h : w.Poised producer receiver evaluation context.binding bound before.environment fold now)
    {scope leaves : Nat}
    (hmembers : ∀ i < leaves, ∃ member, bound.member? ⟨scope, i⟩ = some member) :
    (w.scopeSetting producer receiver g context bound scope leaves now).Sound where
  live := by
    change context.cancelled now.environment = false
    rw [h.environment]
    exact hr.live
  node k p hp := by
    change (w.layout producer receiver .eval)[k]? = some p at hp
    change g.nodes[k]? = _
    rw [hr.compiled.getElem?_nodes, hp]
    rfl
  inputs k p hp := hr.compiled.inputs hp
  leaf k p i hp hgroup := by
    have hnode := hr.compiled.getElem?_nodes k
    change (w.layout producer receiver .eval)[k]? = some p at hp
    rw [hp] at hnode
    obtain ⟨member, hmember, hactor⟩ := hr.bound.grouped k (p.node k) ⟨scope, i⟩ hnode hgroup
    exact hactor.trans (congrArg some (Roster.actorOf_eq hmember).symm)
  plain k p hp hgroup := by
    obtain ⟨actor, hactor, hinstance, hapart⟩ := h.plain k p hp hgroup
    refine ⟨actor, hactor, hinstance, fun i hi ↦ ?_⟩
    obtain ⟨member, hmember⟩ := hmembers i hi
    change bound.actorOf ⟨scope, i⟩ ≠ actor
    rw [Roster.actorOf_eq hmember]
    exact hapart _ member hmember
  apart i hi j hj hsame := by
    obtain ⟨member, hmember⟩ := hmembers i hi
    obtain ⟨member', hmember'⟩ := hmembers j hj
    change bound.actorOf ⟨scope, i⟩ = bound.actorOf ⟨scope, j⟩ at hsame
    rw [Roster.actorOf_eq hmember, Roster.actorOf_eq hmember'] at hsame
    exact congrArg GroupId.ordinal (hr.bound.sound.distinct _ _ _ _ hmember hmember' hsame)

theorem isolated_of_placed {k : Nat} {placement : Placement ε σ}
    (hplaced : (w.layout producer receiver .eval)[k]? = some placement) :
    placement.spec.behavior.Isolated := by
  have hnode := hr.compiled.getElem?_nodes k
  rw [hplaced] at hnode
  exact hr.isolated _ (List.mem_of_getElem? hnode)

/-- A node that belongs to no group applies a new actor, and changes nothing else. -/
theorem computes_applyNew
    (h : w.Poised producer receiver evaluation context.binding bound before.environment fold now)
    {placement : Placement ε σ} {inputs : List Payload}
    (hplaced : (w.layout producer receiver .eval)[s.calls]? = some placement)
    (hgroup : placement.group = none) (hkind : placement.kind ≠ .trainer)
    (hcarried : p.Carries placement.inputs inputs) :
    let outputs := (placement.kind.arity placement.spec.arity).outputs
    Computes g context 1
      (fun q after given ↦ (q s.calls = some given ∧ given.length = outputs) ∧
        w.Poised producer receiver evaluation context.binding bound before.environment fold after)
      (Direct.applyNew before.environment placement.spec outputs inputs) p s now := by
  intro outputs
  -- no groups are followed here
  have hsound : (w.scopeSetting producer receiver g context bound 0 0 now).Sound :=
    hr.sound_scopeSetting h fun i hi ↦ absurd hi (Nat.not_lt_zero i)
  have hmirrors : (w.scopeSetting producer receiver g context bound 0 0 now).Mirrors s now :=
    ⟨rfl, fun i hi ↦ absurd hi (Nat.not_lt_zero i), fun _ _ ↦ rfl,
      fun i hi ↦ absurd hi (Nat.not_lt_zero i)⟩
  have hsimulates := Setting.simulates_applyNew hsound hmirrors hplaced hgroup hkind
    (hr.isolated_of_placed hplaced) hcarried
  rw [← h.environment]
  refine hsimulates.computes.mono fun q after given ⟨hgiven, henvironment, hother⟩ ↦
    ⟨hgiven, ?_⟩
  rw [h.environment]
  exact h.congr henvironment fun id ↦ hother id fun i hi ↦ absurd hi (Nat.not_lt_zero i)

end

end Staged

end Workflow

/-! ### Fold by fold -/

namespace Workflow

variable [Inhabited σ] {w : Workflow ε σ} {producer receiver : Spec ε σ}
  {evaluation : Evaluation ε σ} {g : Graph ε σ} {context : RunContext ε} {bound : Roster ε σ}
  {before start now after : World ε σ} {fold : Nat}

namespace Staged

variable {p : Produced} {s : Stage ε σ}
  (hr : w.Staged producer receiver evaluation g context bound before start)

include hr

/-- A node that another reads from gives the outputs that are read. -/
theorem lt_outputs {k : NodeId} {placement reader : Placement ε σ} {port : PortRef}
    (hreader : (w.layout producer receiver .eval)[k]? = some reader)
    (hport : port ∈ reader.inputs)
    (hplaced : (w.layout producer receiver .eval)[port.node]? = some placement) :
    port.port < (placement.kind.arity placement.spec.arity).outputs := by
  rw [← hr.compiled.inputs hreader] at hport
  obtain ⟨node, hnode, hlt⟩ := hr.sound.port_lt hport
  rw [hr.compiled.getElem?_nodes, hplaced] at hnode
  obtain rfl := Option.some.inj hnode
  exact hlt

theorem placed_of_inFold (hfold : fold < evaluation.folds) {k : NodeId} {q : Placement ε σ}
    (hin : w.InFold evaluation fold k q) : (w.layout producer receiver .eval)[k]? = some q := by
  obtain ⟨name, hname⟩ := hr.compiled.exists_label
  exact hin.getElem?_layout producer receiver hr.evaluation hname hfold

theorem isolated_newActors (hfold : fold < evaluation.folds) {i : Nat}
    (hi : i < w.pipeline.expression.leaves.length) : (w.newActors i).behavior.Isolated := by
  obtain ⟨q, hmem, hgroup⟩ := Expression.exists_mem_layout hi .train (foldScope fold)
    (w.pipeline.expression.splitterAt fold + 1) (w.pipeline.expression.trainTrack fold)
  obtain ⟨k, hk⟩ := List.getElem?_of_mem hmem
  have hin : w.InFold evaluation fold _ q := .fitted hk
  obtain ⟨leaf, hleaf, hspec⟩ := hin.exists_leaf hgroup
  have hisolated := hr.isolated_of_placed (hr.placed_of_inFold hfold hin)
  rw [hspec] at hisolated
  rw [newActors, leafSpec_eq hleaf]
  exact hisolated

/-- Before a fold runs, its groups have new instances. -/
theorem mirrors_newActors
    (h : w.Poised producer receiver evaluation context.binding bound before.environment fold now)
    (hfold : fold < evaluation.folds) {calls : Nat} :
    (w.scopeSetting producer receiver g context bound (foldScope fold)
      w.pipeline.expression.leaves.length now).Mirrors ⟨calls, 0, w.newActors⟩ now where
  environment := rfl
  leaf i hi := by
    obtain ⟨member, hmember, hinstance⟩ :=
      h.ahead fold (Nat.le_refl _) hfold i _ (List.getElem?_eq_getElem hi)
    change now.instances[bound.actorOf ⟨foldScope fold, i⟩]? = some (w.newActors i)
    rw [Roster.actorOf_eq hmember, newActors, leafSpec_eq (List.getElem?_eq_getElem hi)]
    exact hinstance
  other _ _ := rfl
  isolated i hi := hr.isolated_newActors hfold hi

theorem sound_of_fold
    (h : w.Poised producer receiver evaluation context.binding bound before.environment fold now)
    (hfold : fold < evaluation.folds) :
    (w.scopeSetting producer receiver g context bound (foldScope fold)
      w.pipeline.expression.leaves.length now).Sound := by
  refine hr.sound_scopeSetting h fun i hi ↦ ?_
  obtain ⟨member, hmember, -⟩ :=
    h.ahead fold (Nat.le_refl _) hfold i _ (List.getElem?_eq_getElem hi)
  exact ⟨member, hmember⟩

/-- The nodes of a fold that are fitted follow the pipeline in the train shape. -/
theorem simulates_fitted
    (h : w.Poised producer receiver evaluation context.binding bound before.environment fold now)
    (hfold : fold < evaluation.folds) {features : List Payload} {label : Option Payload}
    (hfeatures : p.Carries (w.pipeline.expression.trainTrack fold).ports features)
    (hlabel : p.Carries (w.pipeline.expression.trainTrack fold).label.toList label.toList) :
    (w.scopeSetting producer receiver g context bound (foldScope fold)
        w.pipeline.expression.leaves.length now).Simulates
      (w.pipeline.expression.size .train) w.pipeline.expression.leaves.length (fun _ _ ↦ True)
      (w.pipeline.expression.evaluate .train now.environment features label) p
      ⟨w.pipeline.expression.splitterAt fold + 1, 0, w.newActors⟩ now := by
  obtain ⟨name, hname⟩ := hr.compiled.exists_label
  have hadmissible := hr.compiled.admissible
  rw [hname] at hadmissible
  rw [← w.pipeline.expression.length_fittedLayout fold]
  refine (w.pipeline.expression.simulated (hr.sound_of_fold h hfold) .train
    (w.pipeline.expression.trainTrack fold) features label p ⟨_, 0, w.newActors⟩ now ?_).mono
    fun _ _ _ ↦ trivial
  exact {
    placed := fun k q hq ↦ hr.placed_of_inFold hfold (.fitted hq)
    room := Nat.le_of_eq (Nat.zero_add _)
    admissible := hadmissible
    below := w.pipeline.expression.below_trainTrack fold
    carried := hfeatures
    labelled := hlabel
    mirrors := hr.mirrors_newActors h hfold }

/-- The nodes of a fold that are applied follow the pipeline in the apply shape. -/
theorem simulates_applied
    (h : w.Poised producer receiver evaluation context.binding bound before.environment fold now)
    (hfold : fold < evaluation.folds) {tested : List Payload}
    (htested : p.Carries (w.pipeline.expression.testTrack fold).ports tested)
    {actors : Nat → Instance ε σ}
    (hmirrors : (w.scopeSetting producer receiver g context bound (foldScope fold)
      w.pipeline.expression.leaves.length now).Mirrors
        ⟨w.pipeline.expression.appliedAt fold, 0, actors⟩ after) :
    (w.scopeSetting producer receiver g context bound (foldScope fold)
        w.pipeline.expression.leaves.length now).Simulates
      (w.pipeline.expression.size .apply) w.pipeline.expression.leaves.length
      (fun q predictions ↦
        q.Carries (w.pipeline.expression.appliedLayout fold).2.ports predictions)
      (w.pipeline.expression.evaluate .apply now.environment tested none) p
      ⟨w.pipeline.expression.appliedAt fold, 0, actors⟩ after := by
  rw [← w.pipeline.expression.length_appliedLayout fold]
  refine w.pipeline.expression.simulated (hr.sound_of_fold h hfold) .apply
    (w.pipeline.expression.testTrack fold) tested none p ⟨_, 0, actors⟩ after ?_
  exact {
    placed := fun k q hq ↦ hr.placed_of_inFold hfold (.applied hq)
    room := Nat.le_of_eq (Nat.zero_add _)
    admissible := fun leaf hleaf ↦ (hr.compiled.admissible leaf hleaf).unlabelled
    below := (w.pipeline.expression.below_testTrack fold).mono (Nat.le_add_right _ _)
    carried := htested
    labelled := rfl
    mirrors := hmirrors }

/-- The nodes of a fold that belong to the pipeline fit new actors and predict with them. -/
theorem computes_fitAndPredict
    (h : w.Poised producer receiver evaluation context.binding bound before.environment fold now)
    (hfold : fold < evaluation.folds)
    (hcalls : s.calls = w.pipeline.expression.splitterAt fold + 1) {features tested : List Payload}
    {label : Option Payload}
    (hfeatures : p.Carries (w.pipeline.expression.trainTrack fold).ports features)
    (hlabel : p.Carries (w.pipeline.expression.trainTrack fold).label.toList label.toList)
    (htested : p.Carries (w.pipeline.expression.testTrack fold).ports tested) :
    Computes g context (w.pipeline.expression.size .train + w.pipeline.expression.size .apply)
      (fun q after predictions ↦
        q.Carries (w.pipeline.expression.appliedLayout fold).2.ports predictions ∧
        w.Poised producer receiver evaluation context.binding bound before.environment (fold + 1)
          after)
      (w.fitAndPredict before.environment features label tested) p s now := by
  have hpass : (w.scopeSetting producer receiver g context bound (foldScope fold)
      w.pipeline.expression.leaves.length now).Simulates
        (w.pipeline.expression.size .train + w.pipeline.expression.size .apply)
        (w.pipeline.expression.leaves.length + 0)
        (fun q predictions ↦
          q.Carries (w.pipeline.expression.appliedLayout fold).2.ports predictions)
        (w.pipeline.expression.evaluate .train now.environment features label >>= fun _ ↦
          Direct.rewind >>= fun _ ↦
            w.pipeline.expression.evaluate .apply now.environment tested none) p
        ⟨w.pipeline.expression.splitterAt fold + 1, 0, w.newActors⟩ now := by
    refine (hr.simulates_fitted h hfold hfeatures hlabel).bind ?_
    intro _ q after stage hpassed hleaf hmirrors hkept _
    have hpassed : stage.calls = w.pipeline.expression.appliedAt fold := hpassed
    refine Setting.Simulates.rewind (hleaf.trans (Nat.zero_add _)) ?_
    rw [hpassed]
    refine hr.simulates_applied h hfold ?_ (hmirrors.congr rfl rfl rfl)
    exact htested.congr fun port hport ↦
      hkept port.node ((w.pipeline.expression.below_testTrack fold).ports port hport)
  refine Computes.startWith ?_
  rw [hcalls, ← h.environment]
  refine hpass.computes.mono fun q after predictions ⟨hcarried, henvironment, hother⟩ ↦
    ⟨hcarried, ?_⟩
  rw [h.environment]
  exact hr.poised_succ h hfold henvironment hother

/-- The layout of the evaluation, with the numbers of its nodes. -/
theorem layout_eq {label : String} (hlabel : w.source.label = some label) :
    ∃ front : List (Placement ε σ),
      front.length = w.pipeline.expression.splitterAt evaluation.folds ∧
      w.layout producer receiver .eval = front ++
        [⟨.applier, evaluation.aggregator evaluation.folds, none,
            (List.range' 0 evaluation.folds).map fun k ↦
              ⟨w.pipeline.expression.metricAt k, 0⟩⟩,
          ⟨.sink, receiver, none, [⟨w.pipeline.expression.splitterAt evaluation.folds, 0⟩]⟩] := by
  have hfirst : w.pipeline.expression.splitterAt 0 = 2 := by
    rw [Expression.splitterAt, Nat.zero_mul]
  have hports := w.ports_foldsLayout evaluation .extracted 0 evaluation.folds
  rw [hfirst] at hports
  have hlayout := layout_eval producer receiver hr.evaluation hlabel
  dsimp only at hlayout
  rw [List.range_eq_range', hports, length_foldsLayout, List.length_range'] at hlayout
  refine ⟨_, ?_, hlayout⟩
  rw [List.length_append, length_foldsLayout, List.length_range']
  rfl

theorem placed_aggregator : (w.layout producer receiver .eval)[
      w.pipeline.expression.splitterAt evaluation.folds]? =
    some ⟨.applier, evaluation.aggregator evaluation.folds, none,
      (List.range' 0 evaluation.folds).map fun k ↦ ⟨w.pipeline.expression.metricAt k, 0⟩⟩ := by
  obtain ⟨label, hlabel⟩ := hr.compiled.exists_label
  obtain ⟨front, hlength, hlayout⟩ := hr.layout_eq hlabel
  rw [hlayout, ← hlength, List.getElem?_append_right (Nat.le_refl _), Nat.sub_self]
  rfl

/-- The nodes of a fold give its metric. -/
theorem computes_evaluateFold
    (h : w.Poised producer receiver evaluation context.binding bound before.environment fold now)
    (hfold : fold < evaluation.folds) (hcalls : s.calls = w.pipeline.expression.splitterAt fold)
    {features : List Payload} {label : Option Payload} (hfeatures : p.Carries [⟨1, 0⟩] features)
    (hlabel : p.Carries [⟨1, 1⟩] label.toList) :
    Computes g context w.pipeline.expression.span
      (fun q after metric ↦ q.Carries [⟨w.pipeline.expression.metricAt fold, 0⟩] metric ∧
        w.Poised producer receiver evaluation context.binding bound before.environment (fold + 1)
          after)
      (w.evaluateFold before.environment evaluation features label fold) p s now := by
  have hspan : w.pipeline.expression.span =
      1 + (w.pipeline.expression.size .train + w.pipeline.expression.size .apply + (1 + 0)) := by
    rw [Expression.span]
    omega
  rw [hspan]
  have hsplitter := hr.placed_of_inFold hfold .splitter
  have hmetric := hr.placed_of_inFold hfold .metric
  -- the splitter
  rw [← hcalls] at hsplitter
  refine (hr.computes_applyNew h hsplitter rfl (by simp) (hfeatures.append hlabel)).bind ?_
  rintro parts q now₁ s₁ hcalls₁ hkept₁ ⟨⟨hparts, hlength⟩, h₁⟩
  rw [hcalls] at hsplitter hcalls₁ hparts
  have hlong : 3 < parts.length := by
    rw [hlength]
    exact hr.lt_outputs hmetric (List.mem_append_right _ List.mem_cons_self) hsplitter
  have hpart : ∀ port < 4, q.Carries [⟨w.pipeline.expression.splitterAt fold, port⟩]
      parts[port]?.toList := fun port hport ↦ Produced.carries_output hparts (by omega)
  -- the pipeline
  refine (hr.computes_fitAndPredict h₁ hfold hcalls₁ (hpart 0 (by decide)) (hpart 1 (by decide))
    (hpart 2 (by decide))).bind ?_
  rintro predictions q₂ now₂ s₂ hcalls₂ hkept₂ ⟨hpredictions, h₂⟩
  have hcalls₂ : s₂.calls = w.pipeline.expression.metricAt fold := by
    rw [hcalls₂, hcalls₁, Expression.metricAt, Expression.appliedAt]
    omega
  -- the metric
  rw [← hcalls₂] at hmetric
  have hearlier : w.pipeline.expression.splitterAt fold < s₁.calls := by
    rw [hcalls₁]
    exact Nat.lt_succ_self _
  have hanswers := (hpart 3 (by decide)).congr_single (hkept₂ _ hearlier)
  refine (hr.computes_applyNew h₂ hmetric rfl (by simp) (hpredictions.append hanswers)).bind ?_
  rintro metric q₃ now₃ s₃ _ _ ⟨⟨hscored, hlength'⟩, h₃⟩
  rw [hcalls₂] at hscored hmetric
  refine Computes.pure ⟨?_, h₃⟩
  rw [List.take_one, List.head?_eq_getElem?]
  refine Produced.carries_output hscored ?_
  rw [hlength']
  have hread : (⟨w.pipeline.expression.metricAt fold, 0⟩ : PortRef) ∈
      (List.range' 0 evaluation.folds).map fun k ↦ ⟨w.pipeline.expression.metricAt k, 0⟩ :=
    List.mem_map.mpr ⟨fold, List.mem_range'_1.mpr ⟨Nat.zero_le _, by omega⟩, rfl⟩
  exact hr.lt_outputs hr.placed_aggregator hread hmetric

/-- The nodes of folds give their metrics in order. -/
theorem computes_evaluateFolds {left : Nat} (hleft : fold + left = evaluation.folds)
    (h : w.Poised producer receiver evaluation context.binding bound before.environment fold now)
    (hcalls : s.calls = w.pipeline.expression.splitterAt fold) {features : List Payload}
    {label : Option Payload} (hfeatures : p.Carries [⟨1, 0⟩] features)
    (hlabel : p.Carries [⟨1, 1⟩] label.toList) :
    Computes g context (left * w.pipeline.expression.span)
      (fun q after metrics ↦
        q.Carries ((List.range' fold left).map fun k ↦ ⟨w.pipeline.expression.metricAt k, 0⟩)
          metrics ∧
        w.Poised producer receiver evaluation context.binding bound before.environment
          evaluation.folds after)
      (w.evaluateFolds before.environment evaluation features label (List.range' fold left)) p s
      now := by
  induction left generalizing fold p s now with
  | zero =>
    obtain rfl : fold = evaluation.folds := hleft
    rw [Nat.zero_mul, List.range'_zero, evaluateFolds]
    exact Computes.pure ⟨rfl, h⟩
  | succ left ih =>
    have hfold : fold < evaluation.folds := by omega
    have hnext : w.pipeline.expression.splitterAt (fold + 1) =
        w.pipeline.expression.splitterAt fold + w.pipeline.expression.span := by
      simp only [Expression.splitterAt, Nat.succ_mul]
      omega
    have hcount : (left + 1) * w.pipeline.expression.span =
        w.pipeline.expression.span + (left * w.pipeline.expression.span + 0) := by
      rw [Nat.succ_mul]
      omega
    rw [hcount, List.range'_succ, evaluateFolds]
    refine (hr.computes_evaluateFold h hfold hcalls hfeatures hlabel).bind ?_
    rintro metric q now₁ s₁ hcalls₁ hkept₁ ⟨hmetric, h₁⟩
    -- the label and the features were given before all folds
    have hone : 1 < s.calls := by
      rw [hcalls]
      exact Nat.le_add_right 2 _
    rw [hcalls, ← hnext] at hcalls₁
    refine (ih (by omega) h₁ hcalls₁ (hfeatures.congr_single (hkept₁ 1 hone))
      (hlabel.congr_single (hkept₁ 1 hone))).bind ?_
    rintro metrics q₂ now₂ s₂ _ hkept₂ ⟨hmetrics, h₂⟩
    have hearlier : w.pipeline.expression.metricAt fold < s₁.calls := by
      rw [hcalls₁]
      exact w.pipeline.expression.metricAt_lt_splitterAt (Nat.lt_succ_self fold)
    exact Computes.pure ⟨(hmetric.congr_single (hkept₂ _ hearlier)).append hmetrics, h₂⟩

/-- The source and the extraction of the label come first. -/
theorem placed_front {label : String} (hlabel : w.source.label = some label) :
    (w.layout producer receiver .eval)[0]? = some ⟨.source, producer, none, []⟩ ∧
      (w.layout producer receiver .eval)[1]? =
        some ⟨.applier, Builtin.extract label, none, [⟨0, 0⟩]⟩ := by
  rw [layout_eval producer receiver hr.evaluation hlabel]
  exact ⟨rfl, rfl⟩

theorem length_nodes :
    g.nodes.length = w.pipeline.expression.splitterAt evaluation.folds + 2 := by
  obtain ⟨label, hlabel⟩ := hr.compiled.exists_label
  obtain ⟨front, hlength, hlayout⟩ := hr.layout_eq hlabel
  rw [hr.compiled.length_nodes, hlayout, List.length_append, hlength]
  rfl

theorem placed_sink : (w.layout producer receiver .eval)[
      w.pipeline.expression.splitterAt evaluation.folds + 1]? =
    some ⟨.sink, receiver, none,
      [⟨w.pipeline.expression.splitterAt evaluation.folds, 0⟩]⟩ := by
  obtain ⟨label, hlabel⟩ := hr.compiled.exists_label
  obtain ⟨front, hlength, hlayout⟩ := hr.layout_eq hlabel
  rw [hlayout, ← hlength, List.getElem?_append_right (Nat.le_add_right _ 1),
    Nat.add_sub_cancel_left]
  rfl

/-- The second node separates the label from the data. -/
theorem computes_features
    (h : w.Poised producer receiver evaluation context.binding bound before.environment fold now)
    (hcalls : s.calls = 1) {data : List Payload} (hdata : p.Carries [⟨0, 0⟩] data) :
    Computes g context 1
      (fun q after given ↦
        (q.Carries [⟨1, 0⟩] given.1 ∧ q.Carries [⟨1, 1⟩] given.2.toList) ∧
        w.Poised producer receiver evaluation context.binding bound before.environment fold after)
      (w.features before.environment .train data) p s now := by
  obtain ⟨label, hlabel⟩ := hr.compiled.exists_label
  have hplaced := hr.placed_front hlabel
  simp only [features, hlabel]
  rw [← hcalls] at hplaced
  change Computes g context (1 + 0) _ _ p s now
  refine (hr.computes_applyNew h hplaced.2 rfl (by simp) hdata).bind ?_
  rintro parts q now₁ s₁ _ _ ⟨⟨hparts, hlength⟩, h₁⟩
  rw [hcalls] at hparts
  have hlong : parts.length = 2 := hlength
  refine Computes.pure ⟨⟨?_, ?_⟩, h₁⟩
  · rw [List.take_one, List.head?_eq_getElem?]
    exact Produced.carries_output hparts (by omega)
  · exact Produced.carries_output hparts (by omega)

/-- The nodes of the graph compute the evaluation. -/
theorem computes_crossEvaluate (actors : Nat → Instance ε σ)
    (h : w.Poised producer receiver evaluation context.binding bound before.environment 0 now) :
    Computes g context g.nodes.length (fun q _ output ↦ (q g.sink).bind List.getLast? = output)
      (w.crossEvaluate before.environment producer receiver evaluation) .nothing ⟨0, 0, actors⟩
      now := by
  obtain ⟨label, hlabel⟩ := hr.compiled.exists_label
  obtain ⟨hsource, -⟩ := hr.placed_front hlabel
  have hcount : g.nodes.length =
      1 + (1 + (evaluation.folds * w.pipeline.expression.span + (1 + (1 + 0)))) := by
    rw [hr.length_nodes, Expression.splitterAt]
    omega
  rw [hcount, crossEvaluate, List.range_eq_range']
  -- the source
  have hempty : Produced.Carries .nothing ([] : List PortRef) [] := rfl
  refine (hr.computes_applyNew (s := ⟨0, 0, actors⟩) h hsource rfl (by simp) hempty).bind ?_
  rintro data q₁ now₁ s₁ hcalls₁ _ ⟨⟨hdata, hlength₁⟩, h₁⟩
  have hcalls₁ : s₁.calls = 1 := hcalls₁
  -- the extraction of the label
  refine (hr.computes_features h₁ hcalls₁ (Setting.carries_of_outputs hdata hlength₁)).bind ?_
  rintro ⟨features, label⟩ q₂ now₂ s₂ hcalls₂ _ ⟨⟨hfeatures, hlabel⟩, h₂⟩
  have hcalls₂ : s₂.calls = w.pipeline.expression.splitterAt 0 := by
    rw [hcalls₂, hcalls₁, Expression.splitterAt, Nat.zero_mul]
  -- the folds
  refine (hr.computes_evaluateFolds (Nat.zero_add _) h₂ hcalls₂ hfeatures hlabel).bind ?_
  rintro metrics q₃ now₃ s₃ hcalls₃ _ ⟨hmetrics, h₃⟩
  have hcalls₃ : s₃.calls = w.pipeline.expression.splitterAt evaluation.folds := by
    rw [hcalls₃, hcalls₂, Expression.splitterAt, Expression.splitterAt, Nat.zero_mul]
  -- the aggregator
  have haggregator := hr.placed_aggregator
  rw [← hcalls₃] at haggregator
  refine (hr.computes_applyNew h₃ haggregator rfl (by simp) hmetrics).bind ?_
  rintro aggregated q₄ now₄ s₄ hcalls₄ _ ⟨⟨haggregated, hlength₄⟩, h₄⟩
  rw [hcalls₃] at hcalls₄ haggregator haggregated
  have hone : 0 < aggregated.length := by
    rw [hlength₄]
    exact hr.lt_outputs hr.placed_sink List.mem_cons_self haggregator
  have hinput := Produced.carries_output haggregated hone
  rw [← List.head?_eq_getElem?, ← List.take_one] at hinput
  -- the sink
  have hsink := hr.placed_sink
  rw [← hcalls₄] at hsink
  refine (hr.computes_applyNew h₄ hsink rfl (by simp) hinput).bind ?_
  rintro received q₅ now₅ s₅ _ _ ⟨⟨hreceived, _⟩, _⟩
  refine Computes.pure ?_
  have hat : g.sink = s₄.calls := by
    rw [hr.compiled.sink, hr.length_nodes, hcalls₄]
    rfl
  rw [hat, hreceived]
  rfl

/-- A sequential run ends as the evaluation does when it is computed directly. -/
theorem result_run (actors : Nat → Instance ε σ) :
    (Flow.result (Sequential.run g context) start).1 =
      (Direct.result (w.crossEvaluate before.environment producer receiver evaluation)
        ⟨0, 0, actors⟩).1.map fun output ↦ ⟨.eval, Sequential.name, output, none⟩ := by
  -- what is told before the first node changes no instance
  have hpoised : w.Poised producer receiver evaluation context.binding bound before.environment 0
      (start.told (.runStarted Sequential.name g.mode g.nodes.length)) :=
    hr.poised.congr rfl fun _ ↦ rfl
  have hcomputes := hr.computes_crossEvaluate actors hpoised
  have hrun := Sequential.result_run g context start
  rw [hr.compiled.order_eval, List.range_eq_range'] at hrun
  unfold Computes at hcomputes
  rcases hbody : Direct.result (w.crossEvaluate before.environment producer receiver evaluation)
    ⟨0, 0, actors⟩ with ⟨halt | output, stage⟩
  · rw [hbody] at hcomputes
    obtain ⟨last, hvisits⟩ := hcomputes
    change Flow.result (Sequential.visitAll g context (List.range' 0 g.nodes.length) .nothing) _ = _
      at hvisits
    rw [hrun, hvisits]
    rfl
  · rw [hbody] at hcomputes
    obtain ⟨q, last, hvisits, -, -, hsink⟩ := hcomputes
    change Flow.result (Sequential.visitAll g context (List.range' 0 g.nodes.length) .nothing) _ = _
      at hvisits
    rw [hrun, hvisits]
    change Except.ok (g.report Sequential.name q) = _
    unfold Graph.report
    rw [hr.compiled.purpose, hsink]
    rfl

end Staged

end Workflow

/-! ### Evaluations of a session -/

namespace Session

variable [Inhabited σ] {s : Session ε σ} {w : World ε σ} {g : Graph ε σ}
  {evaluation : Evaluation ε σ} {runner : Option String}

/-- Evaluating sequentially computes the evaluation fold by fold: it ends with the same output or
for the same reason. What the session has trained is neither looked at nor changed. -/
theorem eval_eq_crossEvaluate (hs : s.Reachable w)
    (hrunner : s.runtime.registry.resolve runner = .ok .sequential)
    (hevaluation : s.workflow.evaluation = some evaluation)
    (hfolds : evaluation.folds < UInt32.size) (hbuild : s.build .eval = .ok g)
    (hfeed : ∀ producer, s.runtime.feed s.workflow.source.query = .ok producer →
      producer.behavior.Isolated)
    (hsink : (s.runtime.sinks .eval).behavior.Isolated)
    (hleaves : ∀ leaf ∈ s.workflow.pipeline.expression.leaves, leaf.spec.behavior.Isolated)
    (hactors : (∀ fold, (evaluation.splitter fold).behavior.Isolated) ∧
      evaluation.metric.behavior.Isolated ∧
        (evaluation.aggregator evaluation.folds).behavior.Isolated) (schedule : Schedule) :
    ∃ producer t last, s.runtime.feed s.workflow.source.query = .ok producer ∧
      Action.result (s.invoke .eval runner schedule) w =
        (((Direct.result (s.workflow.crossEvaluate w.environment producer (s.runtime.sinks .eval)
            evaluation) ⟨0, 0, s.workflow.newActors⟩).1.map fun output ↦
          ⟨.eval, Sequential.name, output, none⟩, t), last) ∧
      t.roster = s.roster ∧ w.Kept last := by
  obtain ⟨hsound, hfaithful⟩ := hs.invariant
  obtain ⟨producer, hproducer, hcompiled⟩ := Workflow.graph_ok hbuild
  obtain ⟨graphs, start, hquiet, hresult⟩ := exists_ran hfaithful hrunner (by simp [hevaluation])
    hbuild nofun schedule w
  have hsound' : s.roster.Sound start :=
    hsound.grow (Nat.le_of_eq (congrArg Array.size hquiet.instances.symm))
  have hbound : Roster.Bound g.nodes .empty start
      (s.staging .eval g .sequential schedule start).context.binding
      (s.staging .eval g .sequential schedule start).roster
      (s.staging .eval g .sequential schedule start).world := by
    rcases Roster.engaged (Roster.sound_empty start) .sequential g with ⟨-, hbound⟩ | ⟨hdraws, -⟩
    · exact hbound
    · cases hdraws
  have hstaged : s.workflow.Staged producer (s.runtime.sinks .eval) evaluation g
      (s.staging .eval g .sequential schedule start).context
      (s.staging .eval g .sequential schedule start).roster start
      (s.staging .eval g .sequential schedule start).world :=
    { compiled := hcompiled
      sound := sound_of_build hbuild
      bound := hbound
      live := by
        rw [← hbound.environment]
        exact decide_eq_false (Nat.lt_irrefl _)
      folds := hfolds
      evaluation := hevaluation
      isolated := hcompiled.isolated (hfeed producer hproducer) hsink hleaves
        fun other hother ↦ by
          obtain rfl := Option.some.inj (hevaluation.symm.trans hother)
          exact hactors }
  have hended := hstaged.result_run s.workflow.newActors
  rw [hquiet.environment] at hended
  refine ⟨producer, { s with graphs, phase := some .eval }, _, hproducer, hresult.trans ?_, rfl,
    hquiet.kept.trans (kept_ended hsound' hbuild .sequential schedule)⟩
  rw [← hended]
  rfl

/-- A session that evaluates a pipeline which predicts the training label, in folds whose training
label is their number. -/
def numbering (folds : Nat) : Session Unit Payload :=
  Runtime.launch
    ⟨{ runners := [.sequential] }, .ofTables [("rows", ⟨["x", "y"], [[.int 1, .text "a"]]⟩)],
      .collecting⟩ 0
    { source := ⟨"rows", some "y"⟩
      pipeline := ⟨0, .mapper Workflow.echo⟩
      evaluation := some
        { folds
          splitter := fun fold ↦
            { name := "parts"
              behavior := .pure fun _ ↦ .ok (.tuple [.unit, .column [.int fold], .unit, .unit])
              arity := ⟨2, 4⟩ }
          metric := { Builtin.collector with arity := ⟨2, 1⟩ }
          aggregator := fun folds ↦
            { name := "all"
              behavior := .pure fun inputs ↦ .ok (.tuple inputs)
              arity := ⟨folds, 1⟩ } } }

/-- The evaluation has given the numbers of two folds. -/
def givesNumbers (result : Except (Halt FlowError) (Option Payload)) : Bool :=
  match result with
  | .ok (some (.tuple [.column [.int 0], .column [.int 1]])) => true
  | _ => false

theorem givesNumbers_iff {result : Except (Halt FlowError) (Option Payload)} :
    givesNumbers result = true ↔
      result = .ok (some (.tuple [.column [.int 0], .column [.int 1]])) := by
  unfold givesNumbers
  split <;> simp_all

/-- The folds of such an evaluation predict their own numbers. -/
theorem eval_eq_crossEvaluate_numbering :
    let s := numbering 2
    let numbers : Payload := .tuple [.column [.int 0], .column [.int 1]]
    ∃ t last, Action.result (s.invoke .eval none .inOrder) (World.new ()) =
        ((.ok ⟨.eval, Sequential.name, some numbers, none⟩, t), last) ∧
      t.roster = s.roster ∧ (World.new ()).Kept last := by
  intro s numbers
  obtain ⟨g, hg⟩ := exists_eq_ok (by decide +kernel : (s.build .eval).isOk = true)
  have hleaves : ∀ leaf ∈ s.workflow.pipeline.expression.leaves, leaf.spec.behavior.Isolated := by
    intro leaf hleaf
    obtain rfl := List.mem_singleton.mp hleaf
    exact ⟨fun _ _ _ ↦ rfl, fun _ _ _ _ ↦ rfl⟩
  have hfeed : ∀ producer, s.runtime.feed s.workflow.source.query = .ok producer →
      producer.behavior.Isolated := by
    intro producer hproducer
    obtain rfl := Except.ok.inj hproducer
    exact ⟨fun _ _ _ ↦ rfl, fun _ _ _ _ ↦ rfl⟩
  have hrunner : s.runtime.registry.resolve none = .ok .sequential := rfl
  obtain ⟨producer, t, last, hproducer, hresult, hroster, hkept⟩ :=
    eval_eq_crossEvaluate (.launch _ _ _ (World.new ())) hrunner rfl (by decide) hg hfeed
      (Behavior.isolated_pure _) hleaves
      ⟨fun _ ↦ Behavior.isolated_pure _, Behavior.isolated_pure _, Behavior.isolated_pure _⟩
      .inOrder
  obtain rfl := Except.ok.inj hproducer
  generalize hdirect : (Direct.result _ _).1 = result at hresult
  have hnumbers : givesNumbers result = true := by
    rw [← hdirect]
    decide +kernel
  rw [givesNumbers_iff.mp hnumbers] at hresult
  exact ⟨t, last, hresult, hroster, hkept⟩

end Session

end Dataflow
