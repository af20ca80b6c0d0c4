import Dataflow.Proofs.Lockstep

/-!
# Coupled runs

A runner reaches an instance by its number only. It never compares two numbers and computes none,
and it does not read the journal. So two runs of one graph in two worlds end alike if the instances
bound to a node are the same in both, under whatever numbers (`Runner.coupled_run`).

A `Pairing` tells which numbers stand for the same instance. Two worlds are `World.Coupled` by it if
paired instances are equal and the environments are. Paired instances work alike and keep two worlds
coupled (`worksAlike_of_paired`), so the runs go in lockstep. The pairing also sets instances of the
second world aside: a run does not touch them, because it is bound to paired instances only.
-/

set_option autoImplicit false
set_option relaxedAutoImplicit false

namespace Dataflow

variable {ε σ α β γ δ : Type}

/-! ### Coupled worlds -/

/-- Which instances of two worlds stand for each other, and which of the second world are set
aside. -/
structure Pairing (ε σ : Type) where
  paired : InstanceId → InstanceId → Prop
  aside : InstanceId → Instance ε σ → Prop
  left : ∀ {i j k}, paired i k → paired j k → i = j
  right : ∀ {i j k}, paired i j → paired i k → j = k
  apart : ∀ {i j actor}, paired i j → ¬ aside j actor

/-- Two worlds are coupled: paired instances are equal, and so are the environments. -/
structure World.Coupled (π : Pairing ε σ) (w v : World ε σ) : Prop where
  same : ∀ {i j}, π.paired i j →
    ∃ actor, w.instances[i]? = some actor ∧ v.instances[j]? = some actor
  aside : ∀ {j actor}, π.aside j actor → v.instances[j]? = some actor
  environment : v.environment = w.environment

namespace World.Coupled

variable {π : Pairing ε σ} {w v : World ε σ}

theorem told (h : Coupled π w v) (message other : Message) :
    Coupled π (w.told message) (v.told other) where
  same := h.same
  aside := h.aside
  environment := h.environment

theorem setEnvironment (h : Coupled π w v) (env : Environment ε) :
    Coupled π { w with environment := env } { v with environment := env } where
  same := h.same
  aside := h.aside
  environment := rfl

/-- Paired instances may take on a fit state together. -/
theorem setFit (h : Coupled π w v) {i j : InstanceId} (hpair : π.paired i j) (fit : σ) :
    Coupled π (w.setFit i fit) (v.setFit j fit) where
  same {k l} hkl := by
    obtain ⟨actor, hw, hv⟩ := h.same hkl
    by_cases hi : i = k
    · subst hi
      obtain rfl : j = l := π.right hpair hkl
      exact ⟨{ actor with fit }, instances_setFit_self hw fit, instances_setFit_self hv fit⟩
    · have hj : j ≠ l := fun hj ↦ hi (π.left hpair (hj ▸ hkl))
      rw [instances_setFit_of_ne w hi, instances_setFit_of_ne v hj]
      exact ⟨actor, hw, hv⟩
  aside {k actor} haside := by
    have hj : j ≠ k := fun hj ↦ π.apart hpair (hj ▸ haside)
    rw [instances_setFit_of_ne v hj]
    exact h.aside haside
  environment := h.environment

end World.Coupled

/-! ### Coupled computations -/

/-- From coupled worlds two computations give related results and lead to coupled worlds. -/
def Action.Coupled (π : Pairing ε σ) (related : α → β → Prop) (first : Action ε σ α)
    (second : Action ε σ β) : Prop :=
  ∀ w v, World.Coupled π w v →
    related (result first w).1 (result second v).1 ∧
      World.Coupled π (result first w).2 (result second v).2

/-- From coupled worlds two computations that may fail end alike and lead to coupled worlds. -/
def Flow.Coupled (π : Pairing ε σ) (related : α → β → Prop) (first : Flow ε σ α)
    (second : Flow ε σ β) : Prop :=
  Action.Coupled π (Alike related) (Flow.run first) (Flow.run second)

variable {π : Pairing ε σ}

namespace Action

theorem coupled_apply {i j : InstanceId} (hpair : π.paired i j) (inputs : List Payload) :
    Coupled π Eq (apply i inputs) (apply j inputs) := by
  intro w v hworlds
  obtain ⟨actor, hw, hv⟩ := hworlds.same hpair
  rw [result_apply_of_some hw, result_apply_of_some hv, hworlds.environment]
  exact ⟨rfl, hworlds.setEnvironment _⟩

theorem coupled_train {i j : InstanceId} (hpair : π.paired i j) (inputs : List Payload)
    (label : Payload) : Coupled π Eq (train i inputs label) (train j inputs label) := by
  intro w v hworlds
  obtain ⟨actor, hw, hv⟩ := hworlds.same hpair
  rw [result_train_of_some hw, result_train_of_some hv, hworlds.environment]
  exact ⟨rfl, (hworlds.setEnvironment _).setFit hpair _⟩

theorem coupled_loadState {i j : InstanceId} (hpair : π.paired i j) (bytes : Bytes) :
    Coupled π Eq (loadState i bytes) (loadState j bytes) := by
  intro w v hworlds
  obtain ⟨actor, hw, hv⟩ := hworlds.same hpair
  have hfirst : result (loadState i bytes) w =
      (some (actor.behavior.loadState bytes actor.fit).1,
        w.setFit i (actor.behavior.loadState bytes actor.fit).2) := by
    change loadState i bytes w = _
    rw [loadState, hw]
  have hsecond : result (loadState j bytes) v =
      (some (actor.behavior.loadState bytes actor.fit).1,
        v.setFit j (actor.behavior.loadState bytes actor.fit).2) := by
    change loadState j bytes v = _
    rw [loadState, hv]
  rw [hfirst, hsecond]
  exact ⟨rfl, hworlds.setFit hpair _⟩

end Action

/-! ### Coupled runs -/

theorem worksAlike_of_paired {i j : InstanceId} (hpair : π.paired i j) (node : Node ε σ) :
    WorksAlike (World.Coupled π) node i j :=
  worksAlike_of_calls (Action.coupled_apply hpair) (Action.coupled_train hpair) node

/-- Two contexts are coupled: every node is bound to paired instances, and the rest is the same. -/
structure RunContext.Coupled (π : Pairing ε σ) (c d : RunContext ε) : Prop where
  binding : List.Forall₂ π.paired c.binding d.binding
  cancelled : d.cancelled = c.cancelled
  schedule : d.schedule = c.schedule

variable {c d : RunContext ε}

theorem RunContext.Coupled.related (h : c.Coupled π d) (g : Graph ε σ) :
    c.Related (World.Coupled π) g d where
  told _ _ message other hworlds := hworlds.told message other
  cancelled w v hworlds := by rw [h.cancelled, hworlds.environment]
  schedule := h.schedule
  binding node _ := by
    rcases getElem?_cases h.binding node.id with hnone | ⟨i, j, hpair, hc, hd⟩
    · exact .inl hnone
    · exact .inr ⟨i, j, hc, hd, worksAlike_of_paired hpair node⟩

/-- A runner gives the same report in coupled worlds, and leaves them coupled. -/
theorem Runner.coupled_run (h : c.Coupled π d) (runner : Runner) (g : Graph ε σ) :
    Flow.Coupled π Eq (runner.run g c) (runner.run g d) :=
  Runner.related_run (h.related g) runner

end Dataflow
