import Dataflow.Operator
import Dataflow.Proofs.Building

/-!
# What computations on a builder keep

A computation keeps a property of builders if every builder that has it still has it afterwards,
whether the computation succeeds or fails (`Build.Keeps`). Composing an expression is made of three
operations: adding a node, binding ports and taking a group. So it keeps whatever these keep
(`Expression.keeps_compose`). Expanding an operator keeps it too if it does not depend on what is
remembered (`Operator.keeps_expand`).
-/

set_option autoImplicit false
set_option relaxedAutoImplicit false

namespace Dataflow

variable {ε σ α β : Type} {P : Builder ε σ → Prop}

/-- A computation keeps a property of builders, whether it succeeds or fails. -/
def Build.Keeps (P : Builder ε σ → Prop) (body : Build ε σ α) : Prop :=
  ∀ b : Builder ε σ, P b → P (Build.run body b).2

/-- The operations that composing is made of keep a property. -/
structure Builder.Stable (P : Builder ε σ → Prop) : Prop where
  addNode : ∀ (b : Builder ε σ) (kind : NodeKind) (spec : Spec ε σ) (group : Option GroupId),
    P b → P (b.addNode kind spec group)
  connect : ∀ (b after : Builder ε σ) (tail : PortRef) (head : NodeId) (input : Nat),
    P b → b.connect tail head input = .ok after → P after
  allocateGroup : ∀ (b : Builder ε σ) (spec : Spec ε σ), P b → P (b.allocateGroup spec)

namespace Build

theorem keeps_pure (a : α) : Keeps P (pure a : Build ε σ α) := fun _ h ↦ h

theorem keeps_throw (e : FlowError) : Keeps P (throw e : Build ε σ α) := fun _ h ↦ h

theorem keeps_get : Keeps P (get : Build ε σ (Builder ε σ)) := fun _ h ↦ h

theorem keeps_bind {body : Build ε σ α} {next : α → Build ε σ β} (h : Keeps P body)
    (hnext : ∀ a, Keeps P (next a)) : Keeps P (body >>= next) := by
  intro b hb
  have hbody := h b hb
  rw [run_bind]
  rcases hrun : run body b with ⟨_ | a, after⟩
  · rw [hrun] at hbody
    exact hbody
  · rw [hrun] at hbody
    exact hnext a after hbody

theorem keeps_check (result : Except FlowError α) : Keeps P (check result : Build ε σ α) := by
  cases result with
  | error e => exact keeps_throw e
  | ok a => exact keeps_pure a

theorem keeps_attempt {step : Builder ε σ → Except FlowError (Builder ε σ)}
    (h : ∀ b after, P b → step b = .ok after → P after) : Keeps P (attempt step) := by
  intro b hb
  unfold attempt
  rw [run_bind, run_get]
  dsimp only
  cases hstep : step b with
  | error e => exact hb
  | ok after => exact h b after hb hstep

theorem keeps_addNode (hP : Builder.Stable P) (kind : NodeKind) (spec : Spec ε σ)
    (group : Option GroupId) : Keeps P (addNode kind spec group) := fun b h ↦
  hP.addNode b kind spec group h

theorem keeps_allocateGroup (hP : Builder.Stable P) (spec : Spec ε σ) :
    Keeps P (allocateGroup spec) := fun b h ↦ hP.allocateGroup b spec h

theorem keeps_connect (hP : Builder.Stable P) (tail : PortRef) (head : NodeId) (input : Nat) :
    Keeps P (connect tail head input) :=
  keeps_attempt fun b after h hstep ↦ hP.connect b after tail head input h hstep

theorem keeps_connectAll (hP : Builder.Stable P) (ports : List PortRef) (head : NodeId) :
    Keeps P (connectAll ports head) := by
  unfold connectAll
  generalize 0 = input
  induction ports generalizing input with
  | nil => exact keeps_pure ()
  | cons port rest ih => exact keeps_bind (keeps_connect hP port head input) fun _ ↦ ih (input + 1)

end Build

open Build

namespace Expression

theorem keeps_addTrainer (hP : Builder.Stable P) (spec : Spec ε σ) (group : GroupId)
    (left : Track) : Keeps P (addTrainer spec group left) :=
  keeps_bind (keeps_check _) fun label ↦
    keeps_bind (keeps_addNode hP .trainer spec (some group)) fun trainer ↦
      keeps_bind (keeps_connectAll hP left.ports trainer) fun _ ↦
        keeps_connect hP label trainer spec.arity.inputs

theorem keeps_addApplier (hP : Builder.Stable P) (spec : Spec ε σ) (group : GroupId)
    (left : Track) : Keeps P (addApplier spec group left) :=
  keeps_bind (keeps_addNode hP .applier spec (some group)) fun applier ↦
    keeps_bind (keeps_connectAll hP left.ports applier) fun _ ↦ keeps_pure _

theorem keeps_composeMapper (hP : Builder.Stable P) (spec : Spec ε σ) (left : Track) :
    Keeps P (composeMapper spec left) := by
  refine keeps_bind (keeps_check _) fun _ ↦
    keeps_bind (keeps_allocateGroup hP spec) fun group ↦ keeps_bind keeps_get fun b ↦ ?_
  by_cases htrain : b.context.shape = .train ∧ spec.stateful
  · rw [if_pos htrain]
    exact keeps_bind (keeps_addTrainer hP spec group left) fun _ ↦
      keeps_addApplier hP spec group left
  · rw [if_neg htrain]
    exact keeps_addApplier hP spec group left

theorem keeps_composeConsumer (hP : Builder.Stable P) (spec : Spec ε σ) (left : Track) :
    Keeps P (composeConsumer spec left) := by
  unfold composeConsumer
  by_cases hstateful : spec.stateful = true
  · rw [if_neg (not_not_intro hstateful)]
    refine keeps_bind (keeps_check _) fun _ ↦
      keeps_bind (keeps_allocateGroup hP spec) fun group ↦ keeps_bind keeps_get fun b ↦ ?_
    cases b.context.shape with
    | train => exact keeps_bind (keeps_addTrainer hP spec group left) fun _ ↦ keeps_pure left
    | apply => exact keeps_addApplier hP spec group left
  · rw [if_pos hstateful]
    exact keeps_throw _

mutual

/-- Composing keeps what adding nodes, binding ports and taking groups keep. -/
theorem keeps_compose (hP : Builder.Stable P) (expression : Expression ε σ) (left : Track) :
    Keeps P (expression.compose left) := by
  cases expression with
  | mapper spec => exact keeps_composeMapper hP spec left
  | consumer spec => exact keeps_composeConsumer hP spec left
  | sequence first second =>
    rw [compose]
    exact keeps_bind (keeps_compose hP first left) fun middle ↦ keeps_compose hP second middle
  | parallel branches =>
    rw [compose]
    by_cases hempty : branches.isEmpty = true
    · rw [if_pos hempty]
      exact keeps_throw _
    · rw [if_neg hempty]
      exact keeps_bind (keeps_composeBranches hP branches left) fun _ ↦ keeps_pure _

theorem keeps_composeBranches (hP : Builder.Stable P) (branches : List (Expression ε σ))
    (left : Track) : Keeps P (composeBranches branches left) := by
  cases branches with
  | nil =>
    rw [composeBranches]
    exact keeps_pure _
  | cons branch rest =>
    rw [composeBranches]
    exact keeps_bind (keeps_compose hP branch left) fun track ↦
      keeps_bind (keeps_composeBranches hP rest left) fun ports ↦ keeps_pure _

end

end Expression

/-- Expanding keeps what composing and remembering keep. -/
theorem Operator.keeps_expand (hP : Builder.Stable P) (operator : Operator ε σ) (left : Track)
    (hremember : ∀ (context : Context) (right : Track) (b : Builder ε σ), P b →
      P { b with memo := (⟨operator.id, context, left⟩, right) :: b.memo }) :
    Keeps P (operator.expand left) := by
  refine keeps_bind keeps_get fun b ↦ keeps_bind keeps_get fun found ↦ ?_
  cases found.memo.lookup ⟨operator.id, b.context, left⟩ with
  | some track => exact keeps_pure track
  | none =>
    exact keeps_bind (operator.expression.keeps_compose hP left) fun right ↦
      keeps_bind (fun b' hb' ↦ hremember b.context right b' hb') fun _ ↦ keeps_pure right

end Dataflow
