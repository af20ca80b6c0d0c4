import Dataflow.Proofs.Ledgers

/-!
# Expanding by script

Composing an expression call by call on a builder that keeps books does to the builder what composing
it directly does (`Expression.follows_script`), and so does expanding an operator
(`Operator.follows_expand`). Parts of an expression are always found one level down, so they are
expanded anew, whatever identities they have.
-/

set_option autoImplicit false
set_option relaxedAutoImplicit false

namespace Dataflow

variable {ε σ α β : Type}

open Book

/-! ### Scripts one after another -/

/-- A script that goes on with another does what they do one after the other. -/
theorem Script.book_bind {α β : Type} (first : Script ε σ α) (second : α → Script ε σ β) :
    (first >>= second).book = first.book >>= fun a ↦ (second a).book := by
  change (first.bind second).book = _
  induction first with
  | done result => cases result <;> rfl
  | look next ih => simp only [Script.bind, book, ih, bind_assoc]
  | call operation next ih => simp only [Script.bind, book, ih, bind_assoc]
  | expand operator compose left next ihcompose ihnext =>
    simp only [Script.bind, book, ihnext, bind_assoc]
  | inContext context body next ihbody ihnext =>
    simp only [Script.bind, book, ihnext, bind_assoc]

/-- A call whose failure ends the script is a computation. -/
theorem Script.book_perform (operation : Operation ε σ α) :
    (perform operation).book = operation.book := by
  refine funext fun l ↦ ?_
  change run (operation.book.outcome >>= fun r ↦ result r) l = run operation.book l
  rw [run_outcome_bind, run_result]

/-- An expansion whose failure ends the script is a computation. -/
theorem Script.book_expand_done (operator : Nat) (compose : Track → Script ε σ Track)
    (left : Track) : (Script.expand operator compose left .done).book =
      Book.expand operator (fun left ↦ (compose left).book) left := by
  refine funext fun l ↦ ?_
  change run ((Book.expand operator (fun left ↦ (compose left).book) left).outcome >>=
    fun r ↦ result r) l = _
  rw [run_outcome_bind, run_result]
  rfl

namespace Book

variable {deep : Nat → Prop}

theorem follows_then {first : Script ε σ α} {second : α → Script ε σ β} {build : Build ε σ α}
    {next : α → Build ε σ β} (h : Follows deep first.book build)
    (hnext : ∀ a, Follows deep (second a).book (next a)) :
    Follows deep (first >>= second).book (build >>= next) := by
  rw [Script.book_bind]
  exact h.bind hnext

theorem follows_perform (operation : Operation ε σ α) :
    Follows deep (Script.perform operation).book operation.build := by
  rw [Script.book_perform]
  exact operation.follows

theorem follows_done (r : Except FlowError α) :
    Follows deep (Script.done r : Script ε σ α).book (Build.check r) :=
  follows_result r

/-- What a script sees of a ledger is the builder that is followed. -/
theorem follows_look {next : Builder ε σ → Script ε σ α} {next' : Builder ε σ → Build ε σ α}
    (h : ∀ b, Follows deep (next b).book (next' b)) :
    Follows deep (Script.look next).book (get >>= next') := by
  intro l hl hdepth
  exact h l.builder l hl hdepth

/-- One level down an expansion is what composing is there. -/
theorem follows_expand_nested {operator : Nat} {compose : Track → Script ε σ Track}
    {left : Track} {build : Build ε σ Track} (h : Follows (0 < ·) (compose left).book build) :
    Follows (0 < ·) (Script.expand operator compose left .done).book build := by
  rw [Script.book_expand_done]
  intro l hl hdepth
  obtain ⟨hrun, hafter, hlevel⟩ := h { l with depth := l.depth + 1 }
    ⟨hl.assembled, hl.bound_eq, hl.trainers_eq⟩ (Nat.succ_pos _)
  rw [run_expand, if_pos hdepth, run_nested]
  exact ⟨hrun, ⟨hafter.assembled, hafter.bound_eq, hafter.trainers_eq⟩,
    Nat.sub_eq_of_eq_add hlevel⟩

/-- What is done in another context is followed there. -/
theorem follows_inContext {context : Context} {body : Script ε σ α} {build : Build ε σ α}
    (h : Follows deep body.book build) :
    Follows deep (Script.inContext context body .done).book (Build.inContext context build) := by
  intro l hl hdepth
  obtain ⟨hrun, hafter, hlevel⟩ := h { l with builder := l.builder.enter context }
    ⟨hl.assembled.enter context, hl.bound_eq, hl.trainers_eq⟩ hdepth
  have hbuild : Build.run (Build.inContext context build) l.builder =
      ((Build.run build (l.builder.enter context)).1,
        (Build.run build (l.builder.enter context)).2.leave l.builder.context) := rfl
  change Build.run (Build.inContext context build) l.builder =
      ((run (Book.inContext context body.book) l).1,
        (run (Book.inContext context body.book) l).2.builder) ∧
    (run (Book.inContext context body.book) l).2.Consistent ∧
    (run (Book.inContext context body.book) l).2.depth = l.depth
  rw [run_inContext, hbuild, hrun]
  exact ⟨rfl, ⟨hafter.assembled.leave l.builder.context, hafter.bound_eq, hafter.trainers_eq⟩,
    hlevel⟩

end Book

/-! ### Expressions -/

namespace Expression

variable {deep : Nat → Prop}

theorem follows_scriptTrainer (spec : Spec ε σ) (group : GroupId) (left : Track) :
    Follows deep (scriptTrainer spec group left).book (addTrainer spec group left) :=
  follows_then (follows_done _) fun label ↦
    follows_then (follows_perform (.addNode .trainer spec (some group))) fun trainer ↦
      follows_then (follows_perform (.connectAll left.ports trainer)) fun _ ↦
        follows_perform (.connect label trainer spec.arity.inputs)

theorem follows_scriptApplier (spec : Spec ε σ) (group : GroupId) (left : Track) :
    Follows deep (scriptApplier spec group left).book (addApplier spec group left) :=
  follows_then (follows_perform (.addNode .applier spec (some group))) fun applier ↦
    follows_then (follows_perform (.connectAll left.ports applier)) fun _ ↦ follows_pure _

theorem follows_scriptMapper (spec : Spec ε σ) (left : Track) :
    Follows deep (scriptMapper spec left).book (composeMapper spec left) := by
  refine follows_then (follows_done _) fun _ ↦
    follows_then (follows_perform (.allocateGroup spec)) fun group ↦ follows_look fun b ↦ ?_
  by_cases htrain : b.context.shape = .train ∧ spec.stateful
  · rw [if_pos htrain, if_pos htrain]
    exact follows_then (follows_scriptTrainer spec group left) fun _ ↦
      follows_scriptApplier spec group left
  · rw [if_neg htrain, if_neg htrain]
    exact follows_scriptApplier spec group left

theorem follows_scriptConsumer (spec : Spec ε σ) (left : Track) :
    Follows deep (scriptConsumer spec left).book (composeConsumer spec left) := by
  unfold scriptConsumer composeConsumer
  by_cases hstateful : spec.stateful = true
  · rw [if_neg (not_not_intro hstateful), if_neg (not_not_intro hstateful)]
    refine follows_then (follows_done _) fun _ ↦
      follows_then (follows_perform (.allocateGroup spec)) fun group ↦ follows_look fun b ↦ ?_
    cases b.context.shape with
    | train =>
      exact follows_then (follows_scriptTrainer spec group left) fun _ ↦ follows_pure left
    | apply => exact follows_scriptApplier spec group left
  · rw [if_pos hstateful, if_pos hstateful]
    exact follows_done _

mutual

/-- One level down, composing by script is composing, whatever identities the parts have. -/
theorem follows_script (identity : Expression ε σ → Nat) (expression : Expression ε σ)
    (left : Track) :
    Follows (0 < ·) (script identity expression left).book (expression.compose left) := by
  cases expression with
  | mapper spec =>
    rw [script]
    exact follows_scriptMapper spec left
  | consumer spec =>
    rw [script]
    exact follows_scriptConsumer spec left
  | sequence first second =>
    rw [script, compose]
    exact follows_then (follows_expand_nested (follows_script identity first left))
      fun middle ↦ follows_expand_nested (follows_script identity second middle)
  | parallel branches =>
    rw [script, compose]
    by_cases hempty : branches.isEmpty = true
    · rw [if_pos hempty, if_pos hempty]
      exact follows_done _
    · rw [if_neg hempty, if_neg hempty]
      exact follows_then (follows_scriptBranches identity branches left)
        fun _ ↦ follows_pure _

theorem follows_scriptBranches (identity : Expression ε σ → Nat)
    (branches : List (Expression ε σ)) (left : Track) :
    Follows (0 < ·) (scriptBranches identity branches left).book
      (composeBranches branches left) := by
  cases branches with
  | nil =>
    rw [scriptBranches, composeBranches]
    exact follows_pure _
  | cons branch rest =>
    rw [scriptBranches, composeBranches]
    exact follows_then (follows_expand_nested (follows_script identity branch left))
      fun track ↦ follows_then (follows_scriptBranches identity rest left)
        fun ports ↦ follows_pure _

end

end Expression

/-- Expanding an operator looks for an earlier expansion, and remembers the one it makes. -/
theorem Operator.run_expand (operator : Operator ε σ) (left : Track) (b : Builder ε σ) :
    Build.run (operator.expand left) b =
      match b.memo.lookup ⟨operator.id, b.context, left⟩ with
      | some track => (.ok track, b)
      | none => match Build.run (operator.expression.compose left) b with
        | (.ok track, after) => (.ok track,
            { after with memo := (⟨operator.id, b.context, left⟩, track) :: after.memo })
        | (.error e, after) => (.error e, after) := by
  rw [Operator.expand, Build.run_bind, Build.run_get]
  simp only [Build.run_bind, Build.run_get]
  cases b.memo.lookup ⟨operator.id, b.context, left⟩ with
  | some track => rfl
  | none =>
    simp only [Build.run_bind]
    rcases Build.run (operator.expression.compose left) b with ⟨e | track, after⟩ <;> rfl

/-- Expanding an operator by script, outside of all expansions, is expanding it: an earlier
expansion is found, and otherwise the expression is composed one level down. -/
theorem Operator.follows_expand (operator : Operator ε σ) (identity : Expression ε σ → Nat)
    (left : Track) :
    Follows (· = 0)
      (Book.expand operator.id (fun left ↦ (operator.expression.script identity left).book) left)
      (operator.expand left) := by
  intro l hl hdepth
  obtain ⟨hrun, hafter, hlevel⟩ := operator.expression.follows_script identity left
    { l with depth := l.depth + 1 } ⟨hl.assembled, hl.bound_eq, hl.trainers_eq⟩ (Nat.succ_pos _)
  have hnested : (run (nested (operator.expression.script identity left).book) l).2.Consistent :=
    ⟨hafter.assembled, hafter.bound_eq, hafter.trainers_eq⟩
  rw [Book.run_expand, if_neg hdepth.not_gt, operator.run_expand]
  cases l.builder.memo.lookup ⟨operator.id, l.builder.context, left⟩ with
  | some track => exact ⟨rfl, hl, rfl⟩
  | none =>
    rw [hrun]
    rw [run_nested] at hnested ⊢
    rcases hscript : run (operator.expression.script identity left).book
      { l with depth := l.depth + 1 } with ⟨e | track, after⟩
    · rw [hscript] at hnested hlevel
      exact ⟨rfl, hnested, Nat.sub_eq_of_eq_add hlevel⟩
    · rw [hscript] at hnested hlevel
      exact ⟨rfl, ⟨hnested.assembled.remember _, hnested.bound_eq, hnested.trainers_eq⟩,
        Nat.sub_eq_of_eq_add hlevel⟩

end Dataflow
