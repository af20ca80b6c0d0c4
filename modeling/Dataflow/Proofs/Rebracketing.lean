import Dataflow.Proofs.Expansion

/-!
# Bracketing does not matter

How the parts of a pipeline are bracketed has no effect. `Expression.Rebracketed` relates
expressions that differ in bracketing only: a sequence may be bracketed to the left or to the right,
parallel branches that are a branch of parallel branches may stand among them, and a single branch
may stand alone, anywhere in an expression.

Expressions so related compose alike on every track and every builder, whether they succeed or not
(`Expression.Rebracketed.compose_eq`). So expanding one or the other gives the same track or the
same error, and leaves the same builder except for what it remembers of expansions; and the graphs
of a workflow are the same (`Expression.rebracketed_expands_alike`).
-/

set_option autoImplicit false
set_option relaxedAutoImplicit false

namespace Dataflow

variable {ε σ α β : Type}

namespace Expression

open Build

/-- Expressions that differ in how their parts are bracketed. -/
inductive Rebracketed : Expression ε σ → Expression ε σ → Prop
  /-- A sequence of three may be bracketed to the left or to the right. -/
  | assoc (first second third : Expression ε σ) :
    Rebracketed (.sequence (.sequence first second) third)
      (.sequence first (.sequence second third))
  /-- Branches of a branch may stand among the branches. -/
  | splice (front inner back : List (Expression ε σ)) (hinner : inner ≠ []) :
    Rebracketed (.parallel (front ++ .parallel inner :: back)) (.parallel (front ++ inner ++ back))
  /-- A single branch may stand alone. -/
  | single (branch : Expression ε σ) : Rebracketed (.parallel [branch]) branch
  | sequence {first second first' second' : Expression ε σ} (hfirst : Rebracketed first first')
      (hsecond : Rebracketed second second') :
    Rebracketed (.sequence first second) (.sequence first' second')
  | branch (front back : List (Expression ε σ)) {branch branch' : Expression ε σ}
      (h : Rebracketed branch branch') :
    Rebracketed (.parallel (front ++ branch :: back)) (.parallel (front ++ branch' :: back))
  | refl (expression : Expression ε σ) : Rebracketed expression expression
  | symm {expression other : Expression ε σ} (h : Rebracketed expression other) :
    Rebracketed other expression
  | trans {expression other third : Expression ε σ} (h : Rebracketed expression other)
      (h' : Rebracketed other third) : Rebracketed expression third

/-! ### Composing alike -/

theorem compose_sequence (first second : Expression ε σ) (left : Track) :
    (sequence first second).compose left = first.compose left >>= second.compose := by
  rw [compose]

/-- Branches, if there are any, give the ports of all of them. -/
theorem compose_parallel_of_ne_nil {branches : List (Expression ε σ)} (h : branches ≠ [])
    (left : Track) :
    (parallel branches).compose left =
      composeBranches branches left >>= fun ports ↦ pure ⟨ports, left.label⟩ := by
  have hempty : ¬ branches.isEmpty = true := by simpa using h
  rw [compose, if_neg hempty]

theorem composeBranches_append (front back : List (Expression ε σ)) (left : Track) :
    composeBranches (front ++ back) left =
      composeBranches front left >>= fun ports ↦
        composeBranches back left >>= fun others ↦ pure (ports ++ others) := by
  induction front with
  | nil => simp [composeBranches]
  | cons branch rest ih =>
    have hassoc : ∀ (ports more : List PortRef),
        (fun others ↦ ports ++ (more ++ others)) = HAppend.hAppend (ports ++ more) :=
      fun ports more ↦ funext fun others ↦ (List.append_assoc ports more others).symm
    simp [composeBranches, ih, hassoc]

/-- A composition passes the label on. -/
theorem compose_bind_label (expression : Expression ε σ) (left : Track) :
    (expression.compose left >>= fun track ↦ pure ⟨track.ports, left.label⟩) =
      expression.compose left := by
  refine funext fun b ↦ ?_
  change run _ b = run _ b
  rw [run_bind]
  rcases hrun : run (expression.compose left) b with ⟨e | right, last⟩
  · rfl
  · obtain ⟨hright, -, -⟩ := expression.composes left right b last hrun
    have hlabel : right.label = left.label := by
      rw [hright]
      exact expression.label_layout _ _ _ _ left
    rw [← hlabel]
    rfl

/-- A single branch gives what it gives alone. -/
theorem compose_parallel_singleton (branch : Expression ε σ) (left : Track) :
    (parallel [branch]).compose left = branch.compose left := by
  rw [compose_parallel_of_ne_nil (List.cons_ne_nil _ _)]
  simp only [composeBranches, pure_bind, bind_assoc, List.append_nil]
  exact branch.compose_bind_label left

/-- Branches of a branch give their ports where the branch stands. -/
theorem composeBranches_splice {inner : List (Expression ε σ)} (hinner : inner ≠ [])
    (back : List (Expression ε σ)) (left : Track) :
    composeBranches (.parallel inner :: back) left = composeBranches (inner ++ back) left := by
  rw [composeBranches, compose_parallel_of_ne_nil hinner, composeBranches_append]
  simp only [bind_assoc, pure_bind]

/-- What branches compose to depends on what each of them composes to. -/
theorem composeBranches_congr (front back : List (Expression ε σ)) {branch branch' : Expression ε σ}
    (h : branch.compose = branch'.compose) (left : Track) :
    composeBranches (front ++ branch :: back) left =
      composeBranches (front ++ branch' :: back) left := by
  rw [composeBranches_append, composeBranches_append, composeBranches, composeBranches, h]

/-- Expressions that differ in bracketing compose alike on every track and builder. -/
theorem Rebracketed.compose_eq {expression other : Expression ε σ}
    (h : expression.Rebracketed other) : expression.compose = other.compose := by
  induction h with
  | assoc first second third =>
    funext left
    simp only [compose_sequence, bind_assoc]
    exact bind_congr fun middle ↦ (compose_sequence second third middle).symm
  | splice front inner back hinner =>
    funext left
    have hsome : front ++ inner ++ back ≠ [] := by simp [hinner]
    rw [compose_parallel_of_ne_nil (by simp), compose_parallel_of_ne_nil hsome,
      composeBranches_append, composeBranches_splice hinner, List.append_assoc,
      ← composeBranches_append]
  | single branch => exact funext branch.compose_parallel_singleton
  | sequence _ _ ihfirst ihsecond =>
    funext left
    rw [compose_sequence, compose_sequence, ihfirst, ihsecond]
  | branch front back _ ih =>
    funext left
    rw [compose_parallel_of_ne_nil (by simp), compose_parallel_of_ne_nil (by simp),
      composeBranches_congr front back ih]
  | refl => rfl
  | symm _ ih => exact ih.symm
  | trans _ _ ih ih' => exact ih.trans ih'

end Expression

/-! ### Expanding under another identity -/

/-- The same expansions, remembered under another identity. -/
def rekeyed (id : Nat) (memo : List (ExpansionKey × Track)) : List (ExpansionKey × Track) :=
  memo.map fun (key, track) ↦ ({ key with operator := id }, track)

/-- What is remembered of one operator is found under the other identity. -/
theorem lookup_rekeyed {id : Nat} (id' : Nat) {memo : List (ExpansionKey × Track)}
    (hown : ∀ entry ∈ memo, entry.1.operator = id) (context : Context) (left : Track) :
    (rekeyed id' memo).lookup ⟨id', context, left⟩ = memo.lookup ⟨id, context, left⟩ := by
  induction memo with
  | nil => rfl
  | cons entry rest ih =>
    obtain ⟨⟨operator, other, track⟩, found⟩ := entry
    obtain rfl : operator = id := hown _ List.mem_cons_self
    have hrest := ih fun entry hentry ↦ hown entry (List.mem_cons_of_mem _ hentry)
    rw [rekeyed, List.map_cons, List.lookup_cons, List.lookup_cons]
    by_cases hsame : context = other ∧ left = track
    · obtain ⟨rfl, rfl⟩ := hsame
      simp
    · have hne (id : Nat) : (ExpansionKey.mk id context left == ⟨id, other, track⟩) = false := by
        rw [beq_eq_false_iff_ne]
        intro heq
        exact hsame ⟨(ExpansionKey.mk.inj heq).2.1, (ExpansionKey.mk.inj heq).2.2⟩
      rw [hne, hne]
      exact hrest

/-- Two builders are akin if they differ only in that one remembers expansions of one operator and
the other remembers the same expansions of another operator. -/
structure Builder.Akin (id id' : Nat) (b b' : Builder ε σ) : Prop where
  own : ∀ entry ∈ b.memo, entry.1.operator = id
  same : b' = { b with memo := rekeyed id' b.memo }

namespace Build

variable {id id' : Nat}

/-- From akin builders two computations give the same and lead to akin builders. -/
def Akin (id id' : Nat) (body body' : Build ε σ α) : Prop :=
  ∀ b b' : Builder ε σ, Builder.Akin id id' b b' →
    (run body b).1 = (run body' b').1 ∧ Builder.Akin id id' (run body b).2 (run body' b').2

theorem akin_pure (a : α) : Akin id id' (pure a : Build ε σ α) (pure a) :=
  fun _ _ h ↦ ⟨rfl, h⟩

theorem akin_throw (e : FlowError) : Akin id id' (throw e : Build ε σ α) (throw e) :=
  fun _ _ h ↦ ⟨rfl, h⟩

theorem akin_bind {body body' : Build ε σ α} {next next' : α → Build ε σ β}
    (h : Akin id id' body body') (hnext : ∀ a, Akin id id' (next a) (next' a)) :
    Akin id id' (body >>= next) (body' >>= next') := by
  intro b b' hb
  obtain ⟨hsame, hakin⟩ := h b b' hb
  rw [run_bind, run_bind]
  rcases hrun : run body b with ⟨outcome, after⟩
  rcases hrun' : run body' b' with ⟨outcome', after'⟩
  rw [hrun, hrun'] at hsame hakin
  obtain rfl : outcome = outcome' := hsame
  cases outcome with
  | error e => exact ⟨rfl, hakin⟩
  | ok a => exact hnext a after after' hakin

/-- What follows a look at the builder, if it looks at nothing in which akin builders differ. -/
theorem akin_get_bind {next next' : Builder ε σ → Build ε σ α}
    (h : ∀ b b', Builder.Akin id id' b b' → Akin id id' (next b) (next' b')) :
    Akin id id' (get >>= next) (get >>= next') := by
  intro b b' hb
  rw [run_bind, run_bind]
  exact h b b' hb b b' hb

theorem akin_check (result : Except FlowError α) :
    Akin id id' (check result : Build ε σ α) (check result) := by
  cases result with
  | ok a => exact akin_pure a
  | error e => exact akin_throw e

theorem akin_addNode (kind : NodeKind) (spec : Spec ε σ) (group : Option GroupId) :
    Akin id id' (addNode kind spec group) (addNode kind spec group) := by
  rintro b _ ⟨hown, rfl⟩
  exact ⟨rfl, hown, rfl⟩

theorem akin_allocateGroup (spec : Spec ε σ) :
    Akin id id' (allocateGroup spec) (allocateGroup spec) := by
  rintro b _ ⟨hown, rfl⟩
  exact ⟨rfl, hown, rfl⟩

/-- Binding a port looks at nodes and edges. -/
theorem connect_setMemo (b : Builder ε σ) (memo : List (ExpansionKey × Track)) (tail : PortRef)
    (head : NodeId) (input : Nat) :
    ({ b with memo } : Builder ε σ).connect tail head input =
      (b.connect tail head input).map fun after ↦ { after with memo } := by
  unfold Builder.connect Builder.node
  cases b.nodes[head]? with
  | none => rfl
  | some target =>
    by_cases hinput : target.arity.inputs ≤ input
    · simp only [bind, Except.bind, hinput, if_true]
      rfl
    · cases b.nodes[tail.node]? with
      | none =>
        simp only [bind, Except.bind, hinput, if_false]
        rfl
      | some source =>
        by_cases hport : source.arity.outputs ≤ tail.port
        · simp only [bind, Except.bind, hinput, hport, if_false, if_true]
          rfl
        · simp only [bind, Except.bind, hinput, hport, if_false]
          cases boundPort? b.edges head input <;> rfl

theorem akin_connect (tail : PortRef) (head : NodeId) (input : Nat) :
    Akin id id' (connect tail head input : Build ε σ Unit) (connect tail head input) := by
  rintro b _ ⟨hown, rfl⟩
  unfold connect attempt
  rw [run_bind, run_bind, run_get, run_get]
  dsimp only
  rw [connect_setMemo b (rekeyed id' b.memo)]
  rcases hconnect : b.connect tail head input with e | after
  · exact ⟨rfl, hown, rfl⟩
  · obtain ⟨-, -, -, rfl⟩ := Builder.connect_eq_ok.mp hconnect
    exact ⟨rfl, hown, rfl⟩

theorem akin_connectAll (ports : List PortRef) (head : NodeId) :
    Akin id id' (connectAll ports head : Build ε σ Unit) (connectAll ports head) := by
  suffices ∀ input, Akin id id' (connectFrom head ports input : Build ε σ Unit)
      (connectFrom head ports input) from this 0
  induction ports with
  | nil => exact fun _ ↦ akin_pure ()
  | cons port rest ih =>
    exact fun input ↦ akin_bind (akin_connect port head input) fun _ ↦ ih (input + 1)

theorem akin_inContext (context : Context) {body body' : Build ε σ α}
    (h : Akin id id' body body') :
    Akin id id' (inContext context body) (inContext context body') := by
  rintro b _ ⟨hown, rfl⟩
  obtain ⟨hsame, hown', hsame'⟩ := h (b.enter context) _ ⟨hown, rfl⟩
  exact ⟨hsame, hown', congrArg (Builder.leave · b.context) hsame'⟩

end Build

namespace Expression

open Build

variable {id id' : Nat}

theorem akin_addTrainer (spec : Spec ε σ) (group : GroupId) (left : Track) :
    Akin id id' (addTrainer spec group left) (addTrainer spec group left) :=
  akin_bind (akin_check _) fun label ↦ akin_bind (akin_addNode .trainer spec _) fun trainer ↦
    akin_bind (akin_connectAll left.ports trainer) fun _ ↦ akin_connect label trainer _

theorem akin_addApplier (spec : Spec ε σ) (group : GroupId) (left : Track) :
    Akin id id' (addApplier spec group left) (addApplier spec group left) :=
  akin_bind (akin_addNode .applier spec _) fun applier ↦
    akin_bind (akin_connectAll left.ports applier) fun _ ↦ akin_pure _

theorem akin_composeBranches {branches : List (Expression ε σ)}
    (h : ∀ branch ∈ branches, ∀ left, Akin id id' (branch.compose left) (branch.compose left))
    (left : Track) :
    Akin id id' (composeBranches branches left) (composeBranches branches left) := by
  induction branches with
  | nil => exact akin_pure []
  | cons branch rest ih =>
    refine akin_bind (h branch List.mem_cons_self left) fun track ↦ ?_
    refine akin_bind (ih fun other hother ↦ h other (List.mem_cons_of_mem _ hother)) fun ports ↦ ?_
    exact akin_pure _

/-- Composing does not use the memo. -/
theorem akin_compose (expression : Expression ε σ) (left : Track) :
    Akin id id' (expression.compose left) (expression.compose left) := by
  induction expression using Expression.induction generalizing left with
  | mapper spec =>
    refine akin_bind (akin_check _) fun _ ↦ akin_bind (akin_allocateGroup spec) fun group ↦ ?_
    refine akin_get_bind ?_
    rintro b _ ⟨-, rfl⟩
    by_cases htrain : b.context.shape = .train ∧ spec.stateful
    · simp only [htrain, and_self, if_true]
      exact akin_bind (akin_addTrainer spec group left) fun _ ↦ akin_addApplier spec group left
    · simp only [htrain, if_false]
      exact akin_addApplier spec group left
  | consumer spec =>
    rw [compose, composeConsumer]
    by_cases hstateful : spec.stateful = true
    · simp only [hstateful, not_true_eq_false, if_false]
      refine akin_bind (akin_check _) fun _ ↦ akin_bind (akin_allocateGroup spec) fun group ↦ ?_
      refine akin_get_bind ?_
      rintro b _ ⟨-, rfl⟩
      cases hshape : b.context.shape with
      | train => exact akin_bind (akin_addTrainer spec group left) fun _ ↦ akin_pure left
      | apply => exact akin_addApplier spec group left
    · simp only [hstateful]
      exact akin_throw _
  | sequence first second ihfirst ihsecond =>
    rw [compose_sequence]
    exact akin_bind (ihfirst left) ihsecond
  | parallel branches ih =>
    by_cases hbranches : branches = []
    · subst hbranches
      exact akin_throw _
    · rw [compose_parallel_of_ne_nil hbranches]
      exact akin_bind (akin_composeBranches ih left) fun _ ↦ akin_pure _

/-- Akin builders remember an expansion under the two identities. -/
theorem akin_remember (context : Context) (left right : Track) :
    Akin id id'
      (modify fun b ↦ { b with memo := (⟨id, context, left⟩, right) :: b.memo } : Build ε σ PUnit)
      (modify fun b ↦ { b with memo := (⟨id', context, left⟩, right) :: b.memo }) := by
  rintro b _ ⟨hown, rfl⟩
  refine ⟨rfl, fun entry hentry ↦ ?_, rfl⟩
  rcases List.mem_cons.mp hentry with rfl | hentry
  · rfl
  · exact hown entry hentry

/-- Under two identities, expressions that compose alike expand alike. -/
theorem akin_expand {expression other : Expression ε σ} (h : expression.compose = other.compose)
    (left : Track) :
    Akin id id' (Operator.expand ⟨id, expression⟩ left) (Operator.expand ⟨id', other⟩ left) := by
  refine akin_get_bind ?_
  rintro b _ ⟨hown, rfl⟩
  refine akin_get_bind ?_
  rintro c _ ⟨hown', rfl⟩
  simp only [lookup_rekeyed id' hown']
  cases c.memo.lookup ⟨id, b.context, left⟩ with
  | some track => exact akin_pure track
  | none =>
    refine akin_bind ?_ fun track ↦ akin_bind (akin_remember _ left track) fun _ ↦ akin_pure track
    rw [← h]
    exact expression.akin_compose left

end Expression

/-! ### Graphs of a workflow -/

namespace Workflow

open Build

variable {id id' : Nat}

section Akin

variable {w w' : Workflow ε σ}

/-- Two workflows whose pipelines expand alike under their identities, and which do not differ
otherwise. -/
structure Akin (w w' : Workflow ε σ) : Prop where
  source : w'.source = w.source
  evaluation : w'.evaluation = w.evaluation
  pipeline : ∀ left, Build.Akin w.pipeline.id w'.pipeline.id (w.pipeline.expand left)
    (w'.pipeline.expand left)

theorem akin_addFold (h : w.Akin w') (evaluation : Evaluation ε σ) (head : Track)
    (label : PortRef) (fold : Nat) :
    Build.Akin w.pipeline.id w'.pipeline.id (w.addFold evaluation head label fold)
      (w'.addFold evaluation head label fold) := by
  unfold addFold
  refine akin_bind (akin_addNode .applier _ none) fun splitter ↦ ?_
  refine akin_bind (akin_connectAll head.ports splitter) fun _ ↦ ?_
  refine akin_bind (akin_connect label splitter head.width) fun _ ↦ ?_
  refine akin_bind (akin_inContext _ (h.pipeline _)) fun _ ↦ ?_
  refine akin_bind (akin_inContext _ (h.pipeline _)) fun predictions ↦ ?_
  refine akin_bind (akin_check _) fun _ ↦ ?_
  refine akin_bind (akin_addNode .applier _ none) fun metric ↦ ?_
  refine akin_bind (akin_connectAll predictions.ports metric) fun _ ↦ ?_
  exact akin_bind (akin_connect _ metric 1) fun _ ↦ akin_pure _

theorem akin_addFolds (h : w.Akin w') (evaluation : Evaluation ε σ) (head : Track)
    (label : PortRef) (folds : List Nat) :
    Build.Akin w.pipeline.id w'.pipeline.id (w.addFolds evaluation head label folds)
      (w'.addFolds evaluation head label folds) := by
  induction folds with
  | nil => exact akin_pure []
  | cons fold rest ih =>
    exact akin_bind (akin_addFold h evaluation head label fold) fun metric ↦
      akin_bind ih fun metrics ↦ akin_pure _

variable [Inhabited σ]

theorem akin_labelled (h : w.Akin w') (head : Track) :
    Build.Akin id id' (w.labelled head) (w'.labelled head) := by
  unfold labelled
  rw [h.source]
  cases w.source.label with
  | none => exact akin_pure head
  | some label =>
    exact akin_bind (akin_addNode .applier _ none) fun extract ↦
      akin_bind (akin_connectAll head.ports extract) fun _ ↦ akin_pure _

theorem akin_stripped (h : w.Akin w') (head : Track) :
    Build.Akin id id' (w.stripped head) (w'.stripped head) := by
  unfold stripped
  rw [h.source]
  cases w.source.label with
  | none => exact akin_pure head
  | some label =>
    exact akin_bind (akin_addNode .applier _ none) fun strip ↦
      akin_bind (akin_connectAll head.ports strip) fun _ ↦ akin_pure _

theorem akin_evaluated (h : w.Akin w') (head : Track) :
    Build.Akin w.pipeline.id w'.pipeline.id (w.evaluated head) (w'.evaluated head) := by
  unfold evaluated
  rw [h.evaluation]
  cases w.evaluation with
  | none => exact akin_throw _
  | some evaluation =>
    refine akin_bind (akin_labelled h head) fun head ↦ ?_
    refine akin_bind (akin_check _) fun label ↦ ?_
    by_cases hfolds : evaluation.folds = 0
    · simp only [hfolds, if_true]
      exact akin_throw _
    · simp only [hfolds, if_false]
      refine akin_bind (akin_addFolds h evaluation head label _) fun metrics ↦ ?_
      refine akin_bind (akin_addNode .applier _ none) fun aggregator ↦ ?_
      exact akin_bind (akin_connectAll metrics aggregator) fun _ ↦ akin_pure _

theorem akin_middle (h : w.Akin w') (mode : Mode) (head : Track) :
    Build.Akin w.pipeline.id w'.pipeline.id (w.middle mode head) (w'.middle mode head) := by
  cases mode with
  | train => exact akin_bind (akin_labelled h head) fun head ↦ akin_inContext _ (h.pipeline head)
  | apply => exact akin_bind (akin_stripped h head) fun head ↦ akin_inContext _ (h.pipeline head)
  | eval => exact akin_evaluated h head

theorem akin_expand (h : w.Akin w') (feed : Feed ε σ) (sinks : SinkProvider ε σ) :
    Build.Akin w.pipeline.id w'.pipeline.id (w.expand feed sinks) (w'.expand feed sinks) := by
  refine akin_get_bind ?_
  rintro b _ ⟨-, rfl⟩
  cases b.expansion with
  | some expansion => exact akin_pure expansion
  | none =>
    refine akin_get_bind ?_
    rintro c _ ⟨-, rfl⟩
    rw [h.source]
    refine akin_bind (akin_check _) fun producer ↦ ?_
    refine akin_bind (akin_addNode .source producer none) fun source ↦ ?_
    refine akin_bind (akin_middle h c.mode _) fun tail ↦ ?_
    refine akin_bind (akin_check _) fun _ ↦ ?_
    refine akin_bind (akin_addNode .sink _ none) fun sink ↦ ?_
    refine akin_bind (akin_connectAll tail.ports sink) fun _ ↦ ?_
    refine akin_bind ?_ fun _ ↦ akin_pure _
    rintro d _ ⟨hown, rfl⟩
    exact ⟨rfl, hown, rfl⟩

/-- Graphs hold nothing of what a builder remembers of expansions. -/
theorem Akin.graph_eq (h : w.Akin w') (feed : Feed ε σ) (sinks : SinkProvider ε σ) (mode : Mode) :
    w.graph feed sinks mode = w'.graph feed sinks mode := by
  have hnew : Builder.Akin w.pipeline.id w'.pipeline.id (Builder.new mode : Builder ε σ)
      (Builder.new mode) := ⟨fun entry hentry ↦ (nomatch hentry), rfl⟩
  obtain ⟨hsame, -, hbuilt⟩ := akin_expand h feed sinks _ _ hnew
  unfold graph
  rcases hrun : run (w.expand feed sinks) (Builder.new mode) with ⟨outcome, last⟩
  rcases hrun' : run (w'.expand feed sinks) (Builder.new mode) with ⟨outcome', last'⟩
  rw [hrun, hrun'] at hsame hbuilt
  obtain rfl : outcome = outcome' := hsame
  obtain rfl : last' = _ := hbuilt
  cases outcome <;> rfl

end Akin

end Workflow

/-! ### The main theorem -/

namespace Expression

open Build

variable [Inhabited σ]

/-- Bracketing does not matter. On a builder that remembers neither, expressions that differ in
bracketing expand to the same track or for the same reason to none, and leave the same builder,
except for what it remembers of expansions: the same nodes, edges, groups and ordinals, and so the
same trainers and bound ports. And workflows with such pipelines have the same graphs in all
modes. -/
theorem rebracketed_expands_alike {expression other : Expression ε σ}
    (h : expression.Rebracketed other) :
    (∀ (id id' : Nat) (left : Track) (b : Builder ε σ),
      b.memo.lookup ⟨id, b.context, left⟩ = none → b.memo.lookup ⟨id', b.context, left⟩ = none →
        (run (Operator.expand ⟨id, expression⟩ left) b).1 =
            (run (Operator.expand ⟨id', other⟩ left) b).1 ∧
          ({ (run (Operator.expand ⟨id, expression⟩ left) b).2 with memo := [] } : Builder ε σ) =
            { (run (Operator.expand ⟨id', other⟩ left) b).2 with memo := [] }) ∧
      ∀ (id id' : Nat) (source : Source) (evaluation : Option (Evaluation ε σ)) (feed : Feed ε σ)
        (sinks : SinkProvider ε σ) (mode : Mode),
        Workflow.graph ⟨source, ⟨id, expression⟩, evaluation⟩ feed sinks mode =
          Workflow.graph ⟨source, ⟨id', other⟩, evaluation⟩ feed sinks mode := by
  refine ⟨fun id id' left b hnew hnew' ↦ ?_, fun id id' source evaluation feed sinks mode ↦ ?_⟩
  · rw [Operator.run_expand_of_new _ hnew, Operator.run_expand_of_new _ hnew', h.compose_eq]
    rcases run (other.compose left) b with ⟨e | right, last⟩ <;> exact ⟨rfl, rfl⟩
  · have hakin : Workflow.Akin (⟨source, ⟨id, expression⟩, evaluation⟩ : Workflow ε σ)
        ⟨source, ⟨id', other⟩, evaluation⟩ := ⟨rfl, rfl, akin_expand h.compose_eq⟩
    exact hakin.graph_eq feed sinks mode

/-- An actor of a name that hands on its first input. -/
def relay (name : String) : Expression Unit Unit :=
  .mapper { name, behavior := .pure fun inputs ↦ Halt.lift (Builtin.firstInput inputs) }

/-- Five relays and the join of the last three, bracketed where it can be. -/
def nested : Expression Unit Unit :=
  .sequence
    (.sequence (.sequence (relay "a") (.parallel [relay "b"]))
      (.parallel [.parallel [relay "c", relay "d"], relay "e"]))
    (.mapper (Builtin.concat 3))

/-- The same with as few brackets as there can be. -/
def flat : Expression Unit Unit :=
  .sequence (relay "a")
    (.sequence (relay "b")
      (.sequence (.parallel [relay "c", relay "d", relay "e"]) (.mapper (Builtin.concat 3))))

theorem rebracketed_nested_flat : nested.Rebracketed flat := by
  have hsingle : Rebracketed (.sequence (relay "a") (.parallel [relay "b"]))
      (.sequence (relay "a") (relay "b")) := .sequence (.refl _) (.single _)
  have hsplice : Rebracketed (.parallel [.parallel [relay "c", relay "d"], relay "e"])
      (.parallel [relay "c", relay "d", relay "e"]) :=
    .splice [] [relay "c", relay "d"] [relay "e"] (List.cons_ne_nil _ _)
  have hparts := Rebracketed.sequence (Rebracketed.sequence hsingle hsplice)
    (.refl (.mapper (Builtin.concat 3)))
  exact (hparts.trans (.assoc _ _ _)).trans (.assoc _ _ _)

theorem rebracketed_expands_alike_nested :
    let b : Builder Unit Unit := (Builder.new .train).addNode .source Builtin.collector none
    let source : Source := ⟨"rows", none⟩
    let feed : Feed Unit Unit := .ofTables [("rows", ⟨["x"], []⟩)]
    (run (Operator.expand ⟨0, nested⟩ ⟨[⟨0, 0⟩], none⟩) b).1.isOk = true ∧
      (run (Operator.expand ⟨0, nested⟩ ⟨[⟨0, 0⟩], none⟩) b).1 =
        (run (Operator.expand ⟨1, flat⟩ ⟨[⟨0, 0⟩], none⟩) b).1 ∧
      (Workflow.graph ⟨source, ⟨0, nested⟩, none⟩ feed .collecting .train).isOk = true ∧
      Workflow.graph ⟨source, ⟨0, nested⟩, none⟩ feed .collecting .train =
        Workflow.graph ⟨source, ⟨1, flat⟩, none⟩ feed .collecting .train := by
  intro b source feed
  obtain ⟨hexpands, hgraphs⟩ := rebracketed_expands_alike rebracketed_nested_flat
  refine ⟨by decide +kernel, (hexpands 0 1 ⟨[⟨0, 0⟩], none⟩ b rfl rfl).1, by decide +kernel, ?_⟩
  exact hgraphs 0 1 source none feed .collecting .train

end Expression

end Dataflow
