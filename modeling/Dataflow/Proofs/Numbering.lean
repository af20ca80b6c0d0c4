import Dataflow.Proofs.Binding
import Dataflow.Proofs.Ledgers

/-!
# How groups are numbered

A script enters contexts and takes groups in them, directly or by expanding operators; what it does
of the two, in order, are its `moves`. A group is numbered by how many groups were taken in its
context since the context was last entered (`Script.numbers`): each operation moves the ordinals as
`countIn` does, so a script does too.

While a context is not entered again, its ordinals go up, so no group is taken twice. Entering it
again starts from zero, whatever was taken in it before. Then the group that was taken first is
handed out again as soon as as many groups have been taken, and the nodes of both are bound to one
instance (`Script.handed_again_iff`). An expansion that is found again takes nothing, so what comes
after it may get the group that it has.
-/

set_option autoImplicit false
set_option relaxedAutoImplicit false

namespace Dataflow

variable {ε σ α : Type}

open Book

/-! ### Moves -/

/-- A move in the numbering of groups: a context is entered, or a group is taken in one. -/
inductive Move
  | enter (context : Context)
  | take (context : Context) (group : GroupId)
  deriving DecidableEq

/-- What a move does to the number of groups taken in a context since it was last entered. -/
def Move.count (context : Context) (n : Nat) : Move → Nat
  | enter entered => if context = entered then 0 else n
  | take taken _ => if context = taken then n + 1 else n

/-- The number of groups taken in a context since it was last entered, if `n` had been taken before
these moves. -/
def countIn (context : Context) (n : Nat) (moves : List Move) : Nat :=
  moves.foldl (Move.count context) n

/-- The group that an operation takes, if it takes one. -/
def Operation.moves (l : Ledger ε σ) : Operation ε σ α → List Move
  | allocateGroup spec =>
    match (run (Book.allocateGroup spec) l).1 with
    | .ok group => [.take l.builder.context group]
    | .error _ => []
  | _ => []

/-- Whether expanding an operator finds an earlier expansion. -/
def Ledger.remembers (l : Ledger ε σ) (operator : Nat) (left : Track) : Bool :=
  l.depth == 0 && (l.builder.memo.lookup ⟨operator, l.builder.context, left⟩).isSome

namespace Script

/-- The moves of a script, in order. An expansion that is found again has none. -/
def moves {α : Type} : Script ε σ α → Ledger ε σ → List Move
  | done _, _ => []
  | look next, l => (next l.builder).moves l
  | call operation next, l =>
    let after := run operation.book l
    operation.moves l ++ (next after.1).moves after.2
  | expand operator compose left next, l =>
    let after := run (Book.expand operator (fun left ↦ (compose left).book) left) l
    (if l.remembers operator left then [] else (compose left).moves { l with depth := l.depth + 1 })
      ++ (next after.1).moves after.2
  | inContext context body next, l =>
    let after := run (Book.inContext context body.book) l
    .enter context :: body.moves { l with builder := l.builder.enter context }
      ++ (next after.1).moves after.2

end Script

/-! ### Counting -/

theorem countIn_append (context : Context) (n : Nat) (front back : List Move) :
    countIn context n (front ++ back) = countIn context (countIn context n front) back :=
  List.foldl_append

theorem countIn_take (context : Context) (n : Nat) (group : GroupId) (rest : List Move) :
    countIn context n (.take context group :: rest) = countIn context (n + 1) rest := by
  show countIn context (if context = context then n + 1 else n) rest = _
  rw [if_pos rfl]

/-- Entering a context leaves nothing of what was counted before. -/
theorem countIn_enter (context : Context) (n : Nat) (rest : List Move) :
    countIn context n (.enter context :: rest) = countIn context 0 rest := by
  show countIn context (if context = context then 0 else n) rest = _
  rw [if_pos rfl]

/-- While a context is not entered, the number of its groups goes up. -/
theorem le_countIn {context : Context} {moves : List Move} (h : .enter context ∉ moves) (n : Nat) :
    n ≤ countIn context n moves := by
  induction moves generalizing n with
  | nil => exact Nat.le_refl n
  | cons move rest ih =>
    obtain ⟨hmove, hrest⟩ := not_or.mp (mt List.mem_cons.mpr h)
    refine Nat.le_trans ?_ (ih hrest (move.count context n))
    cases move with
    | enter entered =>
      have hother : context ≠ entered := fun heq ↦ hmove (congrArg Move.enter heq)
      show n ≤ if context = entered then 0 else n
      rw [if_neg hother]
    | take taken group =>
      show n ≤ if context = taken then n + 1 else n
      split_ifs <;> omega

theorem countIn_of_mem {context : Context} {moves : List Move} (h : .enter context ∈ moves)
    (n : Nat) : countIn context n moves = countIn context 0 moves := by
  obtain ⟨front, back, rfl⟩ := List.append_of_mem h
  rw [countIn_append, countIn_enter, countIn_append, countIn_enter]

/-! ### What moves number -/

/-- Each group that is taken is numbered by the count in its context, and so the ordinals go from
`before` to `after`. -/
structure Numbers (before : Context → Nat) (moves : List Move) (after : Context → Nat) : Prop where
  group_eq : ∀ front context group back, moves = front ++ .take context group :: back →
    group = ⟨context.scope, countIn context (before context) front⟩
  ordinal_eq : ∀ context, after context = countIn context (before context) moves

namespace Numbers

variable {before middle after : Context → Nat} {moves more : List Move}

theorem refl (before : Context → Nat) : Numbers before [] before where
  group_eq front _ _ _ h := by
    cases front <;> cases h
  ordinal_eq _ := rfl

theorem trans (h : Numbers before moves middle) (hmore : Numbers middle more after) :
    Numbers before (moves ++ more) after where
  group_eq front context group back heq := by
    -- the group is taken among the first moves, or among the others with the first in front
    rcases List.append_eq_append_iff.mp heq with ⟨rest, rfl, hrest⟩ | ⟨rest, hmoves, hrest⟩
    · rw [hmore.group_eq rest context group back hrest, h.ordinal_eq context, countIn_append]
    · cases rest with
      | nil =>
        have hfront : front = moves := by rw [hmoves, List.append_nil]
        rw [hmore.group_eq [] context group back hrest.symm, hfront, h.ordinal_eq context]
        rfl
      | cons move rest =>
        obtain ⟨rfl, -⟩ := List.cons.inj hrest
        exact h.group_eq front context group rest hmoves
  ordinal_eq context := by
    rw [hmore.ordinal_eq context, h.ordinal_eq context, countIn_append]

/-- Entering a context starts its ordinals from zero. -/
theorem enter (b : Builder ε σ) (context : Context) :
    Numbers b.ordinals [.enter context] (b.enter context).ordinals where
  group_eq front _ _ _ h := by
    rcases List.singleton_eq_append_iff.mp h with ⟨-, h⟩ | ⟨-, h⟩ <;> cases h
  ordinal_eq _ := rfl

/-- A group is taken by the next ordinal of the context. -/
theorem take (b : Builder ε σ) (spec : Spec ε σ) :
    Numbers b.ordinals [.take b.context b.nextGroup] (b.allocateGroup spec).ordinals where
  group_eq front context group back h := by
    rcases List.singleton_eq_append_iff.mp h with ⟨rfl, h⟩ | ⟨-, h⟩
    · cases h
      rfl
    · cases h
  ordinal_eq context := by
    show (if context = b.context then b.ordinals b.context + 1 else b.ordinals context) =
      if context = b.context then b.ordinals context + 1 else b.ordinals context
    by_cases hsame : context = b.context
    · rw [if_pos hsame, if_pos hsame, hsame]
    · rw [if_neg hsame, if_neg hsame]

end Numbers

/-! ### Scripts -/

/-- An operation numbers the group that it takes, if it takes one. -/
theorem Operation.numbers (operation : Operation ε σ α) (l : Ledger ε σ) :
    Numbers l.builder.ordinals (operation.moves l) (run operation.book l).2.builder.ordinals := by
  -- all others leave the ordinals as they are
  have hkept : ∀ body : Book ε σ α,
      Keeps (Ledger.Stands fun _ _ ordinals ↦ ordinals = l.builder.ordinals) body →
        Numbers l.builder.ordinals [] (run body l).2.builder.ordinals := by
    intro body hbody
    have hsame : (run body l).2.builder.ordinals = l.builder.ordinals := hbody l rfl
    rw [hsame]
    exact .refl _
  cases operation with
  | allocateGroup spec => exact .take l.builder spec
  | addNode kind spec group => exact hkept _ (keeps_stands_addNodeWithArity kind spec group _)
  | addNodeWithArity kind spec group arity =>
    exact hkept _ (keeps_stands_addNodeWithArity kind spec group arity)
  | connect tail head input => exact hkept _ (keeps_stands_connect tail head input)
  | connectAll ports head => exact hkept _ (keeps_stands_connectAll ports head)
  | addStateEdge tail head => exact hkept _ (keeps_stands_addStateEdge tail head)
  | publish expansion => exact .refl _

namespace Book

/-- An expansion that is found again leaves the ordinals as they are, and any other leaves them as
composing one level deeper does. -/
theorem ordinals_expand (operator : Nat) (compose : Track → Book ε σ Track) (left : Track)
    (l : Ledger ε σ) :
    (run (expand operator compose left) l).2.builder.ordinals =
      if l.remembers operator left then l.builder.ordinals
      else (run (compose left) { l with depth := l.depth + 1 }).2.builder.ordinals := by
  rw [run_expand, Ledger.remembers]
  by_cases hdeep : 0 < l.depth
  · have hdepth : (l.depth == 0) = false := beq_false_of_ne hdeep.ne'
    rw [if_pos hdeep, hdepth, run_nested]
    rfl
  · have hdepth : (l.depth == 0) = true := beq_iff_eq.mpr (Nat.eq_zero_of_not_pos hdeep)
    rw [if_neg hdeep, hdepth]
    cases l.builder.memo.lookup ⟨operator, l.builder.context, left⟩ with
    | some track => rfl
    | none =>
      rw [run_nested]
      rcases run (compose left) { l with depth := l.depth + 1 } with ⟨e | track, after⟩ <;> rfl

end Book

namespace Script

/-- Whatever a script does, groups are numbered by how many were taken in their context since it was
last entered. -/
theorem numbers {α : Type} (script : Script ε σ α) (l : Ledger ε σ) :
    Numbers l.builder.ordinals (script.moves l) (run script.book l).2.builder.ordinals := by
  induction script generalizing l with
  | done result => exact .refl _
  | look next ih => exact ih l.builder l
  | call operation next ih => exact (operation.numbers l).trans (ih _ _)
  | expand operator compose left next ihcompose ihnext =>
    refine Numbers.trans ?_ (ihnext _ _)
    rw [ordinals_expand]
    split_ifs with hfound
    · exact .refl _
    · exact ihcompose left { l with depth := l.depth + 1 }
  | inContext context body next ihbody ihnext =>
    have hbody := ihbody { l with builder := l.builder.enter context }
    have hinside := (Numbers.enter l.builder context).trans hbody
    let after := run (Book.inContext context body.book) l
    exact hinside.trans (ihnext after.1 after.2)

end Script

/-! ### Groups that are handed out again -/

namespace Script

/-- Of two groups that a script takes in one context, the second is the first again exactly if the
context was entered in between and as many groups were taken since as had been before the first.
Just then their nodes are bound to one instance. So no group is handed out twice while its context
is not entered again: the second is numbered higher. -/
theorem handed_again_iff {α : Type} (script : Script ε σ α) (mode : Mode) {context : Context}
    {first second : GroupId} {front middle back : List Move}
    (h : script.moves (Ledger.new mode) =
      front ++ .take context first :: (middle ++ .take context second :: back)) :
    first = ⟨context.scope, countIn context 0 front⟩ ∧
    (first = second ↔
      .enter context ∈ middle ∧ countIn context 0 middle = countIn context 0 front) ∧
    (.enter context ∉ middle → first.ordinal < second.ordinal) ∧
    let nodes := (run script.book (Ledger.new mode)).2.builder.nodes
    ∀ (roster bound : Roster ε σ) (w after : World ε σ) (binding : Binding), roster.Sound w →
      Action.result (Roster.bind nodes roster) w = ((binding, bound), after) →
        ∀ (j k : Nat) (node other : Node ε σ), nodes[j]? = some node → nodes[k]? = some other →
          node.group = some first → other.group = some second →
            (binding[j]? = binding[k]? ↔
              .enter context ∈ middle ∧ countIn context 0 middle = countIn context 0 front) := by
  have hnumbers := script.numbers (Ledger.new mode)
  have hfirst : first = ⟨context.scope, countIn context 0 front⟩ :=
    hnumbers.group_eq front context first _ h
  have hsecond : second =
      ⟨context.scope, countIn context (countIn context 0 front + 1) middle⟩ := by
    have hsplit : front ++ .take context first :: (middle ++ .take context second :: back) =
        (front ++ .take context first :: middle) ++ .take context second :: back := by
      rw [List.append_assoc, List.cons_append]
    have hgroup := hnumbers.group_eq _ context second back (h.trans hsplit)
    rwa [countIn_append, countIn_take] at hgroup
  have hstay : .enter context ∉ middle → first.ordinal < second.ordinal := by
    intro hnot
    rw [hfirst, hsecond]
    exact le_countIn hnot _
  have hagain : first = second ↔
      .enter context ∈ middle ∧ countIn context 0 middle = countIn context 0 front := by
    by_cases hmem : .enter context ∈ middle
    · rw [hfirst, hsecond, countIn_of_mem hmem, GroupId.mk.injEq]
      constructor
      · exact fun ⟨_, hcount⟩ ↦ ⟨hmem, hcount.symm⟩
      · exact fun ⟨_, hcount⟩ ↦ ⟨rfl, hcount.symm⟩
    · constructor
      · intro hsame
        exact absurd (congrArg GroupId.ordinal hsame) (hstay hmem).ne
      · exact fun ⟨hentered, _⟩ ↦ absurd hentered hmem
  refine ⟨hfirst, hagain, hstay, ?_⟩
  intro nodes roster bound w after binding hroster hbind j k node other hj hk hgroup hgroup'
  obtain ⟨_, _, _, hresult, hbound⟩ := Roster.result_bind nodes hroster
  cases hresult.symm.trans hbind
  rw [hbound.same_instance_iff hj hk hgroup hgroup', hagain]

/-- A context is entered twice. The second time the operator that was expanded the first time is
found again, and another one gets the group that it has. A third one gets a group of its own. -/
def returning : Script Unit Unit Track :=
  let context : Context := ⟨1, .apply⟩
  let compose : Track → Script Unit Unit Track := Expression.scriptMapper Builtin.collector
  .call (.addNode .source Builtin.collector none) fun _ ↦
    .inContext context (.expand 0 compose ⟨[⟨0, 0⟩], none⟩ .done) fun _ ↦
      .inContext context (.expand 0 compose ⟨[⟨0, 0⟩], none⟩ fun _ ↦
        .expand 1 compose ⟨[⟨1, 0⟩], none⟩ fun _ ↦ .expand 2 compose ⟨[⟨2, 0⟩], none⟩ .done) .done

theorem handed_again_returning :
    let context : Context := ⟨1, .apply⟩
    let nodes := (run returning.book (Ledger.new .apply)).2.builder.nodes
    returning.moves (Ledger.new .apply) = [.enter context, .take context ⟨1, 0⟩, .enter context,
      .take context ⟨1, 0⟩, .take context ⟨1, 1⟩] ∧
    nodes.map Node.group = [none, some ⟨1, 0⟩, some ⟨1, 0⟩, some ⟨1, 1⟩] ∧
    ∃ binding bound after,
      Action.result (Roster.bind nodes Roster.empty) (World.new ()) = ((binding, bound), after) ∧
      binding[1]? = binding[2]? ∧ binding[1]? ≠ binding[3]? := by
  intro context nodes
  have hmoves : returning.moves (Ledger.new .apply) = [.enter context, .take context ⟨1, 0⟩,
      .enter context, .take context ⟨1, 0⟩, .take context ⟨1, 1⟩] := rfl
  have hgroups : nodes.map Node.group = [none, some ⟨1, 0⟩, some ⟨1, 0⟩, some ⟨1, 1⟩] := by
    decide +kernel
  have hnode : ∀ (k : Nat) (group : Option GroupId), (nodes.map Node.group)[k]? = some group →
      ∃ node, nodes[k]? = some node ∧ node.group = group := by
    intro k group h
    rw [List.getElem?_map] at h
    exact Option.map_eq_some_iff.mp h
  obtain ⟨first, hfirst, hgroup⟩ := hnode 1 (some ⟨1, 0⟩) (by rw [hgroups]; rfl)
  obtain ⟨second, hsecond, hagain⟩ := hnode 2 (some ⟨1, 0⟩) (by rw [hgroups]; rfl)
  obtain ⟨third, hthird, hother⟩ := hnode 3 (some ⟨1, 1⟩) (by rw [hgroups]; rfl)
  have hsound : (Roster.empty : Roster Unit Unit).Sound (World.new ()) := Roster.sound_empty _
  obtain ⟨binding, bound, after, hbind, -⟩ := Roster.result_bind nodes hsound
  refine ⟨hmoves, hgroups, binding, bound, after, hbind, ?_, ?_⟩
  · have hsecond' : returning.moves (Ledger.new .apply) = [.enter context] ++
        .take context ⟨1, 0⟩ :: ([.enter context] ++ .take context ⟨1, 0⟩ ::
          [.take context ⟨1, 1⟩]) := hmoves
    obtain ⟨-, -, -, hshared⟩ := handed_again_iff returning .apply hsecond'
    refine (hshared _ _ _ _ _ hsound hbind 1 2 first second hfirst hsecond hgroup hagain).mpr ?_
    exact ⟨List.mem_singleton_self _, rfl⟩
  · have hthird' : returning.moves (Ledger.new .apply) = [.enter context] ++
        .take context ⟨1, 0⟩ :: ([.enter context, .take context ⟨1, 0⟩] ++
          .take context ⟨1, 1⟩ :: []) := hmoves
    obtain ⟨-, -, -, hshared⟩ := handed_again_iff returning .apply hthird'
    intro hsame
    have hcount := ((hshared _ _ _ _ _ hsound hbind 1 3 first third hfirst hthird hgroup
      hother).mp hsame).2
    rw [countIn, countIn] at hcount
    exact absurd hcount (by decide)

/-- An operator is expanded in the context a builder starts in, and another one after that context
was entered again. -/
def restarting : Script Unit Unit Track :=
  let other : Spec Unit Unit := { Builtin.collector with name := "other" }
  .call (.addNode .source Builtin.collector none) fun _ ↦
    .expand 0 (Expression.scriptMapper Builtin.collector) ⟨[⟨0, 0⟩], none⟩ fun _ ↦
      .inContext ⟨0, .apply⟩
        (.expand 1 (Expression.scriptMapper other) ⟨[⟨1, 0⟩], none⟩ .done) .done

/-- The other operator gets the group of the first, which stays with the actor of the first, and the
nodes of both are bound to one instance. -/
theorem handed_to_another :
    let l := (run restarting.book (Ledger.new .apply)).2
    restarting.moves (Ledger.new .apply) = [.take ⟨0, .apply⟩ ⟨0, 0⟩, .enter ⟨0, .apply⟩,
      .take ⟨0, .apply⟩ ⟨0, 0⟩] ∧
    l.builder.nodes.map (fun node ↦ (node.spec.name, node.group)) =
      [("collector", none), ("collector", some ⟨0, 0⟩), ("other", some ⟨0, 0⟩)] ∧
    l.builder.groups.map (fun (group, spec) ↦ (group, spec.name)) = [(⟨0, 0⟩, "collector")] ∧
    (Action.result (Roster.bind l.builder.nodes Roster.empty) (World.new ())).1.1 = [0, 1, 1] :=
  ⟨rfl, by decide +kernel, by decide +kernel, by decide +kernel⟩

end Script

end Dataflow
