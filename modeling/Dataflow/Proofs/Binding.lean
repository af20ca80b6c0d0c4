import Dataflow.Proofs.Stepping
import Dataflow.Session.Roster

/-!
# Binding nodes to instances

`Roster.Bound` says what binding the nodes of a graph achieves. Nodes of one group get the group's
instance: the one the roster had, or else a new one. Every other node gets a new instance of its
own, of its own actor. No instance that was there before is touched, and the roster stays sound: its
instances exist, and no two groups share one (`Roster.result_bind`).
-/

set_option autoImplicit false
set_option relaxedAutoImplicit false

namespace Dataflow

variable {ε σ : Type}

/-- A world with one more instance. -/
def World.spawned (w : World ε σ) (spec : Spec ε σ) : World ε σ :=
  { w with instances := w.instances.push spec.instantiate }

namespace World

theorem instances_spawned_of_lt {w : World ε σ} {id : InstanceId} (h : id < w.instances.size)
    (spec : Spec ε σ) : (w.spawned spec).instances[id]? = w.instances[id]? :=
  Array.getElem?_push_lt h |>.trans (Array.getElem?_eq_getElem h).symm

theorem instances_spawned_self (w : World ε σ) (spec : Spec ε σ) :
    (w.spawned spec).instances[w.instances.size]? = some spec.instantiate :=
  Array.getElem?_push_size

/-- An instance was there before, or it is the one that was made. -/
theorem instances_spawned_cases {w : World ε σ} {spec : Spec ε σ} {id : InstanceId}
    {actor : Instance ε σ} (h : (w.spawned spec).instances[id]? = some actor) :
    w.instances[id]? = some actor ∨ actor = spec.instantiate := by
  by_cases hid : id < w.instances.size
  · rw [instances_spawned_of_lt hid] at h
    exact .inl h
  · obtain ⟨hlt, rfl⟩ := Array.getElem?_eq_some_iff.mp h
    have hlast : id = w.instances.size := by
      have hsize : id < (w.instances.push spec.instantiate).size := hlt
      rw [Array.size_push] at hsize
      exact Nat.le_antisymm (Nat.le_of_lt_succ hsize) (Nat.le_of_not_lt hid)
    subst hlast
    exact .inr Array.getElem_push_eq

theorem size_spawned (w : World ε σ) (spec : Spec ε σ) :
    (w.spawned spec).instances.size = w.instances.size + 1 :=
  Array.size_push _

end World

namespace Roster

/-! ### Members -/

theorem member?_cons (group other : GroupId) (member : Member ε σ) (rest : Roster ε σ) :
    member? ((group, member) :: rest) other =
      if other = group then some member else rest.member? other := by
  unfold member?
  rw [List.lookup_cons]
  by_cases h : other = group
  · rw [if_pos h, h, beq_self_eq_true]
  · rw [if_neg h, beq_false_of_ne h]

theorem member?_put (roster : Roster ε σ) (group other : GroupId) (member : Member ε σ) :
    (roster.put group member).member? other =
      if other = group then some member else roster.member? other := by
  induction roster with
  | nil => exact member?_cons group other member []
  | cons entry rest ih =>
    obtain ⟨g, m⟩ := entry
    rw [put]
    split_ifs with hgroup hother hother
    · rw [member?_cons, if_pos (hother.trans hgroup)]
    · rw [member?_cons, member?_cons, ← hgroup, if_neg hother, if_neg hother]
    · rw [member?_cons, ih, if_pos hother, if_neg (hother ▸ hgroup)]
    · rw [member?_cons, member?_cons, ih, if_neg hother]

/-- A roster keeps one member for each group. -/
def Tidy (roster : Roster ε σ) : Prop :=
  (roster.map Prod.fst).Nodup

theorem tidy_empty : (empty : Roster ε σ).Tidy :=
  List.nodup_nil

theorem member?_eq_none {roster : Roster ε σ} {group : GroupId} (h : group ∉ roster.map Prod.fst) :
    roster.member? group = none := by
  refine List.lookup_eq_none_iff.mpr fun entry hentry ↦ ?_
  rw [bne_iff_ne]
  rintro rfl
  exact h (List.mem_map_of_mem hentry)

theorem map_fst_put (roster : Roster ε σ) (group : GroupId) (member : Member ε σ) :
    (roster.put group member).map Prod.fst =
      if group ∈ roster.map Prod.fst then roster.map Prod.fst
      else roster.map Prod.fst ++ [group] := by
  induction roster with
  | nil => rfl
  | cons entry rest ih =>
    obtain ⟨g, m⟩ := entry
    rw [put]
    by_cases hgroup : group = g
    · rw [if_pos hgroup, List.map_cons, List.map_cons, if_pos (hgroup ▸ List.mem_cons_self)]
    · rw [if_neg hgroup, List.map_cons, List.map_cons, ih]
      by_cases hmem : group ∈ rest.map Prod.fst
      · rw [if_pos hmem, if_pos (List.mem_cons_of_mem _ hmem)]
      · rw [if_neg hmem, if_neg, List.cons_append]
        exact fun hcons ↦ (List.mem_cons.mp hcons).elim hgroup hmem

theorem Tidy.put {roster : Roster ε σ} (h : roster.Tidy) (group : GroupId) (member : Member ε σ) :
    (roster.put group member).Tidy := by
  unfold Tidy
  rw [map_fst_put]
  split_ifs with hmem
  · exact h
  · refine List.nodup_append.mpr ⟨h, List.pairwise_singleton _ group, fun g hg other hother ↦ ?_⟩
    rw [List.mem_singleton.mp hother]
    rintro rfl
    exact hmem hg

/-- The instances of a roster exist, and no two groups share one. -/
structure Sound (roster : Roster ε σ) (w : World ε σ) : Prop where
  lt : ∀ group member, roster.member? group = some member → member.actor < w.instances.size
  distinct : ∀ group other member member', roster.member? group = some member →
    roster.member? other = some member' → member.actor = member'.actor → group = other

theorem sound_empty (w : World ε σ) : (empty : Roster ε σ).Sound w where
  lt _ _ h := nomatch h
  distinct _ _ _ _ h := nomatch h

theorem Sound.spawned {roster : Roster ε σ} {w : World ε σ} (h : roster.Sound w) (spec : Spec ε σ) :
    roster.Sound (w.spawned spec) where
  lt group member hmember := by
    rw [World.size_spawned]
    exact Nat.lt_succ_of_lt (h.lt group member hmember)
  distinct := h.distinct

theorem Sound.put_spawned {roster : Roster ε σ} {w : World ε σ} (h : roster.Sound w)
    (group : GroupId) (spec : Spec ε σ) (trained : Bool) :
    (roster.put group ⟨spec, w.instances.size, trained⟩).Sound (w.spawned spec) where
  lt other member hmember := by
    rw [World.size_spawned]
    rw [member?_put] at hmember
    split_ifs at hmember with hother
    · obtain rfl := Option.some.inj hmember
      exact Nat.lt_succ_self _
    · exact Nat.lt_succ_of_lt (h.lt other member hmember)
  distinct first second member member' hmember hmember' hsame := by
    rw [member?_put] at hmember hmember'
    split_ifs at hmember hmember' with hfirst hsecond hsecond
    · rw [hfirst, hsecond]
    · obtain rfl := Option.some.inj hmember
      exact absurd hsame (Nat.ne_of_gt (h.lt second member' hmember'))
    · obtain rfl := Option.some.inj hmember'
      exact absurd hsame (Nat.ne_of_lt (h.lt first member hmember))
    · exact h.distinct first second member member' hmember hmember' hsame

/-- The instance that a group has, or gets if it has none. -/
def instanceOf (roster : Roster ε σ) (w : World ε σ) (group : GroupId) (spec : Spec ε σ) :
    Instance ε σ :=
  ((roster.member? group).bind fun member ↦ w.instances[member.actor]?).getD spec.instantiate

theorem instanceOf_eq_of_member {roster : Roster ε σ} {w : World ε σ} {group : GroupId}
    {member : Member ε σ} (h : roster.member? group = some member)
    (hlt : member.actor < w.instances.size) (spec : Spec ε σ) :
    w.instances[member.actor]? = some (roster.instanceOf w group spec) := by
  unfold instanceOf
  rw [h, Option.bind_some, Array.getElem?_eq_getElem hlt]
  rfl

theorem instanceOf_spawned {roster : Roster ε σ} {w : World ε σ} (h : roster.Sound w)
    (made : Spec ε σ) (group : GroupId) (spec : Spec ε σ) :
    roster.instanceOf (w.spawned made) group spec = roster.instanceOf w group spec := by
  unfold instanceOf
  cases hmember : roster.member? group with
  | none => rfl
  | some member =>
    rw [Option.bind_some, Option.bind_some,
      World.instances_spawned_of_lt (h.lt group member hmember) made]

/-! ### Binding one node -/

theorem request_of_member {roster : Roster ε σ} {group : GroupId} {member : Member ε σ}
    (h : roster.member? group = some member) (spec : Spec ε σ) (w : World ε σ) :
    Action.result (roster.request group spec) w = ((member.actor, roster), w) := by
  rw [request, h]
  rfl

theorem request_of_none {roster : Roster ε σ} {group : GroupId} (h : roster.member? group = none)
    (spec : Spec ε σ) (w : World ε σ) :
    Action.result (roster.request group spec) w =
      ((w.instances.size, roster.put group ⟨spec, w.instances.size, false⟩), w.spawned spec) := by
  rw [request, h]
  rfl

/-- The instance for one node, and the roster that holds it if the node belongs to a group. -/
def claim (roster : Roster ε σ) (node : Node ε σ) : Action ε σ (InstanceId × Roster ε σ) :=
  match node.group with
  | some group => roster.request group node.spec
  | none => do
    let actor ← Action.spawn node.spec
    return (actor, roster)

/-- Binding nodes claims an instance for each of them in order. -/
theorem result_bind_cons (node : Node ε σ) (rest : List (Node ε σ)) (roster : Roster ε σ)
    (w : World ε σ) :
    Action.result (bind (node :: rest) roster) w =
      let claimed := Action.result (roster.claim node) w
      let bound := Action.result (bind rest claimed.1.2) claimed.2
      ((claimed.1.1 :: bound.1.1, bound.1.2), bound.2) := by
  unfold claim
  rw [bind]
  cases node.group <;> rfl

/-- The three ways to get an instance: the group has one, the group gets one, or the node stands
alone. -/
theorem result_claim (roster : Roster ε σ) (node : Node ε σ) (w : World ε σ) :
    (∃ group member, node.group = some group ∧ roster.member? group = some member ∧
      Action.result (roster.claim node) w = ((member.actor, roster), w)) ∨
    (∃ group, node.group = some group ∧ roster.member? group = none ∧
      Action.result (roster.claim node) w =
        ((w.instances.size, roster.put group ⟨node.spec, w.instances.size, false⟩),
          w.spawned node.spec)) ∨
    (node.group = none ∧
      Action.result (roster.claim node) w = ((w.instances.size, roster), w.spawned node.spec)) := by
  unfold claim
  cases hgroup : node.group with
  | none => exact .inr (.inr ⟨rfl, rfl⟩)
  | some group =>
    cases hmember : roster.member? group with
    | some member => exact .inl ⟨group, member, rfl, hmember, request_of_member hmember _ w⟩
    | none => exact .inr (.inl ⟨group, rfl, hmember, request_of_none hmember _ w⟩)

/-! ### Binding all nodes -/

/-- What binding nodes has achieved. -/
structure Bound (nodes : List (Node ε σ)) (roster : Roster ε σ) (w : World ε σ) (binding : Binding)
    (bound : Roster ε σ) (after : World ε σ) : Prop where
  length : binding.length = nodes.length
  /-- A node of a group has the group's instance. -/
  grouped : ∀ (k : Nat) (node : Node ε σ) (group : GroupId), nodes[k]? = some node →
    node.group = some group →
      ∃ member, bound.member? group = some member ∧ binding[k]? = some member.actor
  /-- Any other node has a new instance that no group has. -/
  plain : ∀ (k : Nat) (node : Node ε σ), nodes[k]? = some node → node.group = none →
    ∃ actor, binding[k]? = some actor ∧ w.instances.size ≤ actor ∧
      after.instances[actor]? = some node.spec.instantiate ∧
      ∀ group member, bound.member? group = some member → member.actor ≠ actor
  /-- No two nodes share an instance unless they belong to one group. -/
  apart : ∀ (j k : Nat) (first second : Node ε σ) (actor : InstanceId), j < k →
    nodes[j]? = some first → nodes[k]? = some second → binding[j]? = some actor →
      binding[k]? = some actor → first.group = second.group ∧ first.group.isSome = true
  sound : bound.Sound after
  kept : ∀ group member, roster.member? group = some member → bound.member? group = some member
  /-- A member is an old one or has a new instance. -/
  added : ∀ group member, bound.member? group = some member →
    roster.member? group = some member ∨ w.instances.size ≤ member.actor
  /-- A group starts from the instance it had, or from a new one of its nodes' actor. -/
  start : ∀ group member spec, bound.member? group = some member →
    (∀ node ∈ nodes, node.group = some group → node.spec = spec) →
      after.instances[member.actor]? = some (roster.instanceOf w group spec)
  size_le : w.instances.size ≤ after.instances.size
  held : ∀ id < w.instances.size, after.instances[id]? = w.instances[id]?
  environment : after.environment = w.environment
  /-- No instances are made but those of the nodes' actors. -/
  made : ∀ (id : InstanceId) (actor : Instance ε σ), after.instances[id]? = some actor →
    w.instances[id]? = some actor ∨ ∃ node ∈ nodes, actor = node.spec.instantiate

/-- Two nodes that belong to groups share an instance exactly if they belong to the same one. -/
theorem Bound.same_instance_iff {nodes : List (Node ε σ)} {roster bound : Roster ε σ}
    {w after : World ε σ} {binding : Binding} (h : Bound nodes roster w binding bound after)
    {j k : Nat} {node other : Node ε σ} {group group' : GroupId} (hj : nodes[j]? = some node)
    (hk : nodes[k]? = some other) (hgroup : node.group = some group)
    (hgroup' : other.group = some group') : binding[j]? = binding[k]? ↔ group = group' := by
  obtain ⟨member, hmember, hactor⟩ := h.grouped j node group hj hgroup
  obtain ⟨member', hmember', hactor'⟩ := h.grouped k other group' hk hgroup'
  rw [hactor, hactor', Option.some_inj]
  constructor
  · exact h.sound.distinct group group' member member' hmember hmember'
  · rintro rfl
    rw [Option.some.inj (hmember.symm.trans hmember')]

theorem bound_nil {roster : Roster ε σ} {w : World ε σ} (h : roster.Sound w) :
    Bound [] roster w [] roster w where
  length := rfl
  grouped _ _ _ hnode := nomatch hnode
  plain _ _ hnode := nomatch hnode
  apart _ _ _ _ _ _ hnode := nomatch hnode
  sound := h
  kept _ _ hmember := hmember
  added _ _ hmember := .inl hmember
  start group member spec hmember _ :=
    instanceOf_eq_of_member hmember (h.lt group member hmember) spec
  size_le := Nat.le_refl _
  held _ _ := rfl
  environment := rfl
  made _ _ hactor := .inl hactor

section Cons

variable {node : Node ε σ} {rest : List (Node ε σ)} {roster bound : Roster ε σ}
  {w after : World ε σ}
  {binding : Binding}

/-- Only nodes of a group have the group's instance. -/
theorem Bound.group_of_actor (h : Bound rest roster w binding bound after) {group : GroupId}
    {member : Member ε σ} (hmember : bound.member? group = some member) {k : Nat} {other : Node ε σ}
    (hother : rest[k]? = some other) (hactor : binding[k]? = some member.actor) :
    other.group = some group := by
  cases hgroup : other.group with
  | none =>
    obtain ⟨actor, hbound, -, -, hne⟩ := h.plain k other hother hgroup
    rw [hactor] at hbound
    exact absurd (Option.some.inj hbound) (hne group member hmember)
  | some found =>
    obtain ⟨member', hmember', hbound⟩ := h.grouped k other found hother hgroup
    rw [hactor] at hbound
    rw [h.sound.distinct group found member member' hmember hmember' (Option.some.inj hbound)]

/-- A node whose group has an instance is bound to it. -/
theorem Bound.cons_member (h : Bound rest roster w binding bound after) {group : GroupId}
    {member : Member ε σ} (hgroup : node.group = some group)
    (hmember : roster.member? group = some member) :
    Bound (node :: rest) roster w (member.actor :: binding) bound after where
  length := congrArg (· + 1) h.length
  grouped k other found hother hfound := by
    cases k with
    | zero =>
      obtain rfl : node = other := Option.some.inj hother
      obtain rfl : group = found := Option.some.inj (hgroup.symm.trans hfound)
      exact ⟨member, h.kept group member hmember, rfl⟩
    | succ k => exact h.grouped k other found hother hfound
  plain k other hother hnone := by
    cases k with
    | zero =>
      obtain rfl : node = other := Option.some.inj hother
      rw [hgroup] at hnone
      cases hnone
    | succ k => exact h.plain k other hother hnone
  apart j k first second actor hjk hfirst hsecond hj hk := by
    cases j with
    | zero =>
      obtain ⟨k, rfl⟩ : ∃ m, k = m + 1 := ⟨k - 1, by omega⟩
      obtain rfl : node = first := Option.some.inj hfirst
      obtain rfl : member.actor = actor := Option.some.inj hj
      rw [hgroup, h.group_of_actor (h.kept group member hmember) hsecond hk]
      exact ⟨rfl, rfl⟩
    | succ j =>
      obtain ⟨k, rfl⟩ : ∃ m, k = m + 1 := ⟨k - 1, by omega⟩
      exact h.apart j k first second actor (by omega) hfirst hsecond hj hk
  sound := h.sound
  kept := h.kept
  added := h.added
  start other found spec hfound hspec :=
    h.start other found spec hfound fun n hn ↦ hspec n (List.mem_cons_of_mem _ hn)
  size_le := h.size_le
  held := h.held
  environment := h.environment
  made id actor hactor := (h.made id actor hactor).imp_right fun ⟨other, hother, hmade⟩ ↦
    ⟨other, List.mem_cons_of_mem _ hother, hmade⟩

/-- Making an instance for a node makes none but those of the nodes' actors. -/
theorem Bound.made_cons {started : Roster ε σ}
    (h : Bound rest started (w.spawned node.spec) binding bound after) (id : InstanceId)
    (actor : Instance ε σ) (hactor : after.instances[id]? = some actor) :
    w.instances[id]? = some actor ∨ ∃ other ∈ node :: rest, actor = other.spec.instantiate := by
  rcases h.made id actor hactor with hold | ⟨other, hother, hmade⟩
  · exact (World.instances_spawned_cases hold).imp_right fun hmade ↦
      ⟨node, List.mem_cons_self, hmade⟩
  · exact .inr ⟨other, List.mem_cons_of_mem _ hother, hmade⟩

/-- A node whose group has no instance is bound to a new one, which becomes the group's. -/
theorem Bound.cons_new {group : GroupId} (hroster : roster.Sound w)
    (h : Bound rest (roster.put group ⟨node.spec, w.instances.size, false⟩) (w.spawned node.spec)
      binding bound after)
    (hgroup : node.group = some group) (hnone : roster.member? group = none) :
    Bound (node :: rest) roster w (w.instances.size :: binding) bound after := by
  have hput : (roster.put group ⟨node.spec, w.instances.size, false⟩).member? group =
      some ⟨node.spec, w.instances.size, false⟩ := by
    rw [member?_put, if_pos rfl]
  have hcons := h.cons_member hgroup hput
  have hsize := w.size_spawned node.spec
  refine ⟨hcons.length, hcons.grouped, fun k other hother hplain ↦ ?_, hcons.apart, hcons.sound,
    fun other found hfound ↦ ?_, fun other found hfound ↦ ?_,
    fun other found spec hfound hspec ↦ ?_,
    ?_, fun id hid ↦ ?_, h.environment, h.made_cons⟩
  · obtain ⟨actor, hactor, hle, hinstance, hne⟩ := hcons.plain k other hother hplain
    exact ⟨actor, hactor, by omega, hinstance, hne⟩
  · have hother : other ≠ group := by
      rintro rfl
      rw [hnone] at hfound
      cases hfound
    refine h.kept other found ?_
    rwa [member?_put, if_neg hother]
  · rcases h.added other found hfound with hold | hnew
    · rw [member?_put] at hold
      split_ifs at hold with hother
      · obtain rfl := Option.some.inj hold
        exact .inr (Nat.le_refl _)
      · exact .inl hold
    · exact .inr (by omega)
  · by_cases hother : other = group
    · subst hother
      obtain rfl := Option.some.inj ((h.kept _ _ hput).symm.trans hfound)
      have hheld := h.held w.instances.size (by omega)
      rw [hheld, World.instances_spawned_self, instanceOf, hnone,
        hspec node List.mem_cons_self hgroup]
      rfl
    · have hstart := hcons.start other found spec hfound hspec
      rw [hstart, instanceOf, member?_put, if_neg hother]
      exact congrArg some (instanceOf_spawned hroster node.spec other spec)
  · have hle := h.size_le
    omega
  · rw [h.held id (by omega), World.instances_spawned_of_lt hid]

/-- A node without a group is bound to a new instance. -/
theorem Bound.cons_plain (hroster : roster.Sound w)
    (h : Bound rest roster (w.spawned node.spec) binding bound after) (hgroup : node.group = none) :
    Bound (node :: rest) roster w (w.instances.size :: binding) bound after := by
  have hsize := w.size_spawned node.spec
  have hfree : ∀ group member, bound.member? group = some member →
      member.actor ≠ w.instances.size := by
    intro group member hmember
    rcases h.added group member hmember with hold | hnew
    · exact Nat.ne_of_lt (hroster.lt group member hold)
    · rw [hsize] at hnew
      exact Nat.ne_of_gt hnew
  refine ⟨congrArg (· + 1) h.length, fun k other found hother hfound ↦ ?_,
    fun k other hother hplain ↦ ?_, fun j k first second actor hjk hfirst hsecond hj hk ↦ ?_,
    h.sound,
    h.kept, fun other found hfound ↦ ?_, fun other found spec hfound hspec ↦ ?_, ?_,
    fun id hid ↦ ?_, h.environment, h.made_cons⟩
  · cases k with
    | zero =>
      obtain rfl : node = other := Option.some.inj hother
      rw [hgroup] at hfound
      cases hfound
    | succ k => exact h.grouped k other found hother hfound
  · cases k with
    | zero =>
      obtain rfl : node = other := Option.some.inj hother
      refine ⟨w.instances.size, rfl, Nat.le_refl _, ?_, hfree⟩
      rw [h.held w.instances.size (by omega), World.instances_spawned_self]
    | succ k =>
      obtain ⟨actor, hactor, hle, hinstance, hne⟩ := h.plain k other hother hplain
      exact ⟨actor, hactor, by omega, hinstance, hne⟩
  · cases j with
    | zero =>
      obtain ⟨k, rfl⟩ : ∃ m, k = m + 1 := ⟨k - 1, by omega⟩
      obtain rfl : w.instances.size = actor := Option.some.inj hj
      cases hsome : second.group with
      | none =>
        obtain ⟨actor, hactor, hle, -, -⟩ := h.plain k second hsecond hsome
        obtain rfl := Option.some.inj (hactor.symm.trans hk)
        omega
      | some group =>
        obtain ⟨member, hmember, hactor⟩ := h.grouped k second group hsecond hsome
        exact absurd (Option.some.inj (hactor.symm.trans hk)) (hfree group member hmember)
    | succ j =>
      obtain ⟨k, rfl⟩ : ∃ m, k = m + 1 := ⟨k - 1, by omega⟩
      exact h.apart j k first second actor (by omega) hfirst hsecond hj hk
  · rcases h.added other found hfound with hold | hnew
    · exact .inl hold
    · exact .inr (by omega)
  · have hstart := h.start other found spec hfound fun n hn ↦ hspec n (List.mem_cons_of_mem _ hn)
    rw [hstart, instanceOf_spawned hroster]
  · have hle := h.size_le
    omega
  · rw [h.held id (by omega), World.instances_spawned_of_lt hid]

end Cons

/-- Binding always succeeds, and achieves what `Bound` says. -/
theorem result_bind (nodes : List (Node ε σ)) {roster : Roster ε σ} {w : World ε σ}
    (h : roster.Sound w) :
    ∃ binding bound after, Action.result (bind nodes roster) w = ((binding, bound), after) ∧
      Bound nodes roster w binding bound after := by
  induction nodes generalizing roster w with
  | nil => exact ⟨[], roster, w, rfl, bound_nil h⟩
  | cons node rest ih =>
    rcases roster.result_claim node w with ⟨group, member, hgroup, hmember, hclaim⟩ |
      ⟨group, hgroup, hnone, hclaim⟩ | ⟨hgroup, hclaim⟩
    · obtain ⟨binding, bound, after, hbind, hbound⟩ := ih h
      refine ⟨member.actor :: binding, bound, after, ?_, hbound.cons_member hgroup hmember⟩
      simp only [result_bind_cons, hclaim, hbind]
    · obtain ⟨binding, bound, after, hbind, hbound⟩ := ih (h.put_spawned group node.spec false)
      refine ⟨w.instances.size :: binding, bound, after, ?_, hbound.cons_new h hgroup hnone⟩
      simp only [result_bind_cons, hclaim, hbind]
    · obtain ⟨binding, bound, after, hbind, hbound⟩ := ih (h.spawned node.spec)
      refine ⟨w.instances.size :: binding, bound, after, ?_, hbound.cons_plain h hgroup⟩
      simp only [result_bind_cons, hclaim, hbind]

end Roster

end Dataflow
