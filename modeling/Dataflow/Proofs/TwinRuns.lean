import Dataflow.Proofs.Interleaving
import Dataflow.Proofs.Layout

/-!
# Twin runs

Two graphs may host the same stretch of nodes: the same placements under the same numbers, which
read the same ports and have the instances of their groups (`Graph.Hosts`). Two moments are twins
for the stretch if certain ports have given the same and the instances of its groups are equal
(`Twins`).

If actors are deterministic, a node of the stretch that runs at twin moments leaves twin moments,
which now agree on what the node has given as well (`Twins.runs`). So a stretch that reads a track
and itself only comes to the same in both graphs, whatever else the moments and the graphs contain
(`Twins.runsAll`). Other nodes change the instances of its groups only if they train them
(`RunsAll.instances_of_untrained`).
-/

set_option autoImplicit false
set_option relaxedAutoImplicit false

namespace Dataflow

variable {ε σ : Type}

/-! ### Deterministic actors -/

/-- An actor whose calls depend only on its fit state and on what it is given. -/
structure Behavior.Deterministic (b : Behavior ε σ) : Prop where
  apply : ∀ inputs fit env other, (b.apply inputs fit env).1 = (b.apply inputs fit other).1
  train : ∀ inputs label fit env other,
    (b.train inputs label fit env).1 = (b.train inputs label fit other).1 ∧
      (b.train inputs label fit env).2.1 = (b.train inputs label fit other).2.1

/-- The work of a deterministic actor does not depend on the environment. -/
theorem Node.work_congr {actor : Instance ε σ} (h : actor.behavior.Deterministic)
    (node : Node ε σ) (env other : Environment ε) (inputs : List Payload) :
    node.work actor env inputs = node.work actor other inputs := by
  have happlied : ∀ outputs, actor.applied env outputs inputs =
      actor.applied other outputs inputs := by
    intro outputs
    unfold Instance.applied
    rw [h.apply inputs actor.fit env other]
  have htrained : ∀ data label, actor.trained env data label = actor.trained other data label := by
    intro data label
    obtain ⟨hresult, hfit⟩ := h.train data label actor.fit env other
    exact Prod.ext hresult (congrArg (Instance.mk actor.behavior) hfit)
  unfold work
  split
  · split
    · rfl
    · rw [htrained]
  · rw [happlied]

/-! ### Instances that are not trained -/

section Untrained

variable {g : Graph ε σ} {binding : Binding} {s t : Moment ε σ} {id : NodeId}

/-- A node changes an instance only if it trains it. -/
theorem Runs.instances_of_untrained (h : Runs g binding id s t) {actor : InstanceId}
    (huntrained : ∀ node, g.nodes[id]? = some node → binding[id]? = some actor →
      node.kind ≠ .trainer) :
    t.world.instances[actor]? = s.world.instances[actor]? := by
  cases h with
  | @intro node own bound inputs outputs hcalled hwork =>
    by_cases hsame : own = actor
    · subst hsame
      have hkind := huntrained node hcalled.node_eq hcalled.actor_eq
      dsimp only
      rw [Node.work_of_ne hkind, World.setFit_self hcalled.bound_eq]
    · exact World.instances_setFit_of_ne _ hsame _

/-- Nodes change an instance only if one of them trains it. -/
theorem RunsAll.instances_of_untrained {ids : List NodeId} (h : RunsAll g binding ids s t)
    {actor : InstanceId}
    (huntrained : ∀ id ∈ ids, ∀ node, g.nodes[id]? = some node → binding[id]? = some actor →
      node.kind ≠ .trainer) :
    t.world.instances[actor]? = s.world.instances[actor]? := by
  induction h with
  | nil s => rfl
  | cons hid hrest ih =>
    exact (ih fun k hk ↦ huntrained k (List.mem_cons_of_mem _ hk)).trans
      (hid.instances_of_untrained (huntrained _ List.mem_cons_self))

/-- What a node has given stays when others run. -/
theorem RunsAll.produced_of_not_mem {ids : List NodeId} (h : RunsAll g binding ids s t)
    {other : NodeId} (hother : other ∉ ids) : t.produced other = s.produced other := by
  induction h with
  | nil s => rfl
  | cons hid hrest ih =>
    rw [ih (List.not_mem_of_not_mem_cons hother),
      hid.produced_of_ne (List.ne_of_not_mem_cons hother)]

end Untrained

/-! ### Stretches of nodes -/

/-- The nodes of a stretch run between those before it and those behind it. -/
theorem RunsAll.exists_stretch {g : Graph ε σ} {binding : Binding} {s t : Moment ε σ}
    {n first count : Nat} (h : RunsAll g binding (List.range n) s t) (hle : first + count ≤ n) :
    ∃ before after, RunsAll g binding (List.range first) s before ∧
      RunsAll g binding (List.range' first count) before after ∧
        RunsAll g binding (List.range' (first + count) (n - (first + count))) after t := by
  have hsplit : List.range n = List.range first ++
      (List.range' first count ++ List.range' (first + count) (n - (first + count))) := by
    rw [List.range'_append_1, List.range_eq_range', List.range_eq_range']
    have hcount : n = first + (count + (n - (first + count))) := by omega
    conv_lhs => rw [hcount]
    rw [← List.range'_append_1, Nat.zero_add]
  rw [hsplit] at h
  obtain ⟨before, hfront, h⟩ := RunsAll.append_iff.mp h
  obtain ⟨after, hstretch, hback⟩ := RunsAll.append_iff.mp h
  exact ⟨before, after, hfront, hstretch, hback⟩

/-- A graph has placements as its nodes from a number on, and they have the instances of their
groups. -/
structure Graph.Hosts (g : Graph ε σ) (binding : Binding) (home : GroupId → InstanceId)
    (start : Nat) (ps : List (Placement ε σ)) : Prop where
  node : ∀ (i : Nat) (p : Placement ε σ), ps[i]? = some p →
    g.nodes[start + i]? = some (p.node (start + i))
  inputs : ∀ (i : Nat) (p : Placement ε σ), ps[i]? = some p → g.inputs (start + i) = p.inputs
  bound : ∀ (i : Nat) (p : Placement ε σ), ps[i]? = some p →
    ∃ group, p.group = some group ∧ binding[start + i]? = some (home group)
  distinct : ∀ p ∈ ps, ∀ q ∈ ps, ∀ group other, p.group = some group → q.group = some other →
    home group = home other → group = other

/-- Placements of which one belongs to a group. -/
def Placement.Serve (ps : List (Placement ε σ)) (group : GroupId) : Prop :=
  ∃ p ∈ ps, p.group = some group

/-- At two moments certain ports have given the same, and the instances of certain groups are equal
and deterministic. -/
structure Twins (home home' : GroupId → InstanceId) (ports : PortRef → Prop)
    (groups : GroupId → Prop) (m m' : Moment ε σ) : Prop where
  produced : ∀ port, ports port → m.produced.at? port = m'.produced.at? port
  actors : ∀ group, groups group → ∃ actor, m.world.instances[home group]? = some actor ∧
    m'.world.instances[home' group]? = some actor ∧ actor.behavior.Deterministic

namespace Twins

variable {g g' : Graph ε σ} {binding binding' : Binding} {home home' : GroupId → InstanceId}
  {start : Nat} {ps : List (Placement ε σ)} {left : Track} {m m' t t' : Moment ε σ}

/-- A node that is called in both graphs is called with equal instances and the same inputs. -/
theorem called (hg : g.Hosts binding home start ps) (hg' : g'.Hosts binding' home' start ps)
    (hoffered : Placement.Offered left start start ps) {i : Nat} {p : Placement ε σ}
    (hp : ps[i]? = some p)
    (h : Twins home home' (left.Offers start (start + i)) (Placement.Serve ps) m m')
    {node node' : Node ε σ} {actor actor' : InstanceId} {bound bound' : Instance ε σ}
    {inputs inputs' : List Payload}
    (hcalled : Called g binding m (start + i) node actor bound inputs)
    (hcalled' : Called g' binding' m' (start + i) node' actor' bound' inputs') :
    node = node' ∧ bound = bound' ∧ inputs = inputs' ∧ bound.behavior.Deterministic ∧
      ∃ group, p.group = some group ∧ home group = actor ∧ home' group = actor' := by
  obtain rfl : p.node (start + i) = node :=
    Option.some.inj ((hg.node i p hp).symm.trans hcalled.node_eq)
  obtain rfl : p.node (start + i) = node' :=
    Option.some.inj ((hg'.node i p hp).symm.trans hcalled'.node_eq)
  obtain ⟨group, hgroup, hactor⟩ := hg.bound i p hp
  obtain ⟨group', hgroup', hactor'⟩ := hg'.bound i p hp
  obtain rfl : group = group' := Option.some.inj (hgroup.symm.trans hgroup')
  obtain rfl : home group = actor := Option.some.inj (hactor.symm.trans hcalled.actor_eq)
  obtain rfl : home' group = actor' := Option.some.inj (hactor'.symm.trans hcalled'.actor_eq)
  obtain ⟨own, hown, hown', hdeterministic⟩ := h.actors group ⟨p, List.mem_of_getElem? hp, hgroup⟩
  obtain rfl : own = bound := Option.some.inj (hown.symm.trans hcalled.bound_eq)
  obtain rfl : own = bound' := Option.some.inj (hown'.symm.trans hcalled'.bound_eq)
  have hcarries := hcalled.carries
  have hcarries' := hcalled'.carries
  rw [hg.inputs i p hp] at hcarries
  rw [hg'.inputs i p hp] at hcarries'
  have hoffers : p.inputs.map m'.produced.at? = p.inputs.map m.produced.at? :=
    List.map_congr_left fun port hport ↦ (h.produced port (hoffered i p hp port hport)).symm
  have hsame : inputs = inputs' := Produced.Carries.unique (hoffers.trans hcarries) hcarries'
  exact ⟨rfl, rfl, hsame, hdeterministic, group, hgroup, rfl, rfl⟩

/-- The moments stay alike when a node gives the same in both and its instances are left alike. -/
theorem record (hg : g.Hosts binding home start ps) (hg' : g'.Hosts binding' home' start ps)
    {next : NodeId} (h : Twins home home' (left.Offers start next) (Placement.Serve ps) m m')
    {p : Placement ε σ} (hmem : p ∈ ps) {group : GroupId} (hgroup : p.group = some group)
    (outputs : List Payload) (fit : σ) :
    Twins home home' (left.Offers start (next + 1)) (Placement.Serve ps)
      ⟨m.produced.record next outputs, m.world.setFit (home group) fit⟩
      ⟨m'.produced.record next outputs, m'.world.setFit (home' group) fit⟩ := by
  constructor
  · intro port hport
    by_cases hself : port.node = next
    · simp only [Produced.at?, hself, Produced.record_self]
    · have hbefore : left.Offers start next port :=
        hport.imp_right fun hor ↦ hor.imp_right fun hbetween ↦
          ⟨hbetween.1, Nat.lt_of_le_of_ne (Nat.le_of_lt_succ hbetween.2) hself⟩
      have heq := h.produced port hbefore
      simp only [Produced.at?, Produced.record_of_ne _ hself] at heq ⊢
      exact heq
  · rintro other ⟨q, hq, hother⟩
    obtain ⟨found, hfound, hfound', hdeterministic⟩ := h.actors other ⟨q, hq, hother⟩
    by_cases hsame : home group = home other
    · obtain rfl := hg.distinct p hmem q hq group other hgroup hother hsame
      exact ⟨_, World.instances_setFit_self hfound _, World.instances_setFit_self hfound' _,
        hdeterministic⟩
    · have hsame' : home' group ≠ home' other := fun heq ↦
        hsame (congrArg home (hg'.distinct p hmem q hq group other hgroup hother heq))
      refine ⟨found, ?_, ?_, hdeterministic⟩
      · rw [World.instances_setFit_of_ne _ hsame]
        exact hfound
      · rw [World.instances_setFit_of_ne _ hsame']
        exact hfound'

/-- A node that runs in both graphs gives the same and leaves its instance the same. -/
theorem runs (hg : g.Hosts binding home start ps) (hg' : g'.Hosts binding' home' start ps)
    (hoffered : Placement.Offered left start start ps) {i : Nat} {p : Placement ε σ}
    (hp : ps[i]? = some p)
    (h : Twins home home' (left.Offers start (start + i)) (Placement.Serve ps) m m')
    (hrun : Runs g binding (start + i) m t) (hrun' : Runs g' binding' (start + i) m' t') :
    Twins home home' (left.Offers start (start + i + 1)) (Placement.Serve ps) t t' := by
  cases hrun with
  | intro hcalled hwork =>
    cases hrun' with
    | intro hcalled' hwork' =>
      obtain ⟨rfl, rfl, rfl, hdeterministic, group, hgroup, rfl, rfl⟩ :=
        called hg hg' hoffered hp h hcalled hcalled'
      rw [Node.work_congr hdeterministic _ m'.world.environment m.world.environment] at hwork' ⊢
      obtain rfl := Except.ok.inj (hwork.symm.trans hwork')
      exact h.record hg hg' (List.mem_of_getElem? hp) hgroup _ _

/-- A stretch that reads a track and itself only comes to the same in both graphs. -/
theorem runsAll (hg : g.Hosts binding home start ps) (hg' : g'.Hosts binding' home' start ps)
    (hoffered : Placement.Offered left start start ps) {count i : Nat}
    (hcount : i + count ≤ ps.length)
    (h : Twins home home' (left.Offers start (start + i)) (Placement.Serve ps) m m')
    (hrun : RunsAll g binding (List.range' (start + i) count) m t)
    (hrun' : RunsAll g' binding' (List.range' (start + i) count) m' t') :
    Twins home home' (left.Offers start (start + i + count)) (Placement.Serve ps) t t' := by
  induction count generalizing i m m' with
  | zero =>
    cases hrun with
    | nil =>
      cases hrun' with
      | nil => exact h
  | succ count ih =>
    rw [List.range'_succ] at hrun hrun'
    cases hrun with
    | cons hid hrest =>
      cases hrun' with
      | cons hid' hrest' =>
        have hp := List.getElem?_eq_getElem (l := ps) (i := i) (by omega)
        have hnext := ih (i := i + 1) (by omega) (h.runs hg hg' hoffered hp hid hid') hrest hrest'
        rw [Nat.add_comm count 1, ← Nat.add_assoc (start + i)]
        exact hnext

end Twins

end Dataflow
