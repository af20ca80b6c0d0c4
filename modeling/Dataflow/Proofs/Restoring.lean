import Dataflow.Proofs.Persisting
import Dataflow.Proofs.Trainings

/-!
# A session that is restored

After a training a session can be exported, and a new session of the same workflow that loads the
snapshot can stand for it: the same groups count as trained, and whatever a group holds applies as
what the other session has for it (`Session.StandsFor`). It goes on to do so as long as neither
session is trained or loads anything (`Session.Rests`), and then both give the same when they are
asked to apply, on any runner and by any schedule (`Session.restored_applies_alike`).

Of the actors it is asked that what a training leaves behind can be persisted: it is exported as
bytes, and a new instance accepts the bytes and then applies alike (`Behavior.Persists`). Nothing is
asked of how they apply, but that they do not cancel one of the two sessions and not the other.
-/

set_option autoImplicit false
set_option relaxedAutoImplicit false

namespace Dataflow

variable {ε σ : Type}

/-- Bytes persist a fit state: it is exported as these bytes, and a new instance accepts them and
then applies as with the fit state. -/
structure Behavior.Persists (b : Behavior ε σ) (fit : σ) (bytes : Bytes) : Prop where
  exported : b.exportState fit = .ok (some bytes)
  accepted : (b.loadState bytes b.fresh).1 = .ok ()
  restored : ∀ inputs env, b.apply inputs (b.loadState bytes b.fresh).2 env = b.apply inputs fit env

/-- Applying cancels two sessions equally often. If they have one number, as a session that is
restored in another world may have, this is no condition. -/
def Behavior.CancelsAlike (b : Behavior ε σ) (m n : Nat) : Prop :=
  ∀ inputs fit env, (b.apply inputs fit env).2.cancellations m + env.cancellations n =
    (b.apply inputs fit env).2.cancellations n + env.cancellations m

theorem Behavior.Functional.cancelsAlike {b : Behavior ε σ} (h : b.Functional) (m n : Nat) :
    b.CancelsAlike m n := by
  intro inputs fit env
  rw [h.environment, Nat.add_comm]

/-- Two instances give the same whenever they are applied, and do the same to the environment. -/
def Instance.AppliesAlike (actor other : Instance ε σ) : Prop :=
  ∀ inputs env,
    other.behavior.apply inputs other.fit env = actor.behavior.apply inputs actor.fit env

theorem Instance.AppliesAlike.refl (actor : Instance ε σ) : actor.AppliesAlike actor :=
  fun _ _ ↦ rfl

/-- Instances that apply alike do the work of a node alike, in worlds with the same environment. -/
theorem Instance.AppliesAlike.result_execute {w v : World ε σ} {node : Node ε σ} {i j : InstanceId}
    {actor other : Instance ε σ} (halike : actor.AppliesAlike other)
    (hactor : w.instances[i]? = some actor) (hother : v.instances[j]? = some other)
    (henv : v.environment = w.environment) (hkind : node.kind ≠ .trainer) (inputs : List Payload) :
    ∃ outcome env, env = (actor.behavior.apply inputs actor.fit w.environment).2 ∧
      Action.result (execute node i inputs) w = (outcome, { w with environment := env }) ∧
      Action.result (execute node j inputs) v = (outcome, { v with environment := env }) := by
  refine ⟨_, _, rfl, result_execute_of_applied hactor hkind inputs, ?_⟩
  rw [result_execute_of_applied hother hkind inputs, Instance.applied, Instance.applied, henv,
    halike inputs w.environment]

namespace Session

variable [Inhabited σ] {s t s' t' : Session ε σ} {w v w' v' : World ε σ} {g : Graph ε σ}
  {found : Runner} {schedule : Schedule}

/-! ### Sessions that rest -/

/-- A later moment of a session at which nothing has been trained or loaded since. -/
inductive Rests (s : Session ε σ) (w : World ε σ) : Session ε σ → World ε σ → Prop
  | refl : Rests s w s w
  | call {t : Session ε σ} {v : World ε σ} (h : Rests s w t v) {c : Call} (hidle : ¬ t.Refits v c) :
      Rests s w (Action.result (t.call c) v).1 (Action.result (t.call c) v).2
  /-- Other sessions do as they like in the world, but not with the instances of this one. -/
  | elsewhere {t : Session ε σ} {v u : World ε σ} (h : Rests s w t v)
      (hsize : v.instances.size ≤ u.instances.size)
      (hkept : ∀ group member, t.roster.member? group = some member →
        u.instances[member.actor]? = v.instances[member.actor]?) : Rests s w t u

/-- A session at two moments is the same session, with the same marks and holding the same. -/
structure Steady (s : Session ε σ) (w : World ε σ) (t : Session ε σ) (v : World ε σ) : Prop where
  reachable : t.Reachable v
  number : t.number = s.number
  workflow : t.workflow = s.workflow
  runtime : t.runtime = s.runtime
  trained : ∀ group, t.roster.isTrained group = s.roster.isTrained group
  held : t.roster.held v s.specs = s.roster.held w s.specs

theorem specs_eq (hworkflow : t.workflow = s.workflow) (hruntime : t.runtime = s.runtime) :
    t.specs = s.specs := by
  rw [specs, specs, build, build, hworkflow, hruntime]

theorem Rests.steady (h : s.Rests w t v) (hs : s.Reachable w) : s.Steady w t v := by
  induction h with
  | refl => exact ⟨hs, rfl, rfl, rfl, fun _ ↦ rfl, rfl⟩
  | @call t v h c hidle ih =>
    obtain ⟨hsound, hfaithful⟩ := ih.reachable.invariant
    obtain ⟨hworkflow, hruntime, hwidened⟩ :=
      idled_of_not_refits ih.reachable.serves hsound hfaithful hidle
    obtain ⟨graphs, phase, roster, hcall⟩ := exists_call_eq hfaithful c v
    refine ⟨ih.reachable.call c, ?_, hworkflow.trans ih.workflow, hruntime.trans ih.runtime,
      fun group ↦ (hwidened.isTrained group).trans (ih.trained group), ?_⟩
    · rw [hcall]
      exact ih.number
    · rw [← specs_eq ih.workflow ih.runtime, hwidened.held, specs_eq ih.workflow ih.runtime,
        ih.held]
  | @elsewhere t v u h hsize hkept ih =>
    refine ⟨ih.reachable.elsewhere hsize hkept, ih.number, ih.workflow, ih.runtime, ih.trained, ?_⟩
    rw [← ih.held]
    funext group
    cases hmember : t.roster.member? group with
    | none => rw [Roster.held_of_none hmember, Roster.held_of_none hmember]
    | some member =>
      rw [Roster.held_of_member hmember, Roster.held_of_member hmember, hkept group member hmember]

/-- A session rests while the world keeps the instances that it has. -/
theorem Rests.kept (h : s.Rests w t v) (hs : s.Reachable w) {u : World ε σ} (hkept : v.Kept u) :
    s.Rests w t u :=
  h.elsewhere hkept.size_le fun group member hmember ↦
    hkept.held _ ((h.steady hs).reachable.invariant.1.lt group member hmember)

/-! ### Sessions that stand for others -/

/-- A session can stand for another one of its workflow: the same groups count as trained, and what
the one has for a group applies as what the other has for it. -/
structure StandsFor (t : Session ε σ) (v : World ε σ) (s : Session ε σ) (w : World ε σ) : Prop where
  workflow : t.workflow = s.workflow
  runtime : t.runtime = s.runtime
  trained : ∀ group, t.roster.isTrained group = s.roster.isTrained group
  alike : ∀ group actor, s.roster.held w s.specs group = some actor →
    ∃ other, t.roster.held v s.specs group = some other ∧ actor.AppliesAlike other

theorem StandsFor.steady (h : t.StandsFor v s w) (hs : s.Steady w s' w') (ht : t.Steady v t' v') :
    t'.StandsFor v' s' w' where
  workflow := ht.workflow.trans (h.workflow.trans hs.workflow.symm)
  runtime := ht.runtime.trans (h.runtime.trans hs.runtime.symm)
  trained group := (ht.trained group).trans ((h.trained group).trans (hs.trained group).symm)
  alike := by
    have hheld := ht.held
    rw [specs_eq h.workflow h.runtime] at hheld
    rw [specs_eq hs.workflow hs.runtime, hs.held, hheld]
    exact h.alike

/-- What the nodes of an application hold applies alike. -/
theorem StandsFor.holding (h : t.StandsFor v s w) (hbuild : s.build .apply = .ok g)
    (hsound : s.roster.Sound w) (hsound' : t.roster.Sound v) {node : Node ε σ}
    (hnode : node ∈ g.nodes) : (s.holding w node).AppliesAlike (t.holding v node) := by
  unfold Session.holding
  cases hgroup : node.group with
  | none => exact .refl _
  | some group =>
    have hlookup := lookup_specs hbuild hnode hgroup
    obtain ⟨other, hother, halike⟩ := h.alike group _ (Roster.held_eq_some hsound hlookup)
    rw [Roster.held_eq_some hsound' hlookup, Option.some.injEq] at hother
    subst hother
    exact halike

/-- A session that stands for another one gives the same when it is asked to apply in the same
environment, and does the same to the environment. -/
theorem StandsFor.apply_eq (h : t.StandsFor v s w) (hs : s.Reachable w) (ht : t.Reachable v)
    (henv : v.environment = w.environment)
    (hcancels : ∀ g, s.build .apply = .ok g → ∀ node ∈ g.nodes,
      node.spec.behavior.CancelsAlike s.number t.number)
    (runner : Option String) (schedule : Schedule) :
    (Action.result (t.invoke .apply runner schedule) v).1.1 =
        (Action.result (s.invoke .apply runner schedule) w).1.1 ∧
      (Action.result (t.invoke .apply runner schedule) v).2.environment =
        (Action.result (s.invoke .apply runner schedule) w).2.environment := by
  obtain ⟨hsound, hfaithful⟩ := hs.invariant
  obtain ⟨hsound', hfaithful'⟩ := ht.invariant
  refine apply_eq_of_ended (R := fun a b ↦ b.environment = a.environment) h.workflow h.runtime
    hfaithful hfaithful' h.trained schedule
    (fun start start' hquiet hquiet' ↦
      hquiet'.environment.trans (henv.trans hquiet.environment.symm))
    (fun g hbuild found start start' hquiet hquiet' ↦ ?_) runner
  have hbuild' : t.build .apply = .ok g := by
    rw [← hbuild, build, h.workflow, h.runtime]
    rfl
  have hstands : t.StandsFor start' s start := by
    refine ⟨h.workflow, h.runtime, h.trained, ?_⟩
    rw [Roster.held_quiet _ hquiet, Roster.held_quiet _ hquiet']
    exact h.alike
  replace hsound := hsound.grow hquiet.kept.size_le
  replace hsound' := hsound'.grow hquiet'.kept.size_le
  let r := s.staging .apply g found schedule start
  let r' := t.staging .apply g found schedule start'
  have hbegin : r.world.environment = w.environment :=
    (environment_staging hsound .apply g found schedule).trans hquiet.environment
  have hbegin' : r'.world.environment = w.environment :=
    ((environment_staging hsound' .apply g found schedule).trans hquiet'.environment).trans henv
  -- both runs change the environment alike and no instances, so they notice a cancellation together
  refine (ended_eq_of_worksAlike hbuild hbuild' hsound hsound'
    (R := fun a b ↦ a.instances = r.world.instances ∧ b.instances = r'.world.instances ∧
      b.environment = a.environment ∧
      a.environment.cancellations s.number + w.environment.cancellations t.number =
        a.environment.cancellations t.number + w.environment.cancellations s.number)
    ⟨rfl, rfl, hbegin'.trans hbegin.symm, by rw [hbegin]; exact Nat.add_comm _ _⟩
    (fun a b _ _ hab ↦ hab) (fun a b hab ↦ ?_)
    fun node hnode i j hactor hother inputs a b hab ↦ ?_).imp_right fun hab ↦ hab.2.2.1
  · obtain ⟨-, -, hsame, hcount⟩ := hab
    change decide (r'.world.environment.cancellations t.number <
        b.environment.cancellations t.number) =
      decide (r.world.environment.cancellations s.number < a.environment.cancellations s.number)
    rw [hbegin, hbegin', hsame]
    exact decide_eq_decide.mpr (by omega)
  · obtain ⟨hinstances, hinstances', hsame, hcount⟩ := hab
    have halike := hstands.holding hbuild hsound hsound' hnode
    obtain ⟨outcome, env, henv', hfirst, hsecond⟩ := halike.result_execute (hinstances ▸ hactor)
      (hinstances' ▸ hother) hsame (trainless_of_build hbuild node hnode) inputs
    have hcancel := hcancels g hbuild node hnode inputs (s.holding start node).fit a.environment
    rw [← behavior_holding (hs.serves.of_kept hquiet.kept) hbuild hnode, ← henv'] at hcancel
    rw [hfirst, hsecond]
    exact ⟨rfl, hinstances, hinstances', rfl, by dsimp only; omega⟩

/-! ### Exporting after a training -/

/-- The actors of the pipeline can be persisted: what a training of a stateful one leaves behind is
persisted by some bytes. -/
def Persistent (s : Session ε σ) : Prop :=
  ∀ leaf ∈ s.workflow.pipeline.expression.leaves, leaf.spec.stateful = true →
    ∀ fit, leaf.spec.behavior.Learns fit → ∃ bytes, leaf.spec.behavior.Persists fit bytes

/-- A group of the pipeline has a member as a training leaves it, and if the group is stateful these
bytes persist what the member has learnt. -/
def Persisted (s : Session ε σ) (w : World ε σ) (entry : GroupId × Spec ε σ) (bytes : Bytes) :
    Prop :=
  ∃ member actor, s.roster.member? entry.1 = some member ∧ member.trained = entry.2.stateful ∧
    w.instances[member.actor]? = some actor ∧ entry.2.Taught actor ∧
      (entry.2.stateful = true → entry.2.behavior.Persists actor.fit bytes)

/-- Every group of the pipeline is persisted by its bytes. -/
def TaughtAs (s : Session ε σ) (w : World ε σ) (bytes : GroupId → Bytes) : Prop :=
  ∀ entry ∈ s.workflow.groupsIn 0, s.Persisted w entry (bytes entry.1)

omit [Inhabited σ] in
theorem Taught.exists_persisted (h : s.Taught w) (hpersistent : s.Persistent)
    {entry : GroupId × Spec ε σ} (hentry : entry ∈ s.workflow.groupsIn 0) :
    ∃ bytes, s.Persisted w entry bytes := by
  obtain ⟨member, actor, hmember, htrained, hactor, htaught⟩ := h entry hentry
  cases hstateful : entry.2.stateful with
  | false =>
    refine ⟨[], member, actor, hmember, htrained, hactor, htaught, fun h ↦ ?_⟩
    rw [hstateful] at h
    cases h
  | true =>
    obtain ⟨i, leaf, hleaf, rfl⟩ := exists_leaf_of_mem_groupsFrom hentry
    obtain ⟨bytes, hbytes⟩ := hpersistent leaf (List.mem_of_getElem? hleaf) hstateful _
      (htaught.learns hstateful)
    exact ⟨bytes, member, actor, hmember, htrained, hactor, htaught, fun _ ↦ hbytes⟩

omit [Inhabited σ] in
theorem Taught.exists_bytes (h : s.Taught w) (hpersistent : s.Persistent) :
    ∃ bytes, s.TaughtAs w bytes := by
  have hgroup : ∀ group, ∃ bytes, ∀ entry ∈ s.workflow.groupsIn 0, entry.1 = group →
      s.Persisted w entry bytes := by
    intro group
    by_cases hlisted : ∃ entry ∈ s.workflow.groupsIn 0, entry.1 = group
    · obtain ⟨entry, hentry, rfl⟩ := hlisted
      obtain ⟨bytes, hbytes⟩ := h.exists_persisted hpersistent hentry
      refine ⟨bytes, ?_⟩
      -- there is no other entry for the group
      rintro ⟨group, other⟩ hother rfl
      obtain rfl := Workflow.spec_eq_of_mem_groupsIn hother hentry
      exact hbytes
    · exact ⟨[], fun entry hentry hsame ↦ absurd ⟨entry, hentry, hsame⟩ hlisted⟩
  choose bytes hbytes using hgroup
  exact ⟨bytes, fun entry hentry ↦ hbytes entry.1 entry hentry rfl⟩

/-- After a training the groups that count as trained are the stateful ones. -/
theorem TaughtAs.isTrained_iff {bytes : GroupId → Bytes} (h : s.TaughtAs w bytes)
    (hserves : s.Serves w) (hbuild : s.build .apply = .ok g) {group : GroupId} :
    s.roster.isTrained group = true ↔ group ∈ g.statefulGroups.map Prod.fst := by
  rw [Roster.isTrained_iff]
  constructor
  · rintro ⟨member, hmember, htrained⟩
    have hlisted := hserves.listed group member hmember
    obtain ⟨found, actor, hfound, hstateful, -⟩ := h _ hlisted
    obtain rfl := Option.some.inj (hmember.symm.trans hfound)
    exact List.mem_map_of_mem (a := (group, member.spec))
      ((mem_statefulGroups hbuild (by decide)).mpr ⟨hlisted, hstateful.symm.trans htrained⟩)
  · intro hmem
    obtain ⟨entry, hentry, rfl⟩ := List.mem_map.mp hmem
    obtain ⟨hlisted, hstateful⟩ := (mem_statefulGroups hbuild (by decide)).mp hentry
    obtain ⟨member, actor, hmember, htrained, -⟩ := h entry hlisted
    exact ⟨member, hmember, htrained.trans hstateful⟩

omit [Inhabited σ] in
theorem TaughtAs.exports {bytes : GroupId → Bytes} (h : s.TaughtAs w bytes) (hserves : s.Serves w) :
    s.roster.Exports w bytes := by
  rintro ⟨group, member⟩ hmem htrained
  have hmember := hserves.tidy.member?_of_mem hmem
  obtain ⟨found, actor, hfound, hstateful, hactor, htaught, hpersists⟩ :=
    h _ (hserves.listed group member hmember)
  obtain rfl := Option.some.inj (hmember.symm.trans hfound)
  refine ⟨actor, hactor, ?_⟩
  rw [htaught.behavior]
  exact (hpersists (hstateful.symm.trans htrained)).exported

/-- After a training a session is exported as one state for each stateful group. -/
theorem TaughtAs.exists_exported {bytes : GroupId → Bytes} (h : s.TaughtAs w bytes)
    (hserves : s.Serves w) (hbuild : s.build .apply = .ok g) :
    ∃ (snapshot : Snapshot) (listed : List (GroupId × Spec ε σ)) (last : World ε σ),
      (∀ order, Action.result (s.exportState order) w = (.ok snapshot, last)) ∧
        Snapshot.Sorted snapshot.states ∧ listed.Perm g.statefulGroups ∧
          snapshot.states = listed.map fun entry ↦ Snapshot.entry bytes entry.1 := by
  obtain ⟨snapshot, hresult, hsorted, hperm⟩ := (h.exports hserves).exists_exportAll hserves.tidy
  have hgroups : s.roster.trainedGroups.Perm (g.statefulGroups.map Prod.fst) := by
    refine (List.perm_ext_iff_of_nodup (Roster.nodup_trainedGroups hserves.tidy)
      (nodup_statefulGroups hbuild (by decide))).mpr fun group ↦ ?_
    rw [Roster.mem_trainedGroups hserves.tidy]
    exact h.isTrained_iff hserves hbuild
  have hstates := (hgroups.map (Snapshot.entry bytes)).symm.trans hperm
  rw [List.map_map] at hstates
  obtain ⟨listed, hlisted, hmap⟩ := exists_perm_map hstates
  refine ⟨snapshot, listed, w.told (.stateExported snapshot.size), fun order ↦ ?_, hsorted, hlisted,
    hmap.symm⟩
  rw [exportState]
  simp only [Action.result_bind, hresult order, Action.result_tell, Action.result_pure]

/-! ### Loading on a new session -/

/-- The stateful groups of an application graph can be read from their texts. -/
theorem restorable_of_perm (hbuild : s.build .apply = .ok g)
    (hnumbers : s.workflow.pipeline.expression.leaves.length ≤ UInt32.size)
    {listed : List (GroupId × Spec ε σ)} (hperm : listed.Perm g.statefulGroups) :
    Roster.Restorable (s.workflow.groupsIn 0) listed := by
  rintro ⟨group, spec⟩ hentry
  obtain ⟨hlisted, hstateful⟩ :=
    (mem_statefulGroups hbuild (by decide)).mp (hperm.mem_iff.mp hentry)
  obtain ⟨i, leaf, hleaf, ⟨⟩⟩ := exists_leaf_of_mem_groupsFrom hlisted
  have hscope : 0 < UInt32.size := by decide
  have hordinal : i < UInt32.size :=
    Nat.lt_of_lt_of_le (List.getElem?_eq_some_iff.mp hleaf).1 hnumbers
  exact ⟨lookup_of_mem (s.workflow.nodup_groupsIn 0) hlisted, hstateful, hscope, hordinal⟩

/-- What a group has after a training applies as a new instance that has loaded its state, if any. -/
theorem TaughtAs.alike {bytes : GroupId → Bytes} (h : s.TaughtAs w bytes) (hserves : s.Serves w)
    (hbuild : s.build .apply = .ok g) {listed : List (GroupId × Spec ε σ)}
    (hperm : listed.Perm g.statefulGroups) {group : GroupId} {actor : Instance ε σ}
    (hheld : s.roster.held w s.specs group = some actor) :
    ∃ other, (s.specs.lookup group).map (Roster.reloaded bytes listed group) = some other ∧
      actor.AppliesAlike other := by
  rw [specs_of_build hbuild] at hheld ⊢
  obtain ⟨spec, hlisted⟩ : ∃ spec, (group, spec) ∈ s.workflow.groupsIn 0 := by
    cases hmember : s.roster.member? group with
    | some member => exact ⟨member.spec, hserves.listed group member hmember⟩
    | none =>
      rw [Roster.held_of_none hmember] at hheld
      obtain ⟨spec, hlookup, -⟩ := Option.map_eq_some_iff.mp hheld
      obtain ⟨front, back, hsplit, -⟩ := List.lookup_eq_some_iff.mp hlookup
      exact ⟨spec, hsplit ▸ List.mem_append_right _ List.mem_cons_self⟩
  obtain ⟨member, found, hmember, -, hfound, htaught, hpersists⟩ := h _ hlisted
  rw [Roster.held_of_member hmember, hfound, Option.some.injEq] at hheld
  subst hheld
  have hstates : group ∈ listed.map Prod.fst ↔ spec.stateful = true := by
    rw [(hperm.map Prod.fst).mem_iff, ← contains_statefulGroups hbuild (by decide) hlisted,
      List.contains_iff_mem]
  refine ⟨_, by rw [lookup_of_mem (s.workflow.nodup_groupsIn 0) hlisted, Option.map_some], ?_⟩
  rw [Roster.reloaded]
  cases hstateful : spec.stateful with
  | false =>
    have hnone : group ∉ listed.map Prod.fst := by
      rw [hstates, hstateful]
      exact Bool.false_ne_true
    rw [if_neg hnone, htaught.stateless hstateful]
    exact .refl _
  | true =>
    rw [if_pos (hstates.mpr hstateful)]
    intro inputs env
    rw [htaught.behavior]
    exact (hpersists hstateful).restored inputs env

/-- A new session that loads the states of a session that has been trained can stand for it. -/
theorem TaughtAs.exists_restored {bytes : GroupId → Bytes} (h : s.TaughtAs w bytes)
    (hserves : s.Serves w) (hbuild : s.build .apply = .ok g)
    (hnumbers : s.workflow.pipeline.expression.leaves.length ≤ UInt32.size)
    {listed : List (GroupId × Spec ε σ)} (hperm : listed.Perm g.statefulGroups) (number : Nat)
    (v : World ε σ) :
    ∃ (t : Session ε σ) (last : World ε σ),
      Action.result ((s.runtime.launch number s.workflow).loadState
        ⟨listed.map fun entry ↦ Snapshot.entry bytes entry.1⟩) v = ((.ok (), t), last) ∧
      t.number = number ∧ v.Kept last ∧ last.environment = v.environment ∧
        t.StandsFor last s w := by
  let start : Session ε σ := s.runtime.launch number s.workflow
  let snapshot : Snapshot := ⟨listed.map fun entry ↦ Snapshot.entry bytes entry.1⟩
  have hstart : start.build .apply = .ok g := hbuild
  have hrestorable := restorable_of_perm hbuild hnumbers hperm
  have haccepts : ∀ entry ∈ listed, (entry.2.instantiate.loaded (bytes entry.1)).1 = .ok () := by
    intro entry hentry
    obtain ⟨hlisted, hstateful⟩ :=
      (mem_statefulGroups hbuild (by decide)).mp (hperm.mem_iff.mp hentry)
    obtain ⟨-, actor, -, -, -, -, hpersists⟩ := h entry hlisted
    exact (hpersists hstateful).accepted
  have hload := fun u : World ε σ ↦ Roster.result_load_entries hrestorable
    ((hperm.map Prod.fst).nodup_iff.mpr (nodup_statefulGroups hbuild (by decide))) haccepts u
  rw [← groups_of_build hbuild (by decide)] at hload
  cases loaded (s := start) (fun _ _ _ h ↦ nomatch h) snapshot v with
  | refused hrefused =>
    rw [hstart] at hrefused
    cases hrefused
  | @failed g' e graphs after begin last hbuild' hquiet hfaithful hfailed hresult =>
    obtain rfl : g = g' := Except.ok.inj (hstart.symm.trans hbuild')
    obtain ⟨after', last', hloaded, -⟩ := hload begin
    cases hfailed.symm.trans hloaded
  | @completed g' count graphs after begin last hbuild' hquiet hfaithful hloaded hresult =>
    obtain rfl : g = g' := Except.ok.inj (hstart.symm.trans hbuild')
    obtain ⟨former, last', hloaded', hgrown, hheld⟩ := hload begin
    obtain ⟨⟨hcount, rfl⟩, rfl⟩ : (count = listed.length ∧
        after = former.markTrained (listed.map Prod.fst)) ∧ last = last' := by
      have hsame := hloaded.symm.trans hloaded'
      simpa using hsame
    refine ⟨_, _, hresult, rfl, ?_, hgrown.environment.trans hquiet.environment, rfl, rfl,
      fun group ↦ ?_, fun group actor hactor ↦ ?_⟩
    · exact (hquiet.kept.trans ⟨hgrown.size_le, fun id hid ↦
        hgrown.elsewhere id hid fun _ _ hmember ↦ nomatch hmember⟩).trans
          (World.Quiet.told _ _).kept
    · rw [groups_of_build hbuild (by decide)] at hloaded
      exact Bool.eq_iff_iff.mpr ((Roster.isTrained_load_entries hrestorable hloaded group).trans
        ((hperm.map Prod.fst).mem_iff.trans (h.isTrained_iff hserves hbuild).symm))
    · have hspecs : s.specs = g.groups :=
        (specs_of_build hbuild).trans (groups_of_build hbuild (by decide)).symm
      have hafter : (former.markTrained (listed.map Prod.fst)).held
          (last.told (.stateLoaded listed.length)) s.specs group =
            (s.specs.lookup group).map (Roster.reloaded bytes listed group) := by
        rw [Roster.held_markTrained, Roster.held_quiet former (World.Quiet.told _ _), hspecs, hheld]
      exact hafter ▸ h.alike hserves hbuild hperm hactor

/-! ### Restored sessions -/

/-- When a session has been trained on a runner that executes, it is exported, as the same snapshot
whatever order its members are met in. The snapshot has one state for each stateful group of the
application graph, under the group's text, and it is read back from its own text. A new session of
the same workflow loads it, which adds instances to the world and leaves the others and the
environment as they are. From then on the new session gives the same as the trained one whenever
they are asked to apply in the same environment, and does the same to the environment, as long as
neither is trained or loads anything else.

The pipeline has no more leaves than the numbers in the texts of groups can tell apart, what its
actors learn can be persisted, and none of them cancels one of the two sessions and not the other. -/
theorem restored_applies_alike {runner : Option String} {report : Report} {number : Nat}
    (hreachable : s.Reachable w) (hrunner : s.runtime.registry.resolve runner = .ok found)
    (hexecutes : found.executes = true)
    (hok : (Action.result (s.invoke .train runner schedule) w).1.1 = .ok report)
    (hbuild : s.build .apply = .ok g)
    (hnumbers : s.workflow.pipeline.expression.leaves.length ≤ UInt32.size)
    (hpersistent : s.Persistent)
    (hcancels : ∀ node ∈ g.nodes, node.spec.behavior.CancelsAlike s.number number) :
    let trained := (Action.result (s.invoke .train runner schedule) w).1.2
    let start := (Action.result (s.invoke .train runner schedule) w).2
    ∃ (snapshot : Snapshot) (last : World ε σ),
      (∀ order, Action.result (trained.exportState order) start = (.ok snapshot, last)) ∧
      (snapshot.states.map Prod.fst).Perm (g.statefulGroups.map (·.1.text)) ∧
      (snapshot.states.map Prod.fst).Nodup ∧ Snapshot.parse snapshot.text = .ok snapshot ∧
      ∀ v : World ε σ, ∃ (restored : Session ε σ) (v' : World ε σ),
        Action.result ((s.runtime.launch number s.workflow).loadState snapshot) v =
          ((.ok (), restored), v') ∧
        v.Kept v' ∧ v'.environment = v.environment ∧
        ∀ s' w' t' u, trained.Rests start s' w' → restored.Rests v' t' u →
          u.environment = w'.environment → ∀ runner schedule,
            (Action.result (t'.invoke .apply runner schedule) u).1.1 =
                (Action.result (s'.invoke .apply runner schedule) w').1.1 ∧
              (Action.result (t'.invoke .apply runner schedule) u).2.environment =
                (Action.result (s'.invoke .apply runner schedule) w').2.environment := by
  intro trained start
  obtain ⟨-, hfaithful⟩ := hreachable.invariant
  have htrained : trained.Reachable start := hreachable.call (.invoke .train runner schedule)
  obtain ⟨graphs, phase, roster, hcall⟩ :=
    exists_call_eq hfaithful (.invoke .train runner schedule) w
  obtain ⟨hnumber, hworkflow, hruntime⟩ : trained.number = s.number ∧
      trained.workflow = s.workflow ∧ trained.runtime = s.runtime := by
    have hsame : trained = { s with graphs, phase, roster } := hcall
    rw [hsame]
    exact ⟨rfl, rfl, rfl⟩
  have hbuild' : trained.build .apply = .ok g :=
    (build_call hfaithful (.invoke .train runner schedule) w .apply).trans hbuild
  have hserves := htrained.serves
  have htaught : trained.Taught start :=
    taught_of_train hreachable.serves hfaithful hrunner hexecutes hok
  obtain ⟨bytes, hbytes⟩ := htaught.exists_bytes (by rw [Persistent, hworkflow]; exact hpersistent)
  obtain ⟨⟨states⟩, listed, last, hexport, hsorted, hperm, rfl⟩ :=
    hbytes.exists_exported hserves hbuild'
  refine ⟨_, last, hexport, ?_, hsorted.nodup_keys, Snapshot.parse_text hsorted,
    fun v ↦ ?_⟩
  · rw [List.map_map]
    exact hperm.map fun entry ↦ entry.1.text
  obtain ⟨restored, v', hload, hnumber', hkept, henv, hstands⟩ :=
    hbytes.exists_restored hserves hbuild' (by rw [hworkflow]; exact hnumbers) hperm number v
  rw [hworkflow, hruntime] at hload
  refine ⟨restored, v', hload, hkept, henv, fun s' w' t' u hs ht hsame runner schedule ↦ ?_⟩
  have hrestored : restored.Reachable v' := by
    have hcalled := (Reachable.launch s.runtime number s.workflow v).call
      (.loadState ⟨listed.map fun entry ↦ Snapshot.entry bytes entry.1⟩)
    simp only [call, Action.result_bind, hload, Action.result_pure] at hcalled
    exact hcalled
  have hsteady := hs.steady htrained
  have hsteady' := ht.steady hrestored
  refine (hstands.steady hsteady hsteady').apply_eq hsteady.reachable hsteady'.reachable hsame
    (fun g' hbuild'' node hnode ↦ ?_) runner schedule
  obtain rfl : g = g' := by
    rw [build, hsteady.workflow, hsteady.runtime, ← build, hbuild'] at hbuild''
    exact Except.ok.inj hbuild''
  rw [hsteady.number, hsteady'.number, hnumber, hnumber']
  exact hcancels node hnode

/-- A gauge whose number counts its trainings. -/
def tally : Spec Unit Nat where
  name := "tally"
  stateful := true
  behavior := { gauge.behavior with train := fun _ _ fit env ↦ (.ok (), fit + 1, env) }

theorem functional_tally : tally.behavior.Functional where
  result inputs fit env other := by
    simp only [tally, gauge]
    split <;> rfl
  environment inputs fit env := by
    simp only [tally, gauge]
    split <;> rfl

/-- A session of two tallies in sequence. -/
def tallies : Session Unit Nat :=
  Runtime.launch ⟨{ runners := [.sequential] },
    .ofTables [("rows", ⟨["x", "y"], [[.int 1, .text "a"]]⟩)], .collecting⟩ 0
    ⟨⟨"rows", some "y"⟩, ⟨0, .sequence (.mapper tally) (.mapper tally)⟩, none⟩

theorem spec_of_mem_tallies {leaf : Leaf Unit Nat}
    (h : leaf ∈ tallies.workflow.pipeline.expression.leaves) : leaf.spec = tally := by
  rcases List.mem_cons.mp h with rfl | h
  · rfl
  · obtain rfl := List.mem_singleton.mp h
    rfl

theorem persistent_tallies : tallies.Persistent := by
  rintro leaf hleaf - fit ⟨data, label, env, -, rfl⟩
  rw [spec_of_mem_tallies hleaf]
  exact ⟨[1], rfl, rfl, fun _ _ ↦ rfl⟩

theorem functional_tallies : ∀ g, tallies.build .apply = .ok g →
    ∀ node ∈ g.nodes, node.spec.behavior.Functional := by
  refine functional_of_leaves (fun producer hproducer ↦ ?_) ?_ fun leaf hleaf ↦ ?_
  · cases hproducer
    exact Behavior.functional_pure _
  · exact Behavior.functional_pure _
  · rw [spec_of_mem_tallies hleaf]
    exact functional_tally

/-- Two tallies have been trained once and add two cells. So does a session that loads what they
export. -/
theorem restored_applies_alike_tallies :
    let trained := (Action.result (tallies.invoke .train none .inOrder) (World.new ())).1.2
    let start := (Action.result (tallies.invoke .train none .inOrder) (World.new ())).2
    cells (Action.result (trained.invoke .apply none .inOrder) start).1.1 = some 2 ∧
    ∃ snapshot restored v',
      (∀ order, (Action.result (trained.exportState order) start).1 = .ok snapshot) ∧
      Action.result ((tallies.runtime.launch 1 tallies.workflow).loadState snapshot) start =
        ((.ok (), restored), v') ∧
      (Action.result (restored.invoke .apply none .inOrder) v').1.1 =
        (Action.result (trained.invoke .apply none .inOrder) start).1.1 := by
  obtain ⟨g, hbuild⟩ := exists_eq_ok (by decide +kernel : (tallies.build .apply).isOk = true)
  obtain ⟨report, hok⟩ := exists_eq_ok (by decide +kernel :
    (Action.result (tallies.invoke .train none .inOrder) (World.new ())).1.1.isOk = true)
  have hcells : cells (Action.result
      ((Action.result (tallies.invoke .train none .inOrder) (World.new ())).1.2.invoke .apply none
        .inOrder) (Action.result (tallies.invoke .train none .inOrder) (World.new ())).2).1.1 =
      some 2 := by
    decide +kernel
  have hreachable : tallies.Reachable (World.new ()) := .launch _ _ _ _
  have hrestored := restored_applies_alike hreachable
    (rfl : tallies.runtime.registry.resolve none = .ok .sequential) rfl hok hbuild (by decide)
    persistent_tallies fun node hnode ↦
      (functional_tallies g hbuild node hnode).cancelsAlike tallies.number 1
  generalize Action.result (tallies.invoke .train none .inOrder) (World.new ()) = outcome
    at hcells hrestored ⊢
  obtain ⟨snapshot, last, hexport, -, -, -, hrestores⟩ := hrestored
  obtain ⟨restored, v', hload, -, henv, halike⟩ := hrestores outcome.2
  refine ⟨hcells, snapshot, restored, v', fun order ↦ congrArg Prod.fst (hexport order), hload, ?_⟩
  exact (halike _ _ _ _ .refl .refl henv none .inOrder).1

end Session

end Dataflow
