import Dataflow.Proofs.FailedLoads
import Dataflow.Proofs.Invocations

/-!
# The members of a session

Train and apply graphs take the same groups, one for each leaf of the pipeline, and give a group to
nodes of that leaf's actor only (`Session.mem_groupsIn`). So whatever a session has been through, its
members are what the pipeline says: a member belongs to a leaf's group, was made from the leaf's
spec, and its instance still behaves as the spec does (`Session.Reachable.serves`).
-/

set_option autoImplicit false
set_option relaxedAutoImplicit false

namespace Dataflow

variable {ε σ α β : Type}

/-- In a list with distinct keys every entry is found by its key. -/
theorem lookup_of_mem [BEq α] [LawfulBEq α] {l : List (α × β)} (h : (l.map Prod.fst).Nodup) {a : α}
    {b : β} (hmem : (a, b) ∈ l) : l.lookup a = some b := by
  obtain ⟨front, back, rfl⟩ := List.append_of_mem hmem
  refine List.lookup_eq_some_iff.mpr ⟨front, back, rfl, fun entry hentry ↦ ?_⟩
  rw [bne_iff_ne]
  rintro rfl
  rw [List.map_append, List.map_cons, List.nodup_append] at h
  exact h.2.2 _ (List.mem_map_of_mem hentry) _ List.mem_cons_self rfl

/-- No group is taken twice in one expansion of the pipeline. -/
theorem Workflow.nodup_groupsIn (flow : Workflow ε σ) (scope : Nat) :
    ((flow.groupsIn scope).map Prod.fst).Nodup := by
  refine List.pairwise_map.mpr ?_
  refine (inGroupOrder_groupsFrom scope 0 flow.pipeline.expression.leaves).imp ?_
  exact fun hbefore ↦ (GroupId.ne_of_before hbefore).symm

/-- A group has one spec. -/
theorem Workflow.spec_eq_of_mem_groupsIn {flow : Workflow ε σ} {scope : Nat} {group : GroupId}
    {spec other : Spec ε σ} (h : (group, spec) ∈ flow.groupsIn scope)
    (h' : (group, other) ∈ flow.groupsIn scope) : spec = other := by
  have hfound := lookup_of_mem (flow.nodup_groupsIn scope) h
  rw [lookup_of_mem (flow.nodup_groupsIn scope) h', Option.some.injEq] at hfound
  exact hfound.symm

namespace Roster

variable {flow : Workflow ε σ} {roster : Roster ε σ} {w v : World ε σ}

theorem Tidy.member?_of_mem (h : roster.Tidy) {group : GroupId} {member : Member ε σ}
    (hmem : (group, member) ∈ roster) : roster.member? group = some member :=
  lookup_of_mem h hmem

/-- What a group holds after a snapshot is what it held, with another fit state. -/
theorem exists_of_restored_eq_some {specs : List (GroupId × Spec ε σ)} {snapshot : Snapshot}
    {group : GroupId} {after : Instance ε σ}
    (h : roster.restored w snapshot specs group = some after) :
    ∃ actor, roster.held w specs group = some actor ∧ after.behavior = actor.behavior := by
  unfold restored at h
  cases hread : snapshot.states.mapM (decodeEntry specs) with
  | error e =>
    rw [hread] at h
    exact ⟨after, h, rfl⟩
  | ok entries =>
    rw [hread] at h
    dsimp only at h
    rw [Holding.foldl_load] at h
    obtain ⟨actor, hactor, rfl⟩ := Option.map_eq_some_iff.mp h
    exact ⟨actor, hactor, actor.behavior_loadedAll _⟩

/-- The members of a roster are instances of the actors of a workflow's pipeline. -/
structure Serves (roster : Roster ε σ) (flow : Workflow ε σ) (w : World ε σ) : Prop where
  tidy : roster.Tidy
  listed : ∀ group member, roster.member? group = some member →
    (group, member.spec) ∈ flow.groupsIn 0
  behavior : ∀ group member, roster.member? group = some member →
    ∃ actor, w.instances[member.actor]? = some actor ∧ actor.behavior = member.spec.behavior

namespace Serves

theorem empty (flow : Workflow ε σ) (w : World ε σ) : (Roster.empty : Roster ε σ).Serves flow w where
  tidy := tidy_empty
  listed _ _ h := nomatch h
  behavior _ _ h := nomatch h

/-- A member has the spec that the workflow has for its group. -/
theorem spec_eq (h : roster.Serves flow w) {group : GroupId} {member : Member ε σ}
    (hmember : roster.member? group = some member) {spec : Spec ε σ}
    (hlisted : (group, spec) ∈ flow.groupsIn 0) : member.spec = spec :=
  Workflow.spec_eq_of_mem_groupsIn (h.listed group member hmember) hlisted

/-- Members may change their fit states. -/
theorem evolve (h : roster.Serves flow w)
    (hkept : ∀ group member actor, roster.member? group = some member →
      w.instances[member.actor]? = some actor →
        ∃ later, v.instances[member.actor]? = some later ∧ later.behavior = actor.behavior) :
    roster.Serves flow v where
  tidy := h.tidy
  listed := h.listed
  behavior group member hmember := by
    obtain ⟨actor, hactor, hbehavior⟩ := h.behavior group member hmember
    obtain ⟨later, hlater, hsame⟩ := hkept group member actor hmember hactor
    exact ⟨later, hlater, hsame.trans hbehavior⟩

theorem spawned (h : roster.Serves flow w) (spec : Spec ε σ) :
    roster.Serves flow (w.spawned spec) := by
  refine h.evolve fun group member actor hmember hactor ↦ ⟨actor, ?_, rfl⟩
  obtain ⟨hlt, -⟩ := Array.getElem?_eq_some_iff.mp hactor
  rw [World.instances_spawned_of_lt hlt, hactor]

theorem put_spawned (h : roster.Serves flow w) {group : GroupId} {spec : Spec ε σ}
    (hlisted : (group, spec) ∈ flow.groupsIn 0) (trained : Bool) :
    (roster.put group ⟨spec, w.instances.size, trained⟩).Serves flow (w.spawned spec) where
  tidy := h.tidy.put group _
  listed other member hmember := by
    rw [member?_put] at hmember
    split_ifs at hmember with hsame
    · rw [hsame, ← Option.some.inj hmember]
      exact hlisted
    · exact h.listed other member hmember
  behavior other member hmember := by
    rw [member?_put] at hmember
    split_ifs at hmember with hsame
    · rw [← Option.some.inj hmember]
      exact ⟨_, World.instances_spawned_self w spec, rfl⟩
    · exact (h.spawned spec).behavior other member hmember

theorem claim (h : roster.Serves flow w) {node : Node ε σ}
    (hnode : ∀ group, node.group = some group → (group, node.spec) ∈ flow.groupsIn 0) :
    (Action.result (roster.claim node) w).1.2.Serves flow
      (Action.result (roster.claim node) w).2 := by
  rcases roster.result_claim node w with ⟨group, member, -, -, hclaim⟩ |
    ⟨group, hgroup, -, hclaim⟩ | ⟨-, hclaim⟩
  · rw [hclaim]
    exact h
  · rw [hclaim]
    exact h.put_spawned (hnode group hgroup) false
  · rw [hclaim]
    exact h.spawned node.spec

theorem bind {nodes : List (Node ε σ)} (h : roster.Serves flow w)
    (hnodes : ∀ node ∈ nodes, ∀ group, node.group = some group →
      (group, node.spec) ∈ flow.groupsIn 0) :
    (Action.result (bind nodes roster) w).1.2.Serves flow
      (Action.result (bind nodes roster) w).2 := by
  induction nodes generalizing roster w with
  | nil => exact h
  | cons node rest ih =>
    rw [result_bind_cons]
    exact ih (h.claim (hnodes node List.mem_cons_self))
      fun other hother ↦ hnodes other (List.mem_cons_of_mem _ hother)

theorem markTrained (h : roster.Serves flow w) (groups : List GroupId) :
    (roster.markTrained groups).Serves flow w := by
  have hfound : ∀ group member, (roster.markTrained groups).member? group = some member →
      ∃ found, roster.member? group = some found ∧ found.spec = member.spec ∧
        found.actor = member.actor := by
    intro group member hmember
    rw [member?_markTrained] at hmember
    obtain ⟨found, hfound, rfl⟩ := Option.map_eq_some_iff.mp hmember
    refine ⟨found, hfound, ?_⟩
    split_ifs <;> exact ⟨rfl, rfl⟩
  refine ⟨h.tidy.markTrained groups, fun group member hmember ↦ ?_,
    fun group member hmember ↦ ?_⟩
  · obtain ⟨found, hfound, hspec, -⟩ := hfound group member hmember
    exact hspec ▸ h.listed group found hfound
  · obtain ⟨found, hfound, hspec, hactor⟩ := hfound group member hmember
    rw [← hspec, ← hactor]
    exact h.behavior group found hfound

theorem commit {staged : Roster ε σ} (h : roster.Serves flow w) (hstaged : staged.Serves flow w)
    (groups : List GroupId) : (roster.commit staged groups).Serves flow w := by
  have hcases : ∀ group member,
      (staged.foldl (fun roster entry ↦ roster.put entry.1 entry.2) roster).member? group =
          some member →
        staged.member? group = some member ∨ roster.member? group = some member := by
    intro group member hmember
    rw [member?_foldl_put hstaged.tidy, Option.or_eq_some_iff] at hmember
    exact hmember.imp_right And.right
  refine markTrained ⟨h.tidy.foldl_put staged, fun group member hmember ↦ ?_,
    fun group member hmember ↦ ?_⟩ groups
  · exact (hcases group member hmember).elim (hstaged.listed group member) (h.listed group member)
  · exact (hcases group member hmember).elim (hstaged.behavior group member)
      (h.behavior group member)

theorem of_kept (h : roster.Serves flow w) (hkept : w.Kept v) : roster.Serves flow v :=
  h.evolve fun _ _ actor _ hactor ↦ ⟨actor, hkept.instances_eq_some hactor, rfl⟩

/-- A roster serves a workflow also after it has loaded states for the workflow's groups. -/
theorem load (h : roster.Serves flow w) (hsound : roster.Sound w) (snapshot : Snapshot) :
    (Action.result (roster.load snapshot (flow.groupsIn 0)) w).1.2.Serves flow
      (Action.result (roster.load snapshot (flow.groupsIn 0)) w).2 := by
  have hgrown : ∀ {after : Roster ε σ} {last : World ε σ},
      Grown (flow.groupsIn 0) roster w after last →
      after.held last (flow.groupsIn 0) = roster.restored w snapshot (flow.groupsIn 0) →
        after.Serves flow last := by
    intro after last hgrown hheld
    have hlisted : ∀ group member, after.member? group = some member →
        (group, member.spec) ∈ flow.groupsIn 0 := by
      intro group member hmember
      cases hroster : roster.member? group with
      | none =>
        obtain ⟨-, -, hlookup, -⟩ := hgrown.added group member hroster hmember
        obtain ⟨front, back, hsplit, -⟩ := List.lookup_eq_some_iff.mp hlookup
        rw [hsplit]
        exact List.mem_append_right _ List.mem_cons_self
      | some found =>
        rw [← Option.some.inj ((hgrown.kept group found hroster).symm.trans hmember)]
        exact h.listed group found hroster
    refine ⟨hgrown.tidy h.tidy, hlisted, fun group member hmember ↦ ?_⟩
    have hactor := Array.getElem?_eq_getElem (hgrown.sound.lt group member hmember)
    have hrestored := hactor
    rw [← held_of_member hmember, hheld] at hrestored
    obtain ⟨actor, hbefore, hsame⟩ := exists_of_restored_eq_some hrestored
    refine ⟨_, hactor, hsame.trans ?_⟩
    cases hroster : roster.member? group with
    | none =>
      rw [held_of_none hroster, lookup_of_mem (flow.nodup_groupsIn 0) (hlisted group member hmember),
        Option.map_some, Option.some.injEq] at hbefore
      rw [← hbefore]
      rfl
    | some found =>
      obtain ⟨actor', hactor', hbehavior⟩ := h.behavior group found hroster
      rw [held_of_member hroster, hactor', Option.some.injEq] at hbefore
      rw [← hbefore, hbehavior,
        Option.some.inj ((hgrown.kept group found hroster).symm.trans hmember)]
  rcases roster.result_load hsound snapshot with ⟨e, -, hload⟩ |
    ⟨entries, after, last, -, hafter, hheld, ⟨e, -, hload⟩ | ⟨-, hload⟩⟩
  · rw [hload]
    exact h
  · rw [hload]
    exact hgrown hafter hheld
  · rw [hload]
    exact (hgrown hafter hheld).markTrained _

end Serves

end Roster

namespace Session

variable {s : Session ε σ} {w : World ε σ} {mode : Mode} {g : Graph ε σ}

/-- The members of a session are instances of the actors of its pipeline. -/
def Serves (s : Session ε σ) (w : World ε σ) : Prop :=
  s.roster.Serves s.workflow w

theorem Serves.base (h : s.Serves w) (mode : Mode) : (s.base mode).Serves s.workflow w := by
  cases mode with
  | train => exact .empty s.workflow w
  | eval => exact .empty s.workflow w
  | apply => exact h

variable [Inhabited σ]

/-! ### The groups of train and apply graphs -/

theorem groups_of_build (h : s.build mode = .ok g) (hmode : mode ≠ .eval) :
    g.groups = s.workflow.groupsIn 0 := by
  obtain ⟨producer, -, hcompiled⟩ := Workflow.graph_ok h
  exact hcompiled.groups_eq hmode

/-- A node of a group has the spec that the pipeline has for the group. -/
theorem mem_groupsIn (h : s.build mode = .ok g) (hmode : mode ≠ .eval) {node : Node ε σ}
    (hnode : node ∈ g.nodes) {group : GroupId} (hgroup : node.group = some group) :
    (group, node.spec) ∈ s.workflow.groupsIn 0 := by
  obtain ⟨producer, -, hcompiled⟩ := Workflow.graph_ok h
  obtain ⟨make, hmiddle⟩ := s.workflow.exists_middleRoles_eq hmode
  refine hcompiled.forall_role
    (p := fun role ↦ ∀ group, role.group = some group → (group, role.spec) ∈ s.workflow.groupsIn 0)
    (fun _ hplain ↦ nomatch hplain) (fun _ hplain ↦ nomatch hplain) (fun role hrole ↦ ?_)
    node hnode group hgroup
  intro group hgroup
  rw [hmiddle] at hrole
  rcases List.mem_append.mp hrole with hrole | hrole
  · obtain ⟨spec, rfl⟩ := Workflow.eq_plain_of_mem_labelRoles hrole
    cases hgroup
  · obtain ⟨i, leaf, hleaf, hmem⟩ := mem_rolesFrom hrole
    obtain ⟨hspec, hown⟩ := Leaf.group_of_mem_roles hmem
    rw [hspec, ← Option.some.inj (hown.symm.trans hgroup), Nat.zero_add]
    exact mem_groupsFrom_of_getElem? hleaf 0

/-! ### Reachable sessions -/

/-- The roster on which a training or an application has worked serves the workflow. -/
theorem serves_staging (h : s.Serves w) (hbuild : s.build mode = .ok g)
    (hmode : mode ≠ .eval) (found : Runner) (schedule : Schedule) :
    (s.staging mode g found schedule w).roster.Serves s.workflow
      (s.staging mode g found schedule w).ended.2 := by
  have hstaged : (s.staging mode g found schedule w).roster.Serves s.workflow
      (s.staging mode g found schedule w).world := by
    change (Action.result ((s.base mode).engage found g) w).1.2.Serves s.workflow
      (Action.result ((s.base mode).engage found g) w).2
    unfold Roster.engage
    split_ifs
    · exact (h.base mode).bind fun node hnode group hgroup ↦
        mem_groupsIn hbuild hmode hnode hgroup
    · exact h.base mode
  have hevolves := Runner.evolves_run (sound_of_build hbuild) found
    (s.staging mode g found schedule w).context (s.staging mode g found schedule w).world
  exact hstaged.evolve fun _ _ _ _ hactor ↦ hevolves.behavior hactor

/-- Whatever comes of a run, the session that keeps its roster serves the workflow. -/
theorem serves_keeping (h : s.Serves w) (hsound : s.roster.Sound w) (hbuild : s.build mode = .ok g)
    (found : Runner) (schedule : Schedule) :
    (s.keeping mode (s.staging mode g found schedule w)).Serves s.workflow
      (s.staging mode g found schedule w).ended.2 := by
  have hformer := Roster.Serves.of_kept h (kept_ended hsound hbuild found schedule)
  cases mode with
  | train =>
    have hstaged := serves_staging h hbuild (by decide) found schedule
    unfold keeping
    dsimp only
    split
    · split_ifs
      · exact hformer.commit hstaged _
      · exact hformer
    · exact hformer
  | eval => exact hformer
  | apply => exact serves_staging h hbuild (by decide) found schedule

theorem Serves.call (h : s.Serves w) (hsound : s.roster.Sound w) (hfaithful : s.Faithful)
    (c : Call) : (Action.result (s.call c) w).1.Serves (Action.result (s.call c) w).2 := by
  cases c with
  | invoke mode runner schedule =>
    change (Action.result (s.invoke mode runner schedule) w).1.2.Serves
      (Action.result (s.invoke mode runner schedule) w).2
    cases invoked hfaithful mode runner schedule w with
    | refused hstaging hresult hquiet hreason =>
      rw [hresult]
      exact Roster.Serves.of_kept h hquiet.kept
    | @ran r graphs start hstaging hresult hrunner hbuild hquiet hr hready =>
      rw [hresult, hr]
      exact serves_keeping (Roster.Serves.of_kept h hquiet.kept)
        (hsound.grow hquiet.kept.size_le) hbuild r.runner schedule
  | exportState order => exact Roster.Serves.of_kept h (quiet_exportState s order w).kept
  | cancel => exact Roster.Serves.of_kept h (.of_instances_eq rfl)
  | loadState snapshot =>
    change (Action.result (s.loadState snapshot) w).1.2.Serves
      (Action.result (s.loadState snapshot) w).2
    cases loaded hfaithful snapshot w with
    | refused hbuild hquiet hfaithful hresult =>
      rw [hresult]
      exact Roster.Serves.of_kept h hquiet.kept
    | failed hbuild hquiet hfaithful hload hresult =>
      have hloaded := (Roster.Serves.of_kept h hquiet.kept).load
        (hsound.grow hquiet.kept.size_le) snapshot
      rw [← groups_of_build hbuild (by decide), hload] at hloaded
      rw [hresult]
      exact hloaded
    | completed hbuild hquiet hfaithful hload hresult =>
      have hloaded := (Roster.Serves.of_kept h hquiet.kept).load
        (hsound.grow hquiet.kept.size_le) snapshot
      rw [← groups_of_build hbuild (by decide), hload] at hloaded
      rw [hresult]
      exact hloaded.of_kept (World.Quiet.told _ _).kept

/-- Whatever a session has been through, its members are instances of the actors of its pipeline. -/
theorem Reachable.serves (h : s.Reachable w) : s.Serves w := by
  induction h with
  | launch runtime number workflow w => exact .empty workflow w
  | @call s w h c ih => exact ih.call h.invariant.1 h.invariant.2 c
  | elsewhere h hsize hkept ih =>
    refine ih.evolve fun group member actor hmember hactor ↦ ⟨actor, ?_, rfl⟩
    rw [hkept group member hmember, hactor]

end Session

end Dataflow
