import Dataflow.Proofs.Members

/-!
# Calls that fit nothing

Only a training that succeeds on a runner that executes, and a call to load, can change what a
session gives later (`Session.Refits`). Any other call leaves all fit states and all marks as they
were, however it ends, and then an export gives the same snapshot as before it, or fails as it could
have failed before it, and an application gives the same as before it if applying is a function of
the inputs and the fit state (`Session.unchanged_of_not_refits`).

There are two reasons for this. A run leaves every instance alone that was there before it. And what
an application adds to the session are members that hold what a new instance holds, and do not count
as trained (`Roster.Widened`).
-/

set_option autoImplicit false
set_option relaxedAutoImplicit false

namespace Dataflow

variable {ε σ α : Type}

/-! ### Actors whose applying is a function -/

/-- Applying is a function of the inputs and the fit state: it neither looks at the environment nor
changes it. -/
structure Behavior.Functional (b : Behavior ε σ) : Prop where
  result : ∀ inputs fit env other, (b.apply inputs fit env).1 = (b.apply inputs fit other).1
  environment : ∀ inputs fit env, (b.apply inputs fit env).2 = env

theorem Behavior.functional_pure [Inhabited σ]
    (apply : List Payload → Except (Halt ActorError) Payload) :
    (Behavior.pure apply : Behavior ε σ).Functional where
  result _ _ _ _ := rfl
  environment _ _ _ := rfl

/-- Such an actor gives the same in every environment, and leaves the world as it is. -/
theorem result_execute_of_functional {node : Node ε σ} {id : InstanceId} {actor : Instance ε σ}
    {w : World ε σ} (hactor : w.instances[id]? = some actor)
    (hfunctional : actor.behavior.Functional) (hkind : node.kind ≠ .trainer) (env : Environment ε)
    (inputs : List Payload) :
    Action.result (execute node id inputs) w =
      (Halt.mapError (FlowError.ofActor node.label)
        (actor.applied env node.arity.outputs inputs), w) := by
  rw [result_execute_of_applied hactor hkind, hfunctional.environment, Instance.applied,
    Instance.applied, hfunctional.result inputs actor.fit w.environment env]

/-! ### Rosters with idle members -/

namespace Roster

variable {specs : List (GroupId × Spec ε σ)} {roster after : Roster ε σ} {w last : World ε σ}

theorem put_of_none {group : GroupId} (h : roster.member? group = none) (member : Member ε σ) :
    roster.put group member = roster ++ [(group, member)] := by
  induction roster with
  | nil => rfl
  | cons entry rest ih =>
    obtain ⟨g, m⟩ := entry
    rw [member?_cons] at h
    split_ifs at h with hgroup
    rw [put, if_neg hgroup, ih h]
    rfl

theorem member?_append (roster extra : Roster ε σ) (group : GroupId) :
    member? (roster ++ extra) group = (roster.member? group).or (extra.member? group) := by
  induction roster with
  | nil => rfl
  | cons entry rest ih =>
    obtain ⟨g, m⟩ := entry
    rw [List.cons_append, member?_cons, member?_cons, ih]
    split_ifs <;> rfl

/-- Binding nodes adds members that do not count as trained. -/
theorem exists_bind_append (nodes : List (Node ε σ)) (roster : Roster ε σ) (w : World ε σ) :
    ∃ extra, (Action.result (bind nodes roster) w).1.2 = roster ++ extra ∧
      ∀ entry ∈ extra, entry.2.trained = false := by
  induction nodes generalizing roster w with
  | nil => exact ⟨[], (List.append_nil roster).symm, fun _ hentry ↦ nomatch hentry⟩
  | cons node rest ih =>
    rw [result_bind_cons]
    rcases roster.result_claim node w with ⟨group, member, -, -, hclaim⟩ |
      ⟨group, -, hnone, hclaim⟩ | ⟨-, hclaim⟩
    · rw [hclaim]
      exact ih roster w
    · rw [hclaim, put_of_none hnone]
      obtain ⟨extra, hbound, huntrained⟩ :=
        ih (roster ++ [(group, ⟨node.spec, w.instances.size, false⟩)]) (w.spawned node.spec)
      refine ⟨(group, ⟨node.spec, w.instances.size, false⟩) :: extra, ?_, fun entry hentry ↦ ?_⟩
      · rw [hbound, List.append_assoc]
        rfl
      · rcases List.mem_cons.mp hentry with rfl | hentry
        · rfl
        · exact huntrained entry hentry
    · rw [hclaim]
      exact ih roster (w.spawned node.spec)

/-- A roster has at most got idle members: they do not count as trained, and hold what their groups
held without them. -/
structure Widened (specs : List (GroupId × Spec ε σ)) (roster : Roster ε σ) (w : World ε σ)
    (after : Roster ε σ) (last : World ε σ) : Prop where
  kept : w.Kept last
  split : ∃ extra, after = roster ++ extra ∧ ∀ entry ∈ extra, entry.2.trained = false
  held : after.held last specs = roster.held w specs

namespace Widened

/-- A roster with the same members, in a world where they are as they were. -/
theorem of_kept (hsound : roster.Sound w) (hkept : w.Kept last) :
    Widened specs roster w roster last where
  kept := hkept
  split := ⟨[], (List.append_nil roster).symm, fun _ hentry ↦ nomatch hentry⟩
  held := by
    funext group
    cases hmember : roster.member? group with
    | none => rw [held_of_none hmember, held_of_none hmember]
    | some member =>
      rw [held_of_member hmember, held_of_member hmember,
        hkept.held _ (hsound.lt group member hmember)]

theorem of_quiet {v : World ε σ} (hquiet : w.Quiet v) (h : Widened specs roster v after last) :
    Widened specs roster w after last where
  kept := hquiet.kept.trans h.kept
  split := h.split
  held := h.held.trans (roster.held_quiet hquiet)

theorem isTrained (h : Widened specs roster w after last) (group : GroupId) :
    after.isTrained group = roster.isTrained group := by
  obtain ⟨extra, rfl, huntrained⟩ := h.split
  unfold Roster.isTrained
  rw [member?_append]
  cases roster.member? group with
  | some member => rfl
  | none =>
    cases hextra : extra.member? group with
    | none => rfl
    | some member =>
      obtain ⟨front, back, hsplit, -⟩ := List.lookup_eq_some_iff.mp hextra
      have hentry : (group, member) ∈ extra := by
        rw [hsplit]
        exact List.mem_append_right _ List.mem_cons_self
      exact huntrained _ hentry

/-- Exporting passes over idle members. -/
theorem exists_shipped_iff (h : Widened specs roster w after last) (hsound : roster.Sound w)
    (htidy : roster.Tidy) {given : Except FlowError (Option (String × String))}
    (hgiven : given ≠ .ok none) :
    (∃ entry ∈ after, shipped last entry.1 entry.2 = given) ↔
      ∃ entry ∈ roster, shipped w entry.1 entry.2 = given := by
  obtain ⟨extra, rfl, huntrained⟩ := h.split
  have hkept : ∀ entry ∈ roster, shipped last entry.1 entry.2 = shipped w entry.1 entry.2 := by
    intro entry hentry
    rw [shipped, shipped, h.kept.held _ (hsound.lt _ _ (htidy.member?_of_mem hentry))]
  constructor
  · rintro ⟨entry, hentry, hshipped⟩
    obtain hold | hidle := List.mem_append.mp hentry
    · exact ⟨entry, hold, (hkept entry hold).symm.trans hshipped⟩
    · rw [shipped, huntrained entry hidle] at hshipped
      exact absurd hshipped.symm hgiven
  · rintro ⟨entry, hentry, hshipped⟩
    exact ⟨entry, List.mem_append_left _ hentry, (hkept entry hentry).trans hshipped⟩

theorem withholds_iff (h : Widened specs roster w after last) (hsound : roster.Sound w)
    (htidy : roster.Tidy) {e : FlowError} : after.Withholds last e ↔ roster.Withholds w e := by
  rw [Roster.withholds_iff, Roster.withholds_iff]
  exact h.exists_shipped_iff hsound htidy (by simp)

/-- The same snapshot is exported, whatever orders the members are met in. -/
theorem exportAll (h : Widened specs roster w after last) (hsound : roster.Sound w)
    (htidy : roster.Tidy) (htidy' : after.Tidy) (order order' : Order) (snapshot : Snapshot) :
    (Action.result (after.exportAll order') last).1 = .ok snapshot ↔
      (Action.result (roster.exportAll order) w).1 = .ok snapshot := by
  rw [result_exportAll_eq_ok_iff htidy, result_exportAll_eq_ok_iff htidy']
  refine and_congr (forall_congr' fun e ↦ not_congr (h.withholds_iff hsound htidy)) ?_
  refine and_congr_right' (forall_congr' fun x ↦ ?_)
  rw [h.exists_shipped_iff hsound htidy (by simp)]

end Widened

end Roster

/-! ### Applications on rosters that hold the same -/

namespace Session

variable {s t : Session ε σ} {w v : World ε σ} {g : Graph ε σ} {found : Runner}
  {schedule : Schedule}

/-- What the instance of a node holds when an application starts: what the node's group has, or a
new instance. -/
def holding (s : Session ε σ) (w : World ε σ) (node : Node ε σ) : Instance ε σ :=
  match node.group with
  | some group => s.roster.instanceOf w group node.spec
  | none => node.spec.instantiate

theorem Roster.held_eq_some {specs : List (GroupId × Spec ε σ)} {roster : Roster ε σ}
    (hsound : roster.Sound w) {group : GroupId} {spec : Spec ε σ}
    (hlookup : specs.lookup group = some spec) :
    roster.held w specs group = some (roster.instanceOf w group spec) := by
  cases hmember : roster.member? group with
  | none =>
    rw [Roster.held_of_none hmember, hlookup, Roster.instanceOf, hmember]
    rfl
  | some member =>
    rw [Roster.held_of_member hmember]
    exact Roster.instanceOf_eq_of_member hmember (hsound.lt group member hmember) spec

variable [Inhabited σ]

theorem specs_of_build (hbuild : s.build .apply = .ok g) : s.specs = s.workflow.groupsIn 0 := by
  rw [specs, hbuild]
  exact groups_of_build hbuild (by decide)

theorem lookup_specs (hbuild : s.build .apply = .ok g) {node : Node ε σ} (hnode : node ∈ g.nodes)
    {group : GroupId} (hgroup : node.group = some group) :
    s.specs.lookup group = some node.spec := by
  rw [specs_of_build hbuild]
  exact lookup_of_mem (s.workflow.nodup_groupsIn 0) (mem_groupsIn hbuild (by decide) hnode hgroup)

/-- The instance that a node gets for an application has the behaviour of the node's spec. -/
theorem behavior_holding (hserves : s.Serves w) (hbuild : s.build .apply = .ok g)
    {node : Node ε σ} (hnode : node ∈ g.nodes) :
    (s.holding w node).behavior = node.spec.behavior := by
  unfold holding
  cases hgroup : node.group with
  | none => rfl
  | some group =>
    dsimp only
    cases hmember : s.roster.member? group with
    | none =>
      rw [Roster.instanceOf, hmember]
      rfl
    | some member =>
      obtain ⟨actor, hactor, hbehavior⟩ := hserves.behavior group member hmember
      have hspec := hserves.spec_eq hmember (mem_groupsIn hbuild (by decide) hnode hgroup)
      rw [Roster.instanceOf, hmember, Option.bind_some, hactor, Option.getD_some, hbehavior, hspec]

/-- For an application every node gets what it holds. -/
theorem exists_bound (hsound : s.roster.Sound w) (hbuild : s.build .apply = .ok g)
    (hexecutes : found.executes = true) (schedule : Schedule) {node : Node ε σ}
    (hnode : node ∈ g.nodes) :
    ∃ id, (s.staging .apply g found schedule w).context.binding[node.id]? = some id ∧
      (s.staging .apply g found schedule w).world.instances[id]? = some (s.holding w node) := by
  rcases Roster.engaged hsound found g with ⟨-, hbound⟩ | ⟨hdraws, -⟩
  · have hat := (sound_of_build hbuild).wired.getElem?_id hnode
    unfold holding
    cases hgroup : node.group with
    | none =>
      obtain ⟨id, hid, -, hinstance, -⟩ := hbound.plain node.id node hat hgroup
      exact ⟨id, hid, hinstance⟩
    | some group =>
      obtain ⟨member, hmember, hid⟩ := hbound.grouped node.id node group hat hgroup
      refine ⟨member.actor, hid, hbound.start group member node.spec hmember ?_⟩
      intro other hother hsame
      have hlookup := lookup_specs hbuild hother hsame
      rw [lookup_specs hbuild hnode hgroup] at hlookup
      exact (Option.some.inj hlookup).symm
  · rw [hexecutes] at hdraws
    cases hdraws

/-- Two sessions of one workflow apply the same if what their nodes hold works alike, and they leave
their worlds related. -/
theorem ended_eq_of_worksAlike (hbuild : s.build .apply = .ok g) (hbuild' : t.build .apply = .ok g)
    (hsound : s.roster.Sound w) (hsound' : t.roster.Sound v) {R : World ε σ → World ε σ → Prop}
    (hstart : R (s.staging .apply g found schedule w).world
      (t.staging .apply g found schedule v).world)
    (htold : World.Deaf R)
    (hcancelled : ∀ a b, R a b →
      (t.staging .apply g found schedule v).context.cancelled b.environment =
        (s.staging .apply g found schedule w).context.cancelled a.environment)
    (hworks : ∀ node ∈ g.nodes, ∀ i j,
      (s.staging .apply g found schedule w).world.instances[i]? = some (s.holding w node) →
      (t.staging .apply g found schedule v).world.instances[j]? = some (t.holding v node) →
        WorksAlike R node i j) :
    (t.staging .apply g found schedule v).ended.1 =
        (s.staging .apply g found schedule w).ended.1 ∧
      R (s.staging .apply g found schedule w).ended.2
        (t.staging .apply g found schedule v).ended.2 := by
  let r := s.staging .apply g found schedule w
  let r' := t.staging .apply g found schedule v
  have hrelated : r.context.Related R g r'.context := by
    refine ⟨htold, hcancelled, rfl, fun node hnode ↦ ?_⟩
    by_cases hexecutes : found.executes = true
    · obtain ⟨i, hi, hactor⟩ := exists_bound hsound hbuild hexecutes schedule hnode
      obtain ⟨j, hj, hactor'⟩ := exists_bound hsound' hbuild' hexecutes schedule hnode
      exact .inr ⟨i, j, hi, hj, hworks node hnode i j hactor hactor'⟩
    · refine .inl ⟨?_, ?_⟩
      · simp [r, staging, context, Roster.engage, hexecutes]
      · simp [r', staging, context, Roster.engage, hexecutes]
  obtain ⟨hresults, hworlds⟩ := Runner.related_run hrelated found r.world r'.world hstart
  exact ⟨hresults.eq.symm, hworlds⟩

/-- Two sessions of one workflow that hold the same apply the same. -/
theorem ended_eq (hbuild : s.build .apply = .ok g) (hbuild' : t.build .apply = .ok g)
    (hserves : s.Serves w) (hsound : s.roster.Sound w) (hsound' : t.roster.Sound v)
    (hheld : t.roster.held v s.specs = s.roster.held w s.specs)
    (hfunctional : ∀ node ∈ g.nodes, node.spec.behavior.Functional) :
    (t.staging .apply g found schedule v).ended.1 =
      (s.staging .apply g found schedule w).ended.1 := by
  let r := s.staging .apply g found schedule w
  let r' := t.staging .apply g found schedule v
  -- Neither run changes its world but for the journal.
  refine (ended_eq_of_worksAlike hbuild hbuild' hsound hsound'
    (R := fun a b ↦ r.world.Quiet a ∧ r'.world.Quiet b) ⟨.refl _, .refl _⟩
    (fun a b message other hab ↦ ⟨hab.1.trans (.told a message), hab.2.trans (.told b other)⟩)
    (fun a b hab ↦ ?_) fun node hnode i j hactor hactor' inputs a b hab ↦ ?_).1
  · have hlive : r.context.cancelled a.environment = false := by
      rw [hab.1.environment]
      simp [r, staging, context]
    have hlive' : r'.context.cancelled b.environment = false := by
      rw [hab.2.environment]
      simp [r', staging, context]
    rw [hlive, hlive']
  · have hholding : t.holding v node = s.holding w node := by
      unfold holding
      cases hgroup : node.group with
      | none => rfl
      | some group =>
        have hlookup := lookup_specs hbuild hnode hgroup
        have hsame := congrFun hheld group
        rw [Roster.held_eq_some hsound hlookup, Roster.held_eq_some hsound' hlookup] at hsame
        exact Option.some.inj hsame
    have hpure : (s.holding w node).behavior.Functional := by
      rw [behavior_holding hserves hbuild hnode]
      exact hfunctional node hnode
    have hkind := trainless_of_build hbuild node hnode
    rw [hholding] at hactor'
    have ha : a.instances[i]? = some (s.holding w node) := by rw [hab.1.instances, hactor]
    have hb : b.instances[j]? = some (s.holding w node) := by rw [hab.2.instances, hactor']
    rw [result_execute_of_functional ha hpure hkind w.environment,
      result_execute_of_functional hb hpure hkind w.environment]
    exact ⟨rfl, hab⟩

/-- Two sessions of one workflow answer the same when they are asked to apply, if the same groups
count as trained and what they run ends alike. A relation of their worlds that holds when nothing has
been run, and after a run, holds when they have answered. -/
theorem apply_eq_of_ended (hworkflow : t.workflow = s.workflow) (hruntime : t.runtime = s.runtime)
    (hfaithful : s.Faithful) (hfaithful' : t.Faithful)
    (htrained : ∀ group, t.roster.isTrained group = s.roster.isTrained group)
    (schedule : Schedule) {R : World ε σ → World ε σ → Prop}
    (hquiets : ∀ start start', w.Quiet start → v.Quiet start' → R start start')
    (hended : ∀ g, s.build .apply = .ok g → ∀ found start start', w.Quiet start → v.Quiet start' →
      (t.staging .apply g found schedule start').ended.1 =
          (s.staging .apply g found schedule start).ended.1 ∧
        R (s.staging .apply g found schedule start).ended.2
          (t.staging .apply g found schedule start').ended.2) (runner : Option String) :
    (Action.result (t.invoke .apply runner schedule) v).1.1 =
        (Action.result (s.invoke .apply runner schedule) w).1.1 ∧
      R (Action.result (s.invoke .apply runner schedule) w).2
        (Action.result (t.invoke .apply runner schedule) v).2 := by
  have hbuilds : t.build .apply = s.build .apply := by
    rw [build, hworkflow, hruntime]
    rfl
  have hmode : ∀ flow : Workflow ε σ, ¬ (Mode.apply = .eval ∧ flow.evaluation.isNone = true) := by
    rintro flow ⟨hmode, -⟩
    cases hmode
  unfold invoke
  rw [hruntime]
  cases s.runtime.registry.resolve runner with
  | error e => exact ⟨rfl, hquiets w v (.refl w) (.refl v)⟩
  | ok found =>
    obtain ⟨graphs, start, hgraph, hquiet, -⟩ := result_graph hfaithful .apply found.name
      (w.told (.modeInvoked .apply found.name))
    obtain ⟨graphs', start', hgraph', hquiet', -⟩ := result_graph hfaithful' .apply found.name
      (v.told (.modeInvoked .apply found.name))
    replace hquiet := (World.Quiet.told w (.modeInvoked .apply found.name)).trans hquiet
    replace hquiet' := (World.Quiet.told v (.modeInvoked .apply found.name)).trans hquiet'
    rw [hbuilds] at hgraph'
    simp only [Action.result_bind, Action.result_tell, if_neg (hmode _), hgraph, hgraph']
    let s' : Session ε σ := { s with graphs, phase := some .apply }
    let t' : Session ε σ := { t with graphs := graphs', phase := some .apply }
    cases hbuild : s.build .apply with
    | error e => exact ⟨rfl, hquiets start start' hquiet hquiet'⟩
    | ok g =>
      change (Action.result (t'.runGraph g .apply found schedule) start').1.1 =
          (Action.result (s'.runGraph g .apply found schedule) start).1.1 ∧
        R (Action.result (s'.runGraph g .apply found schedule) start).2
          (Action.result (t'.runGraph g .apply found schedule) start').2
      have huntrained : untrained? t.roster g = untrained? s.roster g := by
        unfold untrained?
        simp only [htrained]
      by_cases hrefused : found.executes = true ∧ (untrained? s.roster g).isSome = true
      · obtain ⟨e, he⟩ := Option.isSome_iff_exists.mp hrefused.2
        have hs : untrained? s'.roster g = some e := he
        have ht : untrained? t'.roster g = some e := huntrained.trans he
        rw [result_runGraph_untrained hrefused.1 hs, result_runGraph_untrained hrefused.1 ht]
        exact ⟨rfl, hquiets start start' hquiet hquiet'⟩
      · have hready : Mode.apply = .apply → found.executes = true →
            untrained? s.roster g = none := by
          intro _ hexecutes
          rw [← Option.not_isSome_iff_eq_none]
          exact fun hsome ↦ hrefused ⟨hexecutes, hsome⟩
        rw [result_runGraph s' g found schedule start hready, result_runGraph t' g found schedule
          start' fun hmode hexecutes ↦ huntrained.trans (hready hmode hexecutes)]
        exact hended g hbuild found start start' hquiet hquiet'

/-- What a session gives when it is asked to apply depends on its members only in what they hold
and whether they count as trained. -/
theorem apply_eq (hworkflow : t.workflow = s.workflow) (hruntime : t.runtime = s.runtime)
    (hfaithful : s.Faithful) (hfaithful' : t.Faithful) (hserves : s.Serves w)
    (hsound : s.roster.Sound w) (hsound' : t.roster.Sound v)
    (htrained : ∀ group, t.roster.isTrained group = s.roster.isTrained group)
    (hheld : t.roster.held v s.specs = s.roster.held w s.specs)
    (hfunctional : ∀ g, s.build .apply = .ok g → ∀ node ∈ g.nodes, node.spec.behavior.Functional)
    (runner : Option String) (schedule : Schedule) :
    (Action.result (t.invoke .apply runner schedule) v).1.1 =
      (Action.result (s.invoke .apply runner schedule) w).1.1 := by
  refine (apply_eq_of_ended (R := fun _ _ ↦ True) hworkflow hruntime hfaithful hfaithful' htrained
    schedule (fun _ _ _ _ ↦ trivial)
    (fun g hbuild found start start' hquiet hquiet' ↦ ⟨?_, trivial⟩) runner).1
  have hbuild' : t.build .apply = .ok g := by
    rw [← hbuild, build, hworkflow, hruntime]
    rfl
  refine ended_eq hbuild hbuild' (hserves.of_kept hquiet.kept) (hsound.grow hquiet.kept.size_le)
    (hsound'.grow hquiet'.kept.size_le) ?_ (hfunctional g hbuild)
  rw [Roster.held_quiet _ hquiet, Roster.held_quiet _ hquiet']
  exact hheld

/-! ### What an application adds -/

/-- An application adds idle members only. -/
theorem widened_apply (hserves : s.Serves w) (hsound : s.roster.Sound w)
    (hbuild : s.build .apply = .ok g) (found : Runner) (schedule : Schedule) :
    Roster.Widened s.specs s.roster w (s.staging .apply g found schedule w).roster
      (s.staging .apply g found schedule w).ended.2 := by
  have hkept := kept_ended hsound hbuild found schedule
  rcases Roster.engaged hsound found g with ⟨hexecutes, hbound⟩ | ⟨-, hengage⟩
  · have hserves' := serves_staging hserves hbuild (by decide) found schedule
    have hstill : (s.staging .apply g found schedule w).ended.2.instances =
        (s.staging .apply g found schedule w).world.instances :=
      (Runner.evolves_run (sound_of_build hbuild) found _ _).instances_of_trainless
        (trainless_of_build hbuild)
    refine ⟨hkept, ?_, funext fun group ↦ ?_⟩
    · change ∃ extra, (Action.result (s.roster.engage found g) w).1.2 = s.roster ++ extra ∧ _
      rw [Roster.engage, if_pos hexecutes]
      exact Roster.exists_bind_append g.nodes s.roster w
    · cases hold : s.roster.member? group with
      | some member =>
        have hnew : (s.staging .apply g found schedule w).roster.member? group = some member :=
          hbound.kept group member hold
        rw [Roster.held_of_member hnew, Roster.held_of_member hold,
          hkept.held _ (hsound.lt group member hold)]
      | none =>
        cases hnew : (s.staging .apply g found schedule w).roster.member? group with
        | none => rw [Roster.held_of_none hnew, Roster.held_of_none hold]
        | some member =>
          have hlisted := hserves'.listed group member hnew
          have hlookup : s.specs.lookup group = some member.spec := by
            rw [specs, hbuild]
            dsimp only
            rw [groups_of_build hbuild (by decide)]
            exact lookup_of_mem (s.workflow.nodup_groupsIn 0) hlisted
          have hstart := hbound.start group member member.spec hnew fun node hnode hgroup ↦ by
            have hown := lookup_specs hbuild hnode hgroup
            rw [hlookup] at hown
            exact (Option.some.inj hown).symm
          rw [Roster.held_of_member hnew, Roster.held_of_none hold, hstill, hlookup]
          rw [Roster.instanceOf, hold] at hstart
          exact hstart
  · have hsame : (s.staging .apply g found schedule w).roster = s.roster := by
      change (Action.result (s.roster.engage found g) w).1.2 = s.roster
      rw [hengage]
    rw [hsame]
    exact .of_kept hsound hkept

/-! ### Calls -/

/-- What is exported is what the roster exports. -/
theorem result_exportState {ε σ : Type} (s : Session ε σ) (order : Roster.Order) (w : World ε σ) :
    (Action.result (s.exportState order) w).1 =
      (Action.result (s.roster.exportAll order) w).1 := by
  unfold exportState
  rw [Action.result_bind]
  cases (Action.result (s.roster.exportAll order) w).1 with
  | error e => rfl
  | ok snapshot => rfl

/-- A call that may change what a session gives later: a training that succeeds on a runner that
executes, or a call to load. -/
def Refits (s : Session ε σ) (w : World ε σ) : Call → Prop
  | .invoke .train runner schedule => ∃ found report,
      s.runtime.registry.resolve runner = .ok found ∧ found.executes = true ∧
        (Action.result (s.invoke .train runner schedule) w).1.1 = .ok report
  | .loadState _ => True
  | _ => False

/-- After a call that fits nothing a session has at most got idle members. -/
structure Idled (s : Session ε σ) (w : World ε σ) (t : Session ε σ) (last : World ε σ) : Prop where
  workflow : t.workflow = s.workflow
  runtime : t.runtime = s.runtime
  widened : Roster.Widened s.specs s.roster w t.roster last

theorem idled_of_not_refits (hserves : s.Serves w) (hsound : s.roster.Sound w)
    (hfaithful : s.Faithful) {c : Call} (hidle : ¬ s.Refits w c) :
    s.Idled w (Action.result (s.call c) w).1 (Action.result (s.call c) w).2 := by
  cases c with
  | exportState order => exact ⟨rfl, rfl, .of_kept hsound (quiet_exportState s order w).kept⟩
  | cancel => exact ⟨rfl, rfl, .of_kept hsound (.of_instances_eq rfl)⟩
  | loadState snapshot => exact absurd trivial hidle
  | invoke mode runner schedule =>
    change s.Idled w (Action.result (s.invoke mode runner schedule) w).1.2
      (Action.result (s.invoke mode runner schedule) w).2
    cases invoked hfaithful mode runner schedule w with
    | refused hstaging hresult hquiet hreason =>
      rw [hresult]
      exact ⟨rfl, rfl, .of_kept hsound hquiet.kept⟩
    | @ran r graphs start hstaging hresult hrunner hbuild hquiet hr hready =>
      have hsound' : s.roster.Sound start := hsound.grow hquiet.kept.size_le
      rw [hresult]
      refine ⟨rfl, rfl, .of_quiet hquiet ?_⟩
      have hkept := kept_ended hsound' hbuild r.runner schedule
      rw [← hr] at hkept
      cases mode with
      | apply =>
        have hwidened := widened_apply (hserves.of_kept hquiet.kept) hsound' hbuild r.runner
          schedule
        rw [← hr] at hwidened
        exact hwidened
      | eval => exact .of_kept hsound' hkept
      | train =>
        have hsame : s.keeping .train r = s.roster := by
          unfold keeping
          dsimp only
          cases hended : r.ended.1 with
          | error halt => rfl
          | ok report =>
            refine if_neg fun hexecutes ↦ hidle ⟨r.runner, report, hrunner, hexecutes, ?_⟩
            rw [hresult]
            exact hended
        change Roster.Widened s.specs s.roster start (s.keeping .train r) r.ended.2
        rw [hsame]
        exact .of_kept hsound' hkept

/-- A call of a session other than a training that succeeds on a runner that executes or a call to
load, however it ends, leaves the mark and the fit state of every group as they were. An export gives
the same snapshot after the call as before it, in whatever orders the two meet the members. If an
export fails, then it fails after the call as before it, and the errors it may report, one for each
order, are before and after those of the groups that count as trained and cannot be exported. An
application gives the same after the call as before it if applying is a function of the inputs and
the fit state. -/
theorem unchanged_of_not_refits {c : Call} (hreachable : s.Reachable w) (hidle : ¬ s.Refits w c) :
    let t := (Action.result (s.call c) w).1
    let last := (Action.result (s.call c) w).2
    (∀ group, t.roster.isTrained group = s.roster.isTrained group ∧
      t.roster.fit? last s.specs group = s.roster.fit? w s.specs group) ∧
    (∀ order order' snapshot, (Action.result (t.exportState order') last).1 = .ok snapshot ↔
      (Action.result (s.exportState order) w).1 = .ok snapshot) ∧
    (∀ e, ((∃ order, (Action.result (t.exportState order) last).1 = .error e) ↔
        s.roster.Withholds w e) ∧
      ((∃ order, (Action.result (s.exportState order) w).1 = .error e) ↔
        s.roster.Withholds w e)) ∧
    ((∀ g, s.build .apply = .ok g → ∀ node ∈ g.nodes, node.spec.behavior.Functional) →
      ∀ runner schedule, (Action.result (t.invoke .apply runner schedule) last).1.1 =
        (Action.result (s.invoke .apply runner schedule) w).1.1) := by
  intro t last
  obtain ⟨hsound, hfaithful⟩ := hreachable.invariant
  obtain ⟨hsound', hfaithful'⟩ := (hreachable.call c).invariant
  have hserves := hreachable.serves
  have htidy' := (hreachable.call c).serves.tidy
  obtain ⟨hworkflow, hruntime, hwidened⟩ := idled_of_not_refits hserves hsound hfaithful hidle
  refine ⟨fun group ↦ ⟨hwidened.isTrained group, ?_⟩, fun order order' snapshot ↦ ?_,
    fun e ↦ ⟨?_, ?_⟩, fun hfunctional runner schedule ↦ ?_⟩
  · rw [Roster.fit?, Roster.fit?, hwidened.held]
  · rw [result_exportState, result_exportState]
    exact hwidened.exportAll hsound hserves.tidy htidy' order order' snapshot
  · simp only [result_exportState]
    rw [Roster.exists_result_exportAll_eq_error_iff htidy']
    exact hwidened.withholds_iff hsound hserves.tidy
  · simp only [result_exportState]
    exact Roster.exists_result_exportAll_eq_error_iff hserves.tidy
  · exact apply_eq hworkflow hruntime hfaithful hfaithful' hserves hsound hsound'
      hwidened.isTrained hwidened.held hfunctional runner schedule

/-- For the nodes of an application it is enough to look at the source, the sink and the actors of
the pipeline. -/
theorem functional_of_leaves
    (hsource : ∀ producer, s.runtime.feed s.workflow.source.query = .ok producer →
      producer.behavior.Functional)
    (hsink : (s.runtime.sinks .apply).behavior.Functional)
    (hleaves : ∀ leaf ∈ s.workflow.pipeline.expression.leaves, leaf.spec.behavior.Functional) :
    ∀ g, s.build .apply = .ok g → ∀ node ∈ g.nodes, node.spec.behavior.Functional := by
  intro g hbuild
  obtain ⟨producer, hproducer, hcompiled⟩ := Workflow.graph_ok hbuild
  exact hcompiled.forall_behavior Behavior.functional_pure (hsource producer hproducer) hsink
    hleaves fun heval ↦ by cases heval

/-- An actor that adds as many cells to its input as trainings had been tried when it was trained. It
cannot be trained any more when three have been tried. -/
def faltering : Spec Nat Nat where
  name := "faltering"
  stateful := true
  behavior :=
    { fresh := 0
      apply := fun inputs fit env ↦
        match inputs with
        | [.column cells] => (.ok (.column (cells ++ List.replicate fit .null)), env)
        | _ => (.ok (.column (List.replicate fit .null)), env)
      train := fun _ _ fit env ↦
        if env.shared = 3 then (.error (.error (.failed "tired")), fit, env)
        else (.ok (), env.shared + 1, { env with shared := env.shared + 1 })
      exportState := fun _ ↦ .ok none
      loadState := fun _ fit ↦ (.ok (), fit) }

theorem functional_faltering : faltering.behavior.Functional where
  result inputs fit env other := by
    simp only [faltering]
    split <;> rfl
  environment inputs fit env := by
    simp only [faltering]
    split <;> rfl

/-- A session of two faltering actors in sequence. -/
def falterers : Session Nat Nat :=
  Runtime.launch ⟨{ runners := [.sequential] },
    .ofTables [("rows", ⟨["x", "y"], [[.int 1, .text "a"]]⟩)], .collecting⟩ 0
    ⟨⟨"rows", some "y"⟩, ⟨0, .sequence (.mapper faltering) (.mapper faltering)⟩, none⟩

/-- The session of faltering actors after it has been trained. -/
def faltered : Session Nat Nat × World Nat Nat :=
  Action.result (falterers.call (.invoke .train none .inOrder)) (World.new 0)

/-- The session after a second training. -/
def refaltered : Session Nat Nat × World Nat Nat :=
  Action.result (faltered.1.call (.invoke .train none .inOrder)) faltered.2

theorem reachable_falterers (w : World Nat Nat) : falterers.Reachable w :=
  .launch _ _ _ w

theorem reachable_faltered : faltered.1.Reachable faltered.2 :=
  (reachable_falterers _).call _

theorem functional_falterers : ∀ g, falterers.build .apply = .ok g →
    ∀ node ∈ g.nodes, node.spec.behavior.Functional := by
  refine functional_of_leaves (fun producer hproducer ↦ ?_) ?_ fun leaf hleaf ↦ ?_
  · cases hproducer
    exact Behavior.functional_pure _
  · exact Behavior.functional_pure _
  · rcases List.mem_cons.mp hleaf with rfl | hleaf
    · exact functional_faltering
    · rw [List.mem_singleton.mp hleaf]
      exact functional_faltering

/-- When it is trained again, the first actor is trained and the second fails; and the next
application gives what it would have given before. -/
theorem unchanged_of_not_refits_faltered :
    (∃ e, (Action.result (faltered.1.invoke .train none .inOrder) faltered.2).1.1 = .error e) ∧
    cells (Action.result (faltered.1.invoke .apply none .inOrder) faltered.2).1.1 = some 3 ∧
    (Action.result (refaltered.1.invoke .apply none .inOrder) refaltered.2).1.1 =
      (Action.result (faltered.1.invoke .apply none .inOrder) faltered.2).1.1 := by
  cases hresult : (Action.result (faltered.1.invoke .train none .inOrder) faltered.2).1.1 with
  | ok report =>
    have hfails : (Action.result (faltered.1.invoke .train none .inOrder) faltered.2).1.1.isOk =
      false := by decide +kernel
    rw [hresult] at hfails
    cases hfails
  | error e =>
    have hidle : ¬ faltered.1.Refits faltered.2 (.invoke .train none .inOrder) := by
      rintro ⟨found, report, -, -, hok⟩
      rw [hresult] at hok
      cases hok
    have hcells : cells (Action.result (faltered.1.invoke .apply none .inOrder)
        faltered.2).1.1 = some 3 := by decide +kernel
    have hfunctional : ∀ g, faltered.1.build .apply = .ok g →
        ∀ node ∈ g.nodes, node.spec.behavior.Functional := by
      intro g hbuild
      rw [faltered, build_call (reachable_falterers (World.new 0)).invariant.2] at hbuild
      exact functional_falterers g hbuild
    obtain ⟨-, -, -, hunchanged⟩ := unchanged_of_not_refits reachable_faltered hidle
    have happly := hunchanged hfunctional none .inOrder
    refine ⟨?_, ?_, ?_⟩
    · exact ⟨e, rfl⟩
    · exact hcells
    · unfold refaltered
      exact happly

end Session

end Dataflow
