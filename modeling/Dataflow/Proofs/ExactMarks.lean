import Dataflow.Proofs.Marks
import Dataflow.Proofs.TrainersFirst

/-!
# Exact marks

`Session.Lived` keeps the past of a session, every call with the session and the world in which it was
made. With it the marks of a session can be compared with what has happened. An instance was fitted
when its training or its loading succeeded (`Occasion.Fits`), and a group was covered by a training
that succeeded on a runner that executes, or by a snapshot that was loaded (`Occasion.Covers`).

The marks are exact (`Session.marks_exact`). A member that counts as trained belongs to a stateful
group and has been fitted. An application is refused before it runs exactly if one of its stateful
groups was not covered. And an application that runs does not find a wrapped actor of a stateful
group untrained.
-/

set_option autoImplicit false
set_option relaxedAutoImplicit false

namespace Dataflow

variable {ε σ : Type}

instance Wrapped.instInhabited {τ : Type} [Inhabited τ] : Inhabited (Wrapped τ) :=
  ⟨⟨default, false⟩⟩

/-! ### What a call fits and covers -/

/-- A call of a session in a world. -/
structure Occasion (ε σ : Type) where
  session : Session ε σ
  world : World ε σ
  call : Session.Call

/-- Nothing that a training works on counts as trained before it has ended. -/
theorem Session.untrained_staging (s : Session ε σ) (g : Graph ε σ) (found : Runner) (schedule : Schedule)
    (w : World ε σ) :
    ∀ entry ∈ (s.staging .train g found schedule w).roster, entry.2.trained = false := by
  change ∀ entry ∈ (Action.result (Roster.empty.engage found g) w).1.2, entry.2.trained = false
  unfold Roster.engage
  split_ifs
  · obtain ⟨extra, hbound, huntrained⟩ := Roster.exists_bind_append g.nodes Roster.empty w
    rw [hbound]
    exact huntrained
  · exact fun entry hentry ↦ nomatch hentry

theorem Session.isSome_untrained?_iff {roster : Roster ε σ} {g : Graph ε σ} :
    (untrained? roster g).isSome = true ↔
      ∃ entry ∈ g.statefulGroups, roster.isTrained entry.1 = false := by
  simp [untrained?, List.find?_isSome]

variable [Inhabited σ]

/-- The instances that accept their states in a call to load. -/
def Session.accepted (s : Session ε σ) (snapshot : Snapshot) (w : World ε σ) : List InstanceId :=
  match Action.result (s.graph .apply s.runtime.registry.defaultName) w with
  | ((.error _, _), _) => []
  | ((.ok g, _), start) => s.roster.accepted snapshot g.groups start

/-- In a call a training or a loading of an instance has succeeded. -/
def Occasion.Fits (o : Occasion ε σ) (id : InstanceId) : Prop :=
  match o.call with
  | .invoke mode runner schedule => ∃ r,
      o.session.staging? mode runner schedule o.world = some r ∧
        Fitted r.graph r.context.binding r.events id
  | .loadState snapshot => id ∈ o.session.accepted snapshot o.world
  | .exportState _ => False
  | .cancel => False

/-- A call covers a group: it is a training that has succeeded on a runner that executes, of a graph
in which the group is stateful, or it has loaded a snapshot that has a state for the group. -/
def Occasion.Covers (o : Occasion ε σ) (group : GroupId) : Prop :=
  match o.call with
  | .invoke .train runner schedule => ∃ found report g,
      o.session.runtime.registry.resolve runner = .ok found ∧ found.executes = true ∧
        (Action.result (o.session.invoke .train runner schedule) o.world).1.1 = .ok report ∧
          o.session.build .train = .ok g ∧ group ∈ g.statefulGroups.map Prod.fst
  | .loadState snapshot =>
      (Action.result (o.session.loadState snapshot) o.world).1.1 = .ok () ∧
        ∃ state ∈ snapshot.states, GroupId.parse state.1 = .ok group
  | _ => False

namespace Session

/-- The sessions that come about by calls from a launch, with their past. -/
inductive Lived : List (Occasion ε σ) → Session ε σ → World ε σ → Prop
  | launch (runtime : Runtime ε σ) (number : Nat) (workflow : Workflow ε σ) (w : World ε σ) :
      Lived [] (runtime.launch number workflow) w
  | call {past : List (Occasion ε σ)} {s : Session ε σ} {w : World ε σ} (h : Lived past s w)
      (c : Call) :
      Lived (past ++ [⟨s, w, c⟩]) (Action.result (s.call c) w).1 (Action.result (s.call c) w).2
  /-- Other sessions do as they like in the world, but not with the instances of this one. -/
  | elsewhere {past : List (Occasion ε σ)} {s : Session ε σ} {w v : World ε σ}
      (h : Lived past s w) (hsize : w.instances.size ≤ v.instances.size)
      (hkept : ∀ group member, s.roster.member? group = some member →
        v.instances[member.actor]? = w.instances[member.actor]?) : Lived past s v

variable {past : List (Occasion ε σ)} {s : Session ε σ} {w : World ε σ} {mode : Mode}
  {g : Graph ε σ} {found : Runner} {runner : Option String} {schedule : Schedule}

theorem Lived.reachable (h : Lived past s w) : s.Reachable w := by
  induction h with
  | launch runtime number workflow w => exact .launch runtime number workflow w
  | call h c ih => exact ih.call c
  | elsewhere h hsize hkept ih => exact ih.elsewhere hsize hkept

/-- Every reachable session has a past. -/
theorem Reachable.exists_lived (h : s.Reachable w) : ∃ past, Lived past s w := by
  induction h with
  | launch runtime number workflow w => exact ⟨[], .launch runtime number workflow w⟩
  | call h c ih =>
    obtain ⟨past, hlived⟩ := ih
    exact ⟨_, hlived.call c⟩
  | elsewhere h hsize hkept ih =>
    obtain ⟨past, hlived⟩ := ih
    exact ⟨past, hlived.elsewhere hsize hkept⟩

/-! ### Trainings -/

theorem mem_statefulGroups (hbuild : s.build mode = .ok g) (hmode : mode ≠ .eval) {group : GroupId}
    {spec : Spec ε σ} : (group, spec) ∈ g.statefulGroups ↔
      (group, spec) ∈ s.workflow.groupsIn 0 ∧ spec.stateful = true := by
  rw [Graph.statefulGroups, List.mem_filter, groups_of_build hbuild hmode]

/-- A training that succeeds has run a graph. -/
theorem exists_ran_of_trained (hfaithful : s.Faithful)
    (hrunner : s.runtime.registry.resolve runner = .ok found) {report : Report}
    (hok : (Action.result (s.invoke .train runner schedule) w).1.1 = .ok report) :
    ∃ r graphs start, s.staging? .train runner schedule w = some r ∧
      Action.result (s.invoke .train runner schedule) w =
        ((r.ended.1, { s with graphs, phase := some .train, roster := s.keeping .train r }),
          r.ended.2) ∧
      r.ended.1 = .ok report ∧ r.runner = found ∧ s.build .train = .ok r.graph ∧ w.Quiet start ∧
      r = s.staging .train r.graph r.runner schedule start := by
  cases invoked hfaithful .train runner schedule w with
  | refused hstaging hresult hquiet hreason =>
    rw [hresult] at hok
    cases hok
  | @ran r graphs start hstaging hresult hrunner' hbuild hquiet hr hready =>
    have hended : r.ended.1 = .ok report := by
      rw [hresult] at hok
      exact hok
    exact ⟨r, graphs, start, hstaging, hresult, hended,
      Except.ok.inj (hrunner'.symm.trans hrunner), hbuild, hquiet, hr⟩

/-- In a training that succeeds a stateful group has one trainer, and it has ended with outputs. -/
theorem exists_trainer_ended (hbuild : s.build .train = .ok g) (hexecutes : found.executes = true)
    {r : Staging ε σ} (hr : r = s.staging .train g found schedule w) {report : Report}
    (hok : r.ended.1 = .ok report) {entry : GroupId × Spec ε σ} (hentry : entry ∈ g.statefulGroups) :
    ∃ trainer outputs, g.trainers entry.1 = [trainer] ∧ g.nodes[trainer.id]? = some trainer ∧
      trainer.kind = .trainer ∧ trainer.group = some entry.1 ∧
      .ended trainer.id (.ok outputs) ∈ r.events := by
  subst hr
  let r := s.staging .train g found schedule w
  have hsound := sound_of_build hbuild
  obtain ⟨producer, -, hcompiled⟩ := Workflow.graph_ok hbuild
  obtain ⟨trainer, honly⟩ := hcompiled.exists_trainer (by decide) (fun h ↦ nomatch h) hentry
  obtain ⟨hmem, hboth⟩ := List.mem_filter.mp (honly ▸ List.mem_cons_self : trainer ∈ _)
  obtain ⟨hkind, hgroup⟩ := of_decide_eq_true hboth
  have hat := hsound.wired.getElem?_id hmem
  -- a run that succeeds has ended every node with outputs
  obtain ⟨all, p, -, hall, haccounts⟩ := found.exists_accounts hsound hexecutes
    (Prod.ext hok rfl : Flow.result (found.run g r.context) r.world = (.ok report, r.ended.2))
  obtain ⟨outputs, houtputs⟩ :=
    haccounts.succeeded (hall trainer.id (List.getElem?_eq_some_iff.mp hat).1)
  exact ⟨trainer, outputs, honly, hat, hkind, hgroup, houtputs⟩

/-- A training that succeeds has fitted an instance of every stateful group. -/
theorem exists_earned_of_trained (hbuild : s.build .train = .ok g) (hexecutes : found.executes = true)
    {r : Staging ε σ} (hr : r = s.staging .train g found schedule w) {report : Report}
    (hok : r.ended.1 = .ok report) {entry : GroupId × Spec ε σ} (hentry : entry ∈ g.statefulGroups) :
    ∃ member, r.roster.member? entry.1 = some member ∧
      Fitted g r.context.binding r.events member.actor ∧
      ∀ actor, r.ended.2.instances[member.actor]? = some actor →
        ∀ q, actor.behavior.Retains q → q actor.fit := by
  obtain ⟨trainer, outputs, -, hat, hkind, hgroup, houtputs⟩ :=
    exists_trainer_ended hbuild hexecutes hr hok hentry
  subst hr
  let r := s.staging .train g found schedule w
  have hsound := sound_of_build hbuild
  rcases Roster.engaged (Roster.sound_empty w) found g with ⟨-, hbound⟩ | ⟨hdraws, -⟩
  · obtain ⟨member, hmember, hactor⟩ := hbound.grouped trainer.id trainer entry.1 hat hgroup
    have hfitted : Fitted g r.context.binding r.events member.actor :=
      ⟨trainer.id, trainer, outputs, hat, hkind, hactor, houtputs⟩
    refine ⟨member, hmember, hfitted, fun actor hlater q hretains ↦ ?_⟩
    have hstart := Array.getElem?_eq_getElem (hbound.sound.lt entry.1 member hmember)
    have hevolves := found.evolves_run hsound r.context r.world
    obtain ⟨later, hinstance, hbehavior⟩ := hevolves.behavior hstart
    obtain rfl := Option.some.inj (hlater.symm.trans hinstance)
    obtain ⟨final, hfinal, -, hq⟩ := hevolves.retains hstart (hbehavior ▸ hretains)
    obtain rfl := Option.some.inj (hinstance.symm.trans hfinal)
    exact hq (.inr hfitted)
  · rw [hexecutes] at hdraws
    cases hdraws

/-! ### Calls -/

/-- Only calls that may change what a session gives later cover a group. -/
theorem Refits.of_covers {o : Occasion ε σ} {group : GroupId} (h : o.Covers group) :
    o.session.Refits o.world o.call := by
  obtain ⟨s, w, c⟩ := o
  cases c with
  | exportState order => exact h
  | cancel => exact h
  | loadState snapshot => exact trivial
  | invoke mode runner schedule =>
    cases mode with
    | apply => exact h
    | eval => exact h
    | train =>
      obtain ⟨found, report, g, hrunner, hexecutes, hok, -⟩ := h
      exact ⟨found, report, hrunner, hexecutes, hok⟩

variable {fits : InstanceId → Prop} {covers : GroupId → Prop}

theorem marked_train (hmarked : s.roster.Marked w fits covers) (hserves : s.Serves w)
    (hsound : s.roster.Sound w) (hfaithful : s.Faithful) {report : Report}
    (hrunner : s.runtime.registry.resolve runner = .ok found) (hexecutes : found.executes = true)
    (hok : (Action.result (s.invoke .train runner schedule) w).1.1 = .ok report) :
    let o : Occasion ε σ := ⟨s, w, .invoke .train runner schedule⟩
    let called := Action.result (s.invoke .train runner schedule) w
    called.1.2.roster.Marked called.2 (fun id ↦ fits id ∨ o.Fits id)
      fun group ↦ covers group ∨ o.Covers group := by
  intro o called
  obtain ⟨r, graphs, start, hstaging, hresult, hended, rfl, hbuild, hquiet, hr⟩ :=
    exists_ran_of_trained hfaithful hrunner hok
  have hkeeping := s.keeping_train_of_ok hended hexecutes
  have hcovers : ∀ group, o.Covers group ↔ group ∈ r.graph.statefulGroups.map Prod.fst := by
    intro group
    constructor
    · rintro ⟨-, -, g, -, -, -, hg, hgroup⟩
      obtain rfl := Except.ok.inj (hbuild.symm.trans hg)
      exact hgroup
    · exact fun hgroup ↦ ⟨r.runner, report, r.graph, hrunner, hexecutes, hok, hbuild, hgroup⟩
  have hserves' := hserves.of_kept hquiet.kept
  have hsound' : s.roster.Sound start := hsound.grow hquiet.kept.size_le
  have hkept := kept_ended hsound' hbuild r.runner schedule
  have hstaged := serves_staging hserves' hbuild (by decide) r.runner schedule
  have huntrained := s.untrained_staging r.graph r.runner schedule start
  rw [← hr] at hkept hstaged huntrained
  have hcalled : called.1.2.roster = s.keeping .train r ∧ called.2 = r.ended.2 := by
    simp only [called, hresult, and_self]
  rw [hcalled.1, hcalled.2, hkeeping]
  refine ((hmarked.quiet hquiet).commit hsound' hkept (fun _ ↦ .inl) hserves' hstaged huntrained
    (fun group spec hlisted hstateful ↦ ?_) fun group hgroup ↦ ?_).mono (fun _ ↦ id)
      (fun group ↦ or_congr_right (hcovers group)) fun _ _ _ ↦ rfl
  · exact List.mem_map_of_mem
      ((mem_statefulGroups hbuild (by decide)).mpr ⟨hlisted, hstateful⟩)
  · obtain ⟨entry, hentry, rfl⟩ := List.mem_map.mp hgroup
    obtain ⟨hlisted, hstateful⟩ := (mem_statefulGroups hbuild (by decide)).mp hentry
    obtain ⟨member, hmember, hfitted, hretained⟩ :=
      exists_earned_of_trained hbuild hexecutes hr hended hentry
    rw [← hstaged.spec_eq hmember hlisted] at hstateful
    exact ⟨member, hmember, hstateful, .inr ⟨r, hstaging, hfitted⟩, hretained⟩

theorem marked_load (hmarked : s.roster.Marked w fits covers) (hserves : s.Serves w)
    (hsound : s.roster.Sound w) (hfaithful : s.Faithful) (snapshot : Snapshot) :
    let o : Occasion ε σ := ⟨s, w, .loadState snapshot⟩
    let called := Action.result (s.loadState snapshot) w
    called.1.2.roster.Marked called.2 (fun id ↦ fits id ∨ o.Fits id)
      fun group ↦ covers group ∨ o.Covers group := by
  intro o called
  obtain ⟨graphs, start, hgraph, hquiet, -⟩ :=
    result_graph hfaithful .apply s.runtime.registry.defaultName w
  cases hbuild : s.build .apply with
  | error e =>
    have hcalled : called = ((.error e, { s with graphs }), start) := by
      simp only [called, loadState, Action.result_bind, hgraph, hbuild, Action.result_pure]
    have hcovers : ∀ group, ¬ o.Covers group := by
      rintro group ⟨hok, -⟩
      change called.1.1 = _ at hok
      rw [hcalled] at hok
      cases hok
    rw [hcalled]
    exact (hmarked.quiet hquiet).mono (fun _ ↦ .inl) (fun group ↦ or_iff_left (hcovers group))
      fun _ _ _ ↦ rfl
  | ok g =>
    have hmarked' := (hmarked.quiet hquiet).load (hserves.of_kept hquiet.kept)
      (hsound.grow hquiet.kept.size_le) snapshot
    have haccepted : s.accepted snapshot w = s.roster.accepted snapshot g.groups start := by
      simp only [accepted, hgraph, hbuild]
    rw [← groups_of_build hbuild (by decide), ← haccepted] at hmarked'
    rcases hload : Action.result (s.roster.load snapshot g.groups) start with ⟨⟨result, after⟩, last⟩
    rw [hload] at hmarked'
    have hcalled : called.1.2.roster = after ∧ called.2.instances = last.instances ∧
        (called.1.1 = .ok () ↔ ∃ count, result = .ok count) := by
      cases result with
      | error e =>
        simp [called, loadState, Action.result_bind, hgraph, hbuild, hload]
      | ok count =>
        simp only [called, loadState, Action.result_bind, hgraph, hbuild, hload, Action.result_tell,
          Action.result_pure]
        exact ⟨trivial, rfl, by simp⟩
    rw [hcalled.1]
    exact hmarked'.mono (fun _ ↦ id) (fun group ↦ or_congr_right (and_congr_left' hcalled.2.2))
      fun _ _ _ ↦ by rw [hcalled.2.1]

/-- The marks of a session stay exact in every call. -/
theorem marked_call (hmarked : s.roster.Marked w fits covers) (hserves : s.Serves w)
    (hsound : s.roster.Sound w) (hfaithful : s.Faithful) (c : Call) :
    let o : Occasion ε σ := ⟨s, w, c⟩
    (Action.result (s.call c) w).1.roster.Marked (Action.result (s.call c) w).2
      (fun id ↦ fits id ∨ o.Fits id) fun group ↦ covers group ∨ o.Covers group := by
  intro o
  by_cases hidle : s.Refits w c
  · cases c with
    | exportState order => exact hidle.elim
    | cancel => exact hidle.elim
    | loadState snapshot => exact marked_load hmarked hserves hsound hfaithful snapshot
    | invoke mode runner schedule =>
      cases mode with
      | apply => exact hidle.elim
      | eval => exact hidle.elim
      | train =>
        obtain ⟨found, report, hrunner, hexecutes, hok⟩ := hidle
        exact marked_train hmarked hserves hsound hfaithful hrunner hexecutes hok
  · obtain ⟨-, -, hwidened⟩ := idled_of_not_refits hserves hsound hfaithful hidle
    refine hmarked.widened hwidened hsound (fun _ ↦ .inl) fun group ↦ or_iff_left ?_
    exact fun hcovers ↦ hidle (Refits.of_covers hcovers)

/-- In every session the marks are exact. -/
theorem Lived.marked (h : Lived past s w) :
    s.roster.Marked w (fun id ↦ ∃ o ∈ past, o.Fits id) fun group ↦ ∃ o ∈ past, o.Covers group := by
  induction h with
  | launch runtime number workflow w =>
    exact (Roster.Marked.empty w).mono (fun _ ↦ False.elim) (fun group ↦ by simp) fun _ _ _ ↦ rfl
  | @call past s w h c ih =>
    obtain ⟨hsound, hfaithful⟩ := h.reachable.invariant
    refine (marked_call ih h.reachable.serves hsound hfaithful c).mono (fun id hor ↦ ?_)
      (fun group ↦ ?_) fun _ _ _ ↦ rfl
    · simpa [List.mem_append, or_and_right, exists_or] using hor
    · simp [List.mem_append, or_and_right, exists_or]
  | elsewhere h hsize hkept ih => exact ih.mono (fun _ ↦ id) (fun _ ↦ Iff.rfl) hkept

/-! ### Applications -/

/-- An application is refused with the error that its actors have not been trained, and before that
nothing has happened but messages. -/
def RefusesUntrained (s : Session ε σ) (runner : Option String) (schedule : Schedule)
    (w : World ε σ) : Prop :=
  s.staging? .apply runner schedule w = none ∧
    w.Quiet (Action.result (s.invoke .apply runner schedule) w).2 ∧
      ∃ name, (Action.result (s.invoke .apply runner schedule) w).1.1 =
        .error (.error (.notTrained name))

/-- An application on a runner that executes is refused before it runs exactly if a stateful group does
not count as trained. -/
theorem refusesUntrained_iff (hfaithful : s.Faithful)
    (hrunner : s.runtime.registry.resolve runner = .ok found) (hexecutes : found.executes = true)
    (hbuild : s.build .apply = .ok g) :
    s.RefusesUntrained runner schedule w ↔
      ∃ entry ∈ g.statefulGroups, s.roster.isTrained entry.1 = false := by
  rw [← isSome_untrained?_iff]
  cases invoked hfaithful .apply runner schedule w with
  | refused hstaging hresult hquiet hreason =>
    obtain ⟨-, huntrained⟩ := hreason rfl found g hrunner hbuild
    refine iff_of_true ⟨hstaging, ?_, ?_⟩ (by rw [huntrained, Option.isSome_some])
    · rw [hresult]
      exact hquiet
    · rw [hresult]
      obtain ⟨⟨group, spec⟩, -, hname⟩ := Option.map_eq_some_iff.mp huntrained
      exact ⟨_, by rw [← hname]⟩
  | ran hstaging hresult hrunner' hbuild' hquiet hr hready =>
    refine iff_of_false (fun hrefuses ↦ ?_) ?_
    · rw [hrefuses.1] at hstaging
      cases hstaging
    · obtain rfl := Except.ok.inj (hrunner'.symm.trans hrunner)
      obtain rfl := Except.ok.inj (hbuild'.symm.trans hbuild)
      rw [hready rfl hexecutes]
      exact Bool.false_ne_true

/-- What is run is the graph of the mode. -/
theorem build_of_staging (hfaithful : s.Faithful) {r : Staging ε σ}
    (hstaging : s.staging? mode runner schedule w = some r) : s.build mode = .ok r.graph := by
  cases invoked hfaithful mode runner schedule w with
  | refused hnone hresult hquiet hreason =>
    rw [hnone] at hstaging
    cases hstaging
  | ran hsome hresult hrunner hbuild hquiet hr hready =>
    obtain rfl := Option.some.inj (hsome.symm.trans hstaging)
    exact hbuild

/-- An application that runs does not find a wrapped actor of a stateful group untrained. -/
theorem not_raised_of_staging (hmarked : s.roster.Marked w fits covers) (hserves : s.Serves w)
    (hsound : s.roster.Sound w) (hfaithful : s.Faithful) {r : Staging ε σ}
    (hstaging : s.staging? .apply runner schedule w = some r) {node : Node ε σ}
    (hnode : node ∈ r.graph.nodes) {group : GroupId} (hgroup : node.group = some group)
    (hstateful : node.spec.stateful = true) (hwraps : node.spec.Wraps) (name : String) :
    .ended node.id (.error (.error (.notTrained name))) ∉ r.events := by
  cases invoked hfaithful .apply runner schedule w with
  | refused hnone hresult hquiet hreason =>
    rw [hnone] at hstaging
    cases hstaging
  | @ran r' graphs start hsome hresult hrunner hbuild hquiet hr hready =>
    obtain rfl : r' = r := Option.some.inj (hsome.symm.trans hstaging)
    have hsound' : s.roster.Sound start := hsound.grow hquiet.kept.size_le
    by_cases hexecutes : r'.runner.executes = true
    · have htrained : s.roster.isTrained group = true := by
        rw [← Bool.not_eq_false]
        intro huntrained
        have hentry := (mem_statefulGroups hbuild (by decide)).mpr
          ⟨mem_groupsIn hbuild (by decide) hnode hgroup, hstateful⟩
        have hsome := isSome_untrained?_iff.mpr ⟨_, hentry, huntrained⟩
        rw [hready rfl hexecutes] at hsome
        cases hsome
      obtain ⟨member, hmember, htrained⟩ := Roster.isTrained_iff.mp htrained
      have hearned := (hmarked.quiet hquiet).earned group member hmember htrained
      -- the node is bound to what holds the instance of the member
      obtain ⟨id, hid, hactor⟩ := exists_bound hsound' hbuild hexecutes schedule hnode
      have hinstance : start.instances[member.actor]? = some (s.holding start node) := by
        rw [holding, hgroup]
        exact Roster.instanceOf_eq_of_member hmember (hsound'.lt group member hmember) node.spec
      have hbehavior := behavior_holding (hserves.of_kept hquiet.kept) hbuild hnode
      obtain ⟨q, hretains, hnever⟩ := hwraps.exists_retains
      rw [← hbehavior] at hretains hnever
      have hq := hearned.retained _ hinstance q hretains
      rw [← hr] at hid hactor
      exact (r'.runner.evolves_run (sound_of_build hbuild) r'.context r'.world).not_raised
        (trainless_of_build hbuild) hid hactor (hnever _ hq) name
    · have hnothing : r'.events = [] := Runner.trace_of_draws hexecutes
      rw [hnothing]
      exact List.not_mem_nil

/-- The marks of a session are exact. Every member that counts as trained belongs to a stateful group,
and its instance was fitted. An application on a runner that executes is refused before any actor is
called exactly if one of its stateful groups was covered by no call. And an application that runs
does not find a wrapped actor of a stateful group untrained, so if it fails with that error another
node has raised it. -/
theorem marks_exact (hlived : Lived past s w) :
    (∀ group member, s.roster.member? group = some member → member.trained = true →
      (group, member.spec) ∈ s.workflow.groupsIn 0 ∧ member.spec.stateful = true ∧
        ∃ o ∈ past, o.Fits member.actor) ∧
    (∀ runner schedule found g, s.runtime.registry.resolve runner = .ok found →
      found.executes = true → s.build .apply = .ok g →
        (s.RefusesUntrained runner schedule w ↔
          ∃ entry ∈ g.statefulGroups, ∀ o ∈ past, ¬ o.Covers entry.1)) ∧
    ∀ runner schedule r, s.staging? .apply runner schedule w = some r →
      (∀ node ∈ r.graph.nodes, node.group.isSome = true → node.spec.stateful = true →
        node.spec.Wraps → ∀ name,
          .ended node.id (.error (.error (.notTrained name))) ∉ r.events) ∧
      ∀ name, r.ended.1 = .error (.error (.notTrained name)) →
        ∃ id, .ended id (.error (.error (.notTrained name))) ∈ r.events := by
  obtain ⟨hsound, hfaithful⟩ := hlived.reachable.invariant
  have hserves := hlived.reachable.serves
  have hmarked := hlived.marked
  refine ⟨fun group member hmember htrained ↦ ?_, fun runner schedule found g hrunner hexecutes
    hbuild ↦ ?_, fun runner schedule r hstaging ↦ ⟨fun node hnode hgroup hstateful hwraps ↦ ?_,
      fun name hended ↦ ?_⟩⟩
  · have hearned := hmarked.earned group member hmember htrained
    exact ⟨hserves.listed group member hmember, hearned.stateful, hearned.fitted⟩
  · rw [refusesUntrained_iff hfaithful hrunner hexecutes hbuild]
    refine exists_congr fun entry ↦ and_congr_right fun _ ↦ ?_
    rw [← Bool.not_eq_true, ← hmarked.covered]
    simp
  · obtain ⟨group, hgroup⟩ := Option.isSome_iff_exists.mp hgroup
    exact not_raised_of_staging hmarked hserves hsound hfaithful hstaging hnode hgroup hstateful
      hwraps
  · have hbuild := build_of_staging hfaithful hstaging
    rcases r.runner.explained (sound_of_build hbuild) (Prod.ext hended rfl) with h | ⟨text, h⟩ | h
    · cases h
    · cases h
    · exact h

/-- An object that counts its trainings, as an actor. -/
def counting : Spec Unit (Wrapped Nat) where
  name := "counting"
  stateful := true
  behavior := Mapping.behavior
    { apply := fun _ count env ↦ (.ok (.column (List.replicate count .null)), env)
      train := some fun _ _ count env ↦ (.ok (), count + 1, env)
      exportState := none
      loadState := none } 0

/-- A session of one counting object. -/
def counters : Session Unit (Wrapped Nat) :=
  Runtime.launch ⟨{ runners := [.sequential] },
    .ofTables [("rows", ⟨["x", "y"], [[.int 1, .text "a"]]⟩)], .collecting⟩ 0
    ⟨⟨"rows", some "y"⟩, ⟨0, .mapper counting⟩, none⟩

/-- The training of the counting object. -/
def counting.training : Occasion Unit (Wrapped Nat) :=
  ⟨counters, World.new (), .invoke .train none .inOrder⟩

/-- The session after the training. -/
def counted : Session Unit (Wrapped Nat) × World Unit (Wrapped Nat) :=
  Action.result (counters.call (.invoke .train none .inOrder)) (World.new ())

theorem lived_counters : Lived [] counters (World.new ()) :=
  .launch _ _ _ _

theorem lived_counted : Lived [counting.training] counted.1 counted.2 :=
  lived_counters.call (.invoke .train none .inOrder)

/-- Before the training an application is refused, and after it the object counts as trained, was
fitted by it, and is applied. -/
theorem marks_exact_counted :
    counters.RefusesUntrained none .inOrder (World.new ()) ∧
    (∃ member, counted.1.roster.member? ⟨0, 0⟩ = some member ∧
      counting.training.Fits member.actor) ∧
    ¬ counted.1.RefusesUntrained none .inOrder counted.2 := by
  obtain ⟨g, hbuild⟩ := exists_eq_ok (by decide +kernel : (counters.build .apply).isOk = true)
  obtain ⟨g', htrain⟩ := exists_eq_ok (by decide +kernel : (counters.build .train).isOk = true)
  obtain ⟨report, hok⟩ := exists_eq_ok (by decide +kernel :
    (Action.result (counters.invoke .train none .inOrder) (World.new ())).1.1.isOk = true)
  have hrunner : counters.runtime.registry.resolve none = .ok .sequential := rfl
  have hlisted : (⟨0, 0⟩, counting) ∈ counters.workflow.groupsIn 0 := List.mem_singleton_self _
  have hcovers : ∀ entry ∈ g.statefulGroups, counting.training.Covers entry.1 := by
    intro entry hentry
    have hentry' := (mem_statefulGroups htrain (by decide)).mpr
      ((mem_statefulGroups hbuild (by decide)).mp hentry)
    unfold Occasion.Covers counting.training
    dsimp only
    exact ⟨.sequential, report, g', hrunner, rfl, hok, htrain, List.mem_map_of_mem hentry'⟩
  have hrunner' : counted.1.runtime.registry.resolve none = .ok .sequential := by
    obtain ⟨graphs, phase, roster, hcall⟩ := exists_call_eq lived_counters.reachable.invariant.2
      (.invoke .train none .inOrder) (World.new ())
    rw [counted, hcall]
    exact hrunner
  have hbuild' : counted.1.build .apply = .ok g := by
    rw [counted, build_call lived_counters.reachable.invariant.2]
    exact hbuild
  obtain ⟨-, hrefused, -⟩ := marks_exact lived_counters
  obtain ⟨hmarks, hpasses, -⟩ := marks_exact lived_counted
  refine ⟨?_, ?_, fun hrefuses ↦ ?_⟩
  · have hentry := (mem_statefulGroups hbuild (by decide)).mpr ⟨hlisted, rfl⟩
    exact (hrefused none .inOrder .sequential g hrunner rfl hbuild).mpr
      ⟨_, hentry, fun _ hpast ↦ nomatch hpast⟩
  · have htrained : counted.1.roster.isTrained ⟨0, 0⟩ = true := by decide +kernel
    obtain ⟨member, hmember, htrained⟩ := Roster.isTrained_iff.mp htrained
    obtain ⟨-, -, o, ho, hfits⟩ := hmarks _ member hmember htrained
    obtain rfl := List.mem_singleton.mp ho
    exact ⟨member, hmember, hfits⟩
  · obtain ⟨entry, hentry, huncovered⟩ :=
      (hpasses none .inOrder .sequential g hrunner' rfl hbuild').mp hrefuses
    exact huncovered _ (List.mem_singleton_self _) (hcovers entry hentry)

end Session

end Dataflow
