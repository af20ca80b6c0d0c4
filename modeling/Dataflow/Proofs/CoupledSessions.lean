import Dataflow.Proofs.CoupledRosters
import Dataflow.Proofs.Groups

/-!
# Coupled sessions

Two sessions of one workflow are `Session.Coupled` if their rosters are. Whatever is asked of them,
they give the same and are coupled again (`Session.Coupled.invoke`, `Session.Coupled.calls`). So a
session cannot tell which numbers its instances have, what else is in the world, or whether it has
idle members.

Being coupled with itself says of a session that its roster is sound and that it keeps the graphs it
would build. So all of this holds of every session that can be reached
(`Session.Reachable.invariant`).
-/

set_option autoImplicit false
set_option relaxedAutoImplicit false

namespace Dataflow

variable {ε σ α : Type}

/-- The first `n` instances stand for themselves, and those of a world that follow are set aside. -/
def Pairing.below (n : Nat) (last : World ε σ) : Pairing ε σ where
  paired i j := i = j ∧ i < n
  aside j actor := n ≤ j ∧ last.instances[j]? = some actor
  left hi hj := hi.1.trans hj.1.symm
  right hi hj := hi.1.symm.trans hj.1
  apart hpair haside := Nat.not_lt_of_le haside.1 (hpair.1 ▸ hpair.2)

namespace Roster

variable {π : Pairing ε σ} {specs : List (GroupId × Spec ε σ)} {roster other : Roster ε σ}
  {w v : World ε σ}

/-- Coupled rosters are as sound in coupled worlds as they have been in others. -/
theorem Coupled.sound_left (h : Coupled π specs roster other) (hworlds : World.Coupled π w v)
    {w₀ : World ε σ} (hsound : roster.Sound w₀) : roster.Sound w where
  lt group member hmember := by
    obtain ⟨found, -, hcoupled⟩ := h.member hmember
    exact hworlds.lt_left hcoupled.actor
  distinct := hsound.distinct

theorem Coupled.sound_right (h : Coupled π specs roster other) (hworlds : World.Coupled π w v)
    {v₀ : World ε σ} (hsound : other.Sound v₀) : other.Sound v where
  lt group found hfound := by
    cases hmember : roster.member? group with
    | some member =>
      obtain ⟨found', hfound', hcoupled⟩ := h.member hmember
      obtain rfl : found = found' := Option.some.inj (hfound.symm.trans hfound')
      exact hworlds.lt_right hcoupled.actor
    | none =>
      obtain ⟨-, -, -, haside⟩ := h.idle hmember hfound
      exact hworlds.lt_of_aside haside
  distinct := hsound.distinct

/-- A roster that has grown is coupled with what it was, if its groups hold the same. -/
theorem Grown.coupled {after : Roster ε σ} {last : World ε σ}
    (h : Grown specs roster w after last) (hheld : after.held last specs = roster.held w specs)
    (hsound : roster.Sound w) : Coupled (.below w.instances.size last) specs roster after where
  member {group member} hmember :=
    ⟨member, h.kept group member hmember, ⟨rfl, hsound.lt group member hmember⟩, rfl, rfl⟩
  idle {group found} hnone hfound := by
    obtain ⟨hle, huntrained, hlookup, hstateful⟩ := h.added group found hnone hfound
    have hholds : last.instances[found.actor]? = some found.spec.instantiate := by
      rw [← held_of_member hfound, hheld, held_of_none hnone, hlookup]
      rfl
    exact ⟨huntrained, hlookup, hstateful, hle, hholds⟩

theorem Grown.coupled_world {after : Roster ε σ} {last : World ε σ}
    (h : Grown specs roster w after last) (hheld : after.held last specs = roster.held w specs) :
    World.Coupled (.below w.instances.size last) w last where
  same {i j} hpair := by
    obtain ⟨rfl, hi⟩ := hpair
    have hsame : last.instances[i]? = w.instances[i]? := by
      by_cases hof : ∃ group member, roster.member? group = some member ∧ member.actor = i
      · obtain ⟨group, member, hmember, rfl⟩ := hof
        rw [← held_of_member (h.kept group member hmember), hheld, held_of_member hmember]
      · exact h.elsewhere i hi fun group member hmember hactor ↦
          hof ⟨group, member, hmember, hactor⟩
    exact ⟨w.instances[i], Array.getElem?_eq_getElem hi, hsame.trans (Array.getElem?_eq_getElem hi)⟩
  aside haside := haside.2
  environment := h.environment

/-- What a run binds: all nodes, or none if the runner calls no actors. -/
def engage (roster : Roster ε σ) (runner : Runner) (g : Graph ε σ) :
    Action ε σ (Binding × Roster ε σ) :=
  if runner.executes then roster.bind g.nodes else pure ([], roster)

/-- Coupled rosters in coupled worlds give a run paired instances, and stay sound. -/
theorem coupled_engage (hrosters : Coupled π specs roster other) (hworlds : World.Coupled π w v)
    (hsound : roster.Sound w) (hsound' : other.Sound v) (runner : Runner) (g : Graph ε σ)
    (hlevel : runner.executes = true → ∀ group, Level roster other group) :
    ∃ π', π.Within π' ∧
      List.Forall₂ π'.paired (Action.result (roster.engage runner g) w).1.1
        (Action.result (other.engage runner g) v).1.1 ∧
      Coupled π' specs (Action.result (roster.engage runner g) w).1.2
        (Action.result (other.engage runner g) v).1.2 ∧
      World.Coupled π' (Action.result (roster.engage runner g) w).2
        (Action.result (other.engage runner g) v).2 ∧
      (Action.result (roster.engage runner g) w).1.2.Sound
        (Action.result (roster.engage runner g) w).2 ∧
      (Action.result (other.engage runner g) v).1.2.Sound
        (Action.result (other.engage runner g) v).2 := by
  unfold engage
  by_cases hexecutes : runner.executes = true
  · rw [if_pos hexecutes, if_pos hexecutes]
    obtain ⟨π', hπ, hbinding, hrosters', hworlds'⟩ :=
      coupled_bind g.nodes hrosters hworlds fun node _ group _ ↦ hlevel hexecutes group
    obtain ⟨binding, bound, after, hresult, hbound⟩ := result_bind g.nodes hsound
    obtain ⟨binding', bound', after', hresult', hbound'⟩ := result_bind g.nodes hsound'
    refine ⟨π', hπ, hbinding, hrosters', hworlds', ?_, ?_⟩
    · rw [hresult]
      exact hbound.sound
    · rw [hresult']
      exact hbound'.sound
  · rw [if_neg hexecutes, if_neg hexecutes]
    exact ⟨π, .refl π, .nil, hrosters, hworlds, hsound, hsound'⟩

end Roster

namespace Session

variable {π : Pairing ε σ} {s t : Session ε σ} {w v : World ε σ}

/-! ### Coupled runs of sessions -/

/-- The context of a run of a session. -/
def context (s : Session ε σ) (binding : Binding) (start : World ε σ) (schedule : Schedule) :
    RunContext ε where
  binding
  cancelled env := start.environment.cancellations s.number < env.cancellations s.number
  schedule

theorem result_runOn (s : Session ε σ) (g : Graph ε σ) (runner : Runner) (roster : Roster ε σ)
    (schedule : Schedule) (w : World ε σ) :
    Action.result (s.runOn g runner roster schedule) w =
      let engaged := Action.result (roster.engage runner g) w
      let ended := Flow.result (runner.run g (s.context engaged.1.1 engaged.2 schedule)) engaged.2
      ((ended.1, engaged.1.2), ended.2) := by
  unfold runOn Roster.engage
  by_cases hexecutes : runner.executes = true
  · rw [if_pos hexecutes, if_pos hexecutes]
    rfl
  · rw [if_neg hexecutes, if_neg hexecutes]
    rfl

/-- Runs of one graph on coupled rosters end alike. -/
theorem coupled_runOn (hnumber : t.number = s.number) {specs : List (GroupId × Spec ε σ)}
    {roster other : Roster ε σ} (hrosters : Roster.Coupled π specs roster other)
    (hworlds : World.Coupled π w v) (hsound : roster.Sound w) (hsound' : other.Sound v)
    (g : Graph ε σ) (runner : Runner) (schedule : Schedule)
    (hlevel : runner.executes = true → ∀ group, Roster.Level roster other group) :
    ∃ π', π.Within π' ∧
      (Action.result (t.runOn g runner other schedule) v).1.1 =
        (Action.result (s.runOn g runner roster schedule) w).1.1 ∧
      Roster.Coupled π' specs (Action.result (s.runOn g runner roster schedule) w).1.2
        (Action.result (t.runOn g runner other schedule) v).1.2 ∧
      World.Coupled π' (Action.result (s.runOn g runner roster schedule) w).2
        (Action.result (t.runOn g runner other schedule) v).2 ∧
      (Action.result (s.runOn g runner roster schedule) w).1.2.Sound
        (Action.result (s.runOn g runner roster schedule) w).2 ∧
      (Action.result (t.runOn g runner other schedule) v).1.2.Sound
        (Action.result (t.runOn g runner other schedule) v).2 := by
  rw [result_runOn, result_runOn]
  obtain ⟨π', hπ, hbinding, hrosters', hworlds', hsound₁, hsound₁'⟩ :=
    Roster.coupled_engage hrosters hworlds hsound hsound' runner g hlevel
  generalize Action.result (roster.engage runner g) w = engaged at *
  generalize Action.result (other.engage runner g) v = engaged' at *
  obtain ⟨⟨binding, bound⟩, start⟩ := engaged
  obtain ⟨⟨binding', bound'⟩, start'⟩ := engaged'
  have hcontext : (s.context binding start schedule).Coupled π'
      (t.context binding' start' schedule) := by
    refine ⟨hbinding, ?_, rfl⟩
    funext env
    change decide (start'.environment.cancellations t.number < env.cancellations t.number) =
      decide (start.environment.cancellations s.number < env.cancellations s.number)
    rw [hnumber, hworlds'.environment]
  obtain ⟨hresult, hafter⟩ := Runner.coupled_run hcontext runner g start start' hworlds'
  exact ⟨π', hπ, hresult.eq.symm, hrosters', hafter, hrosters'.sound_left hafter hsound₁,
    hrosters'.sound_right hafter hsound₁'⟩

/-- A staged roster keeps one member for each group, has one for every group of the graph's nodes,
and all its instances are new. -/
theorem staged_runOn (s : Session ε σ) (g : Graph ε σ) (runner : Runner)
    (hexecutes : runner.executes = true) (schedule : Schedule) (w : World ε σ) :
    (Action.result (s.runOn g runner .empty schedule) w).1.2.Tidy ∧
      (∀ node ∈ g.nodes, ∀ group, node.group = some group → ∃ member,
        (Action.result (s.runOn g runner .empty schedule) w).1.2.member? group = some member) ∧
      ∀ group member,
        (Action.result (s.runOn g runner .empty schedule) w).1.2.member? group = some member →
          w.instances.size ≤ member.actor := by
  have hengage : (Roster.empty : Roster ε σ).engage runner g = Roster.bind g.nodes .empty :=
    if_pos hexecutes
  have htidy := Roster.Tidy.bind g.nodes Roster.tidy_empty w
  obtain ⟨binding, bound, after, hresult, hbound⟩ :=
    Roster.result_bind g.nodes (Roster.sound_empty w)
  rw [result_runOn, hengage]
  rw [hresult] at htidy ⊢
  refine ⟨htidy, fun node hnode group hgroup ↦ ?_, fun group member hmember ↦ ?_⟩
  · obtain ⟨k, hk⟩ := List.getElem?_of_mem hnode
    obtain ⟨member, hmember, -⟩ := hbound.grouped k node group hk hgroup
    exact ⟨member, hmember⟩
  · exact (hbound.added group member hmember).resolve_left (fun hold ↦ nomatch hold)

variable [Inhabited σ]

/-! ### Coupled sessions -/

/-- Two sessions are coupled: they have one workflow, one runtime and one number, and their rosters
are coupled. Both are sound and keep only graphs that they would build. -/
structure Coupled (π : Pairing ε σ) (s t : Session ε σ) (w v : World ε σ) : Prop where
  number : t.number = s.number
  workflow : t.workflow = s.workflow
  runtime : t.runtime = s.runtime
  faithful : s.Faithful
  faithful' : t.Faithful
  sound : s.roster.Sound w
  sound' : t.roster.Sound v
  rosters : Roster.Coupled π s.specs s.roster t.roster
  worlds : World.Coupled π w v

/-- Two calls end alike: they give the same and leave coupled sessions. -/
structure SameEnd (first second : (α × Session ε σ) × World ε σ) : Prop where
  answer : second.1.1 = first.1.1
  coupled : ∃ π, Coupled π first.1.2 second.1.2 first.2 second.2

namespace Coupled

theorem build (h : Coupled π s t w v) (mode : Mode) : t.build mode = s.build mode := by
  unfold Session.build
  rw [h.workflow, h.runtime]

/-- Telling messages and keeping graphs leaves coupled sessions coupled. -/
theorem keep (h : Coupled π s t w v) {graphs graphs' : List ((Mode × String) × Graph ε σ)}
    (hgraphs : ({ s with graphs } : Session ε σ).Faithful)
    (hgraphs' : ({ t with graphs := graphs' } : Session ε σ).Faithful) {w' v' : World ε σ}
    (hw : w.Quiet w') (hv : v.Quiet v') :
    Coupled π { s with graphs } { t with graphs := graphs' } w' v' where
  number := h.number
  workflow := h.workflow
  runtime := h.runtime
  faithful := hgraphs
  faithful' := hgraphs'
  sound := h.sound.grow (Nat.le_of_eq (congrArg Array.size hw.instances.symm))
  sound' := h.sound'.grow (Nat.le_of_eq (congrArg Array.size hv.instances.symm))
  rosters := h.rosters
  worlds := h.worlds.quiet hw hv

theorem told (h : Coupled π s t w v) (message : Message) :
    Coupled π s t (w.told message) (v.told message) :=
  h.keep h.faithful h.faithful' (.told w message) (.told v message)

theorem setPhase (h : Coupled π s t w v) (phase phase' : Option Mode) :
    Coupled π { s with phase } { t with phase := phase' } w v :=
  ⟨h.number, h.workflow, h.runtime, h.faithful, h.faithful', h.sound, h.sound', h.rosters, h.worlds⟩

/-- Coupled sessions may take on coupled rosters. -/
theorem adopt (h : Coupled π s t w v) {π' : Pairing ε σ} {roster other : Roster ε σ}
    {w' v' : World ε σ} (hrosters : Roster.Coupled π' s.specs roster other)
    (hworlds : World.Coupled π' w' v') (hsound : roster.Sound w') (hsound' : other.Sound v') :
    Coupled π' { s with roster } { t with roster := other } w' v' :=
  ⟨h.number, h.workflow, h.runtime, h.faithful, h.faithful', hsound, hsound', hrosters, hworlds⟩

/-- Coupled sessions that run elsewhere keep what they have. -/
theorem elsewhere (h : Coupled π s t w v) {π' : Pairing ε σ} (hπ : π.Within π') {w' v' : World ε σ}
    (hworlds : World.Coupled π' w' v') : Coupled π' s t w' v' :=
  h.adopt (h.rosters.mono hπ) hworlds ((h.rosters.mono hπ).sound_left hworlds h.sound)
    ((h.rosters.mono hπ).sound_right hworlds h.sound')

/-- An application that may run finds no idle member in its way. -/
theorem level_of_trained (h : Coupled π s t w v) {g : Graph ε σ} (hg : s.build .apply = .ok g)
    (htrained : untrained? s.roster g = none) (group : GroupId) :
    Roster.Level s.roster t.roster group := by
  intro hnone
  cases hfound : t.roster.member? group with
  | none => rfl
  | some found =>
    obtain ⟨-, hlookup, hstateful, -⟩ := h.rosters.idle hnone hfound
    have hspecs : s.specs = g.groups := by rw [specs, hg]
    rw [hspecs] at hlookup
    obtain ⟨front, back, hsplit, -⟩ := List.lookup_eq_some_iff.mp hlookup
    have hgroup : (group, found.spec) ∈ g.groups := by
      rw [hsplit]
      exact List.mem_append_right _ List.mem_cons_self
    rw [untrained?, Option.map_eq_none_iff, List.find?_eq_none] at htrained
    have hmarked : ¬ (!s.roster.isTrained group) = true :=
      htrained _ (List.mem_filter.mpr ⟨hgroup, hstateful⟩)
    have hunmarked : s.roster.isTrained group = false := by
      unfold Roster.isTrained
      rw [hnone]
      rfl
    rw [hunmarked] at hmarked
    exact absurd rfl hmarked

theorem untrained? (h : Coupled π s t w v) (g : Graph ε σ) :
    Session.untrained? t.roster g = Session.untrained? s.roster g := by
  unfold Session.untrained?
  have hsame : (fun entry : GroupId × Spec ε σ ↦ !t.roster.isTrained entry.1) =
      fun entry ↦ !s.roster.isTrained entry.1 :=
    funext fun entry ↦ congrArg (!·) (h.rosters.isTrained entry.1)
  exact congrArg (fun p ↦ (g.statefulGroups.find? p).map _) hsame

theorem graph (h : Coupled π s t w v) (mode : Mode) (runner : String) :
    ∃ graphs graphs' w' v',
      Action.result (s.graph mode runner) w = ((s.build mode, { s with graphs }), w') ∧
      Action.result (t.graph mode runner) v = ((s.build mode, { t with graphs := graphs' }), v') ∧
      Coupled π { s with graphs } { t with graphs := graphs' } w' v' := by
  obtain ⟨graphs, w', hgraph, hw, hfaithful⟩ := result_graph h.faithful mode runner w
  obtain ⟨graphs', v', hgraph', hv, hfaithful'⟩ := result_graph h.faithful' mode runner v
  rw [h.build] at hgraph'
  exact ⟨graphs, graphs', w', v', hgraph, hgraph', h.keep hfaithful hfaithful' hw hv⟩

/-- Every group of a train graph has a node. -/
theorem exists_node_of_build {g : Graph ε σ} (hg : s.build .train = .ok g)
    {entry : GroupId × Spec ε σ} (hentry : entry ∈ g.groups) :
    ∃ node ∈ g.nodes, node.group = some entry.1 := by
  obtain ⟨producer, -, hcompiled⟩ := Workflow.graph_ok hg
  refine hcompiled.exists_node (by decide) ?_
  rwa [hcompiled.groups_eq (by decide)] at hentry

/-- Trainings on staged rosters end alike, and the sessions adopt coupled instances. -/
theorem train (h : Coupled π s t w v) {g : Graph ε σ} (hg : s.build .train = .ok g)
    (runner : Runner) (schedule : Schedule) :
    SameEnd (Action.result (s.runGraph g .train runner schedule) w)
      (Action.result (t.runGraph g .train runner schedule) v) := by
  obtain ⟨π', hπ, hresult, hstaged, hworlds, hsound, hsound'⟩ :=
    coupled_runOn h.number (Roster.coupled_empty π []) h.worlds (Roster.sound_empty w)
      (Roster.sound_empty v) g runner schedule fun _ _ _ ↦ rfl
  have hkept := h.elsewhere hπ hworlds
  have hnew := fun hexecutes ↦ s.staged_runOn g runner hexecutes schedule w
  have hnew' := fun hexecutes ↦ t.staged_runOn g runner hexecutes schedule v
  unfold Session.runGraph
  rw [Action.result_bind, Action.result_bind]
  generalize Action.result (s.runOn g runner .empty schedule) w = first at *
  generalize Action.result (t.runOn g runner .empty schedule) v = second at *
  obtain ⟨⟨result, staged⟩, after⟩ := first
  obtain ⟨⟨result', staged'⟩, after'⟩ := second
  obtain rfl : result' = result := hresult
  cases result' with
  | error halt => exact ⟨rfl, π', hkept⟩
  | ok report =>
    dsimp only
    by_cases hexecutes : runner.executes = true
    · rw [if_pos hexecutes, if_pos hexecutes]
      obtain ⟨htidy, hmembers, hfresh⟩ := hnew hexecutes
      obtain ⟨htidy', -, hfresh'⟩ := hnew' hexecutes
      have hgroups : ∀ group ∈ g.statefulGroups.map (·.1), ∃ member,
          staged.member? group = some member := by
        intro group hgroup
        obtain ⟨entry, hentry, rfl⟩ := List.mem_map.mp hgroup
        obtain ⟨node, hnode, hof⟩ := exists_node_of_build hg (List.mem_of_mem_filter hentry)
        exact hmembers node hnode entry.1 hof
      refine ⟨rfl, π',
        h.adopt ((h.rosters.mono hπ).commit hstaged htidy htidy' hgroups) hworlds ?_ ?_⟩
      · refine hkept.sound.commit hsound htidy (fun group group' member member' hold hstage ↦ ?_) _
        exact Nat.ne_of_lt (Nat.lt_of_lt_of_le (h.sound.lt _ _ hold) (hfresh _ _ hstage))
      · refine hkept.sound'.commit hsound' htidy'
          (fun group group' member member' hold hstage ↦ ?_) _
        exact Nat.ne_of_lt (Nat.lt_of_lt_of_le (h.sound'.lt _ _ hold) (hfresh' _ _ hstage))
    · rw [if_neg hexecutes, if_neg hexecutes]
      exact ⟨rfl, π', hkept⟩

/-- Evaluations end alike, and what they have fitted is dropped. -/
theorem evaluate (h : Coupled π s t w v) (g : Graph ε σ) (runner : Runner) (schedule : Schedule) :
    SameEnd (Action.result (s.runGraph g .eval runner schedule) w)
      (Action.result (t.runGraph g .eval runner schedule) v) := by
  obtain ⟨π', hπ, hresult, -, hworlds, -⟩ :=
    coupled_runOn h.number (Roster.coupled_empty π []) h.worlds (Roster.sound_empty w)
      (Roster.sound_empty v) g runner schedule fun _ _ _ ↦ rfl
  unfold Session.runGraph
  rw [Action.result_bind, Action.result_bind]
  exact ⟨hresult, π', h.elsewhere hπ hworlds⟩

/-- Applications end alike: both sessions refuse, or both run on what their groups hold. -/
theorem apply (h : Coupled π s t w v) {g : Graph ε σ} (hg : s.build .apply = .ok g)
    (runner : Runner) (schedule : Schedule) :
    SameEnd (Action.result (s.runGraph g .apply runner schedule) w)
      (Action.result (t.runGraph g .apply runner schedule) v) := by
  unfold Session.runGraph
  rw [h.untrained? g]
  cases hrefused : if runner.executes then Session.untrained? s.roster g else none with
  | some e => exact ⟨rfl, π, h⟩
  | none =>
    have hlevel : runner.executes = true → ∀ group, Roster.Level s.roster t.roster group := by
      intro hexecutes
      rw [if_pos hexecutes] at hrefused
      exact h.level_of_trained hg hrefused
    obtain ⟨π', hπ, hresult, hrosters, hworlds, hsound, hsound'⟩ :=
      coupled_runOn h.number h.rosters h.worlds h.sound h.sound' g runner schedule hlevel
    dsimp only
    rw [Action.result_bind, Action.result_bind]
    exact ⟨hresult, π', h.adopt hrosters hworlds hsound hsound'⟩

theorem runGraph (h : Coupled π s t w v) {g : Graph ε σ} {mode : Mode} (hg : s.build mode = .ok g)
    (runner : Runner) (schedule : Schedule) :
    SameEnd (Action.result (s.runGraph g mode runner schedule) w)
      (Action.result (t.runGraph g mode runner schedule) v) := by
  cases mode with
  | train => exact h.train hg runner schedule
  | eval => exact h.evaluate g runner schedule
  | apply => exact h.apply hg runner schedule

/-- Coupled sessions that are invoked alike give the same and are coupled again. -/
theorem invoke (h : Coupled π s t w v) (mode : Mode) (runner : Option String)
    (schedule : Schedule) :
    SameEnd (Action.result (s.invoke mode runner schedule) w)
      (Action.result (t.invoke mode runner schedule) v) := by
  unfold Session.invoke
  rw [h.runtime, h.workflow]
  cases s.runtime.registry.resolve runner with
  | error e => exact ⟨rfl, π, h⟩
  | ok found =>
    have htold := h.told (.modeInvoked mode found.name)
    dsimp only
    rw [Action.result_bind, Action.result_bind]
    change SameEnd (Action.result _ (w.told (.modeInvoked mode found.name)))
      (Action.result _ (v.told (.modeInvoked mode found.name)))
    split_ifs
    · exact ⟨rfl, π, htold.told (.modeUnavailable mode Component.evaluation.name)⟩
    · obtain ⟨graphs, graphs', w', v', hgraph, hgraph', hkept⟩ := htold.graph mode found.name
      rw [Action.result_bind, Action.result_bind, hgraph, hgraph']
      dsimp only
      cases hg : s.build mode with
      | error e => exact ⟨rfl, π, hkept⟩
      | ok g => exact (hkept.setPhase (some mode) (some mode)).runGraph hg found schedule

/-- Coupled sessions load a snapshot alike. -/
theorem loadState (h : Coupled π s t w v) (snapshot : Snapshot) :
    SameEnd (Action.result (s.loadState snapshot) w) (Action.result (t.loadState snapshot) v) := by
  unfold Session.loadState
  rw [h.runtime]
  obtain ⟨graphs, graphs', w', v', hgraph, hgraph', hkept⟩ :=
    h.graph .apply s.runtime.registry.defaultName
  rw [Action.result_bind, Action.result_bind, hgraph, hgraph']
  dsimp only
  cases hg : s.build .apply with
  | error e => exact ⟨rfl, π, hkept⟩
  | ok g =>
    have hspecs : s.specs = g.groups := by rw [specs, hg]
    have hrosters : Roster.Coupled π g.groups s.roster t.roster := hspecs ▸ h.rosters
    have hsound := hkept.sound.load snapshot g.groups
    have hsound' := hkept.sound'.load snapshot g.groups
    obtain ⟨π', hresult, hloaded, hworlds⟩ :=
      Roster.coupled_load snapshot hrosters hkept.worlds hkept.sound hkept.sound'
    dsimp only at hsound hsound' ⊢
    rw [Action.result_bind, Action.result_bind]
    generalize Action.result (s.roster.load snapshot g.groups) w' = first at *
    generalize Action.result (t.roster.load snapshot g.groups) v' = second at *
    obtain ⟨⟨result, loaded⟩, last⟩ := first
    obtain ⟨⟨result', loaded'⟩, last'⟩ := second
    obtain rfl : result' = result := hresult
    rw [← hspecs] at hloaded
    have hadopted := hkept.adopt hloaded hworlds hsound hsound'
    cases result' with
    | error e => exact ⟨rfl, π', hadopted⟩
    | ok count => exact ⟨rfl, π', hadopted.told (.stateLoaded count)⟩

/-- Exporting only tells a message. -/
theorem exportState (h : Coupled π s t w v) (order order' : Roster.Order) :
    Coupled π s t (Action.result (s.exportState order) w).2
      (Action.result (t.exportState order') v).2 :=
  h.keep h.faithful h.faithful' (quiet_exportState s order w) (quiet_exportState t order' v)

/-- A session is cancelled in both worlds at once. -/
theorem cancel (h : Coupled π s t w v) :
    Coupled π s t (Action.result s.cancel w).2 (Action.result t.cancel v).2 := by
  have hfirst : (Action.result s.cancel w).2 =
      { w with environment := w.environment.cancel s.number } := rfl
  have hsecond : (Action.result t.cancel v).2 =
      { v with environment := w.environment.cancel s.number } := by
    rw [← h.worlds.environment, ← h.number]
    rfl
  rw [hfirst, hsecond]
  exact h.elsewhere (.refl π) (h.worlds.setEnvironment _)

/-- Whatever coupled sessions are asked, they are coupled again. -/
theorem call (h : Coupled π s t w v) (c : Call) :
    ∃ π', Coupled π' (Action.result (s.call c) w).1 (Action.result (t.call c) v).1
      (Action.result (s.call c) w).2 (Action.result (t.call c) v).2 := by
  cases c with
  | invoke mode runner schedule => exact (h.invoke mode runner schedule).coupled
  | exportState order => exact ⟨π, h.exportState order order⟩
  | loadState snapshot => exact (h.loadState snapshot).coupled
  | cancel => exact ⟨π, h.cancel⟩

theorem calls (h : Coupled π s t w v) (cs : List Call) :
    ∃ π', Coupled π' (Action.result (s.calls cs) w).1 (Action.result (t.calls cs) v).1
      (Action.result (s.calls cs) w).2 (Action.result (t.calls cs) v).2 := by
  induction cs generalizing π s t w v with
  | nil => exact ⟨π, h⟩
  | cons c rest ih =>
    obtain ⟨π', hnext⟩ := h.call c
    exact ih hnext

end Coupled

/-! ### Reachable sessions -/

/-- A session whose roster has grown, and whose groups still hold the same, is coupled with
itself. -/
theorem coupled_of_grown {s : Session ε σ} {after : Roster ε σ} {w last : World ε σ}
    (hsound : s.roster.Sound w) (hgrown : Roster.Grown s.specs s.roster w after last)
    (hheld : after.held last s.specs = s.roster.held w s.specs) (hfaithful : s.Faithful)
    {graphs : List ((Mode × String) × Graph ε σ)}
    (hfaithful' : ({ s with graphs } : Session ε σ).Faithful) :
    Coupled (.below w.instances.size last) s { s with graphs, roster := after } w last :=
  ⟨rfl, rfl, rfl, hfaithful, hfaithful', hsound, hgrown.sound,
    hgrown.coupled hheld hsound, hgrown.coupled_world hheld⟩

/-- A reachable session is sound, and it keeps only graphs that it would build. -/
theorem Reachable.invariant {s : Session ε σ} {w : World ε σ} (h : s.Reachable w) :
    s.roster.Sound w ∧ s.Faithful := by
  induction h with
  | launch runtime number workflow w =>
    exact ⟨Roster.sound_empty w, fun _ _ _ hlookup ↦ nomatch hlookup⟩
  | @call s w h c ih =>
    obtain ⟨hsound, hfaithful⟩ := ih
    have hself := coupled_of_grown hsound (.refl hsound) rfl hfaithful hfaithful
    obtain ⟨π, hcoupled⟩ := hself.call c
    exact ⟨hcoupled.sound, hcoupled.faithful⟩
  | elsewhere h hsize hkept ih => exact ⟨ih.1.grow hsize, ih.2⟩

end Session

end Dataflow
