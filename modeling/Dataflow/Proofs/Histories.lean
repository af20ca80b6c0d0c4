import Dataflow.Proofs.Exporting
import Dataflow.Proofs.Loading
import Dataflow.Session.Basic

/-!
# Histories of rosters and sessions

`Roster.Reachable` says which rosters there can be: those that come about from the empty roster by
making, marking, loading and adopting instances, while their instances are trained and other
instances are made. All of them are sound and keep one member for each group
(`Roster.Reachable.sound_tidy`).

`Session.Reachable` says the same of sessions: a session comes about from its launch by calls, while
other sessions use the world.
-/

set_option autoImplicit false
set_option relaxedAutoImplicit false

namespace Dataflow

variable {ε σ : Type}

namespace Roster

/-! ### One member for each group -/

theorem Tidy.claim {roster : Roster ε σ} (h : roster.Tidy) (node : Node ε σ) (w : World ε σ) :
    (Action.result (roster.claim node) w).1.2.Tidy := by
  rcases roster.result_claim node w with ⟨group, member, -, -, hclaim⟩ | ⟨group, -, -, hclaim⟩ |
    ⟨-, hclaim⟩
  · rw [hclaim]
    exact h
  · rw [hclaim]
    exact h.put group _
  · rw [hclaim]
    exact h

theorem Tidy.bind (nodes : List (Node ε σ)) {roster : Roster ε σ} (h : roster.Tidy)
    (w : World ε σ) : (Action.result (bind nodes roster) w).1.2.Tidy := by
  induction nodes generalizing roster w with
  | nil => exact h
  | cons node rest ih =>
    rw [result_bind_cons]
    exact ih (h.claim node w) _

/-! ### Marking and adopting -/

theorem member?_markTrained (roster : Roster ε σ) (groups : List GroupId) (group : GroupId) :
    (roster.markTrained groups).member? group =
      (roster.member? group).map fun member ↦
        if groups.contains group then { member with trained := true } else member := by
  induction roster with
  | nil => rfl
  | cons entry rest ih =>
    obtain ⟨g, m⟩ := entry
    change member? ((g, _) :: markTrained rest groups) group = _
    rw [member?_cons, member?_cons, ih]
    by_cases hgroup : group = g
    · subst hgroup
      rw [if_pos rfl, if_pos rfl, Option.map_some]
    · rw [if_neg hgroup, if_neg hgroup]

theorem Tidy.markTrained {roster : Roster ε σ} (h : roster.Tidy) (groups : List GroupId) :
    (roster.markTrained groups).Tidy := by
  unfold Tidy Roster.markTrained
  rw [List.map_map]
  exact h

/-- Marking changes no instance. -/
theorem exists_of_member?_markTrained {roster : Roster ε σ} {groups : List GroupId}
    {group : GroupId}
    {member : Member ε σ} (h : (roster.markTrained groups).member? group = some member) :
    ∃ found, roster.member? group = some found ∧ found.actor = member.actor := by
  rw [member?_markTrained] at h
  obtain ⟨found, hfound, rfl⟩ := Option.map_eq_some_iff.mp h
  refine ⟨found, hfound, ?_⟩
  split_ifs <;> rfl

theorem Sound.markTrained {roster : Roster ε σ} {w : World ε σ} (h : roster.Sound w)
    (groups : List GroupId) : (roster.markTrained groups).Sound w where
  lt group member hmember := by
    obtain ⟨found, hfound, hactor⟩ := exists_of_member?_markTrained hmember
    exact hactor ▸ h.lt group found hfound
  distinct group other member member' hmember hmember' hsame := by
    obtain ⟨found, hfound, hactor⟩ := exists_of_member?_markTrained hmember
    obtain ⟨found', hfound', hactor'⟩ := exists_of_member?_markTrained hmember'
    exact h.distinct group other found found' hfound hfound' (by rw [hactor, hactor', hsame])

/-- Members of the staged roster take the place of those of the same groups. -/
theorem member?_foldl_put {staged : Roster ε σ} (h : staged.Tidy)
    (roster : Roster ε σ) (group : GroupId) :
    (staged.foldl (fun roster (g, m) ↦ roster.put g m) roster).member? group =
      (staged.member? group).or (roster.member? group) := by
  induction staged generalizing roster with
  | nil => rfl
  | cons entry rest ih =>
    obtain ⟨g, m⟩ := entry
    obtain ⟨hfree, hrest⟩ := List.nodup_cons.mp h
    rw [List.foldl_cons, ih hrest, member?_put, member?_cons]
    by_cases hgroup : group = g
    · subst hgroup
      rw [if_pos rfl, if_pos rfl, member?_eq_none hfree]
      rfl
    · rw [if_neg hgroup, if_neg hgroup]

theorem Tidy.foldl_put {roster : Roster ε σ} (h : roster.Tidy) (staged : Roster ε σ) :
    (staged.foldl (fun roster (g, m) ↦ roster.put g m) roster).Tidy := by
  induction staged generalizing roster with
  | nil => exact h
  | cons entry rest ih => exact ih (h.put entry.1 entry.2)

theorem Tidy.commit {roster : Roster ε σ} (h : roster.Tidy) (staged : Roster ε σ)
    (groups : List GroupId) : (roster.commit staged groups).Tidy :=
  (h.foldl_put staged).markTrained groups

/-- No instance belongs to both rosters. -/
def Apart (roster other : Roster ε σ) : Prop :=
  ∀ group group' member member', roster.member? group = some member →
    other.member? group' = some member' → member.actor ≠ member'.actor

theorem Sound.commit {roster staged : Roster ε σ} {w : World ε σ} (h : roster.Sound w)
    (hstaged : staged.Sound w) (htidy : staged.Tidy) (hapart : roster.Apart staged)
    (groups : List GroupId) : (roster.commit staged groups).Sound w := by
  refine Sound.markTrained ⟨fun group member hmember ↦ ?_,
    fun group other member member' hmember hmember' hsame ↦ ?_⟩ groups
  · rw [member?_foldl_put htidy, Option.or_eq_some_iff] at hmember
    rcases hmember with hnew | ⟨-, hold⟩
    · exact hstaged.lt group member hnew
    · exact h.lt group member hold
  · rw [member?_foldl_put htidy, Option.or_eq_some_iff] at hmember hmember'
    rcases hmember with hnew | ⟨-, hold⟩ <;> rcases hmember' with hnew' | ⟨-, hold'⟩
    · exact hstaged.distinct group other member member' hnew hnew' hsame
    · exact absurd hsame.symm (hapart other group member' member hold' hnew)
    · exact absurd hsame (hapart group other member member' hold hnew')
    · exact h.distinct group other member member' hold hold' hsame

/-! ### Loading -/

theorem Sound.load {roster : Roster ε σ} {w : World ε σ} (h : roster.Sound w) (snapshot : Snapshot)
    (specs : List (GroupId × Spec ε σ)) :
    (Action.result (roster.load snapshot specs) w).1.2.Sound
      (Action.result (roster.load snapshot specs) w).2 := by
  rcases roster.result_load h snapshot with ⟨e, -, hload⟩ |
    ⟨entries, loaded, v, -, hgrown, -, ⟨e, -, hload⟩ | ⟨-, hload⟩⟩
  · rw [hload]
    exact h
  · rw [hload]
    exact hgrown.sound
  · rw [hload]
    exact hgrown.sound.markTrained _

theorem Tidy.load {roster : Roster ε σ} (h : roster.Tidy) {w : World ε σ} (hsound : roster.Sound w)
    (snapshot : Snapshot) (specs : List (GroupId × Spec ε σ)) :
    (Action.result (roster.load snapshot specs) w).1.2.Tidy := by
  rcases roster.result_load hsound snapshot with ⟨e, -, hload⟩ |
    ⟨entries, loaded, v, -, hgrown, -, ⟨e, -, hload⟩ | ⟨-, hload⟩⟩
  · rw [hload]
    exact h
  · rw [hload]
    exact hgrown.tidy h
  · rw [hload]
    exact (hgrown.tidy h).markTrained _

/-! ### Reachable rosters -/

/-- The rosters that come about by making, marking, loading and adopting instances. -/
inductive Reachable : Roster ε σ → World ε σ → Prop
  | empty (w : World ε σ) : Reachable .empty w
  | request {roster : Roster ε σ} {w : World ε σ} (h : Reachable roster w) (group : GroupId)
      (spec : Spec ε σ) :
      Reachable (Action.result (roster.request group spec) w).1.2
        (Action.result (roster.request group spec) w).2
  | bind {roster : Roster ε σ} {w : World ε σ} (h : Reachable roster w) (nodes : List (Node ε σ)) :
      Reachable (Action.result (bind nodes roster) w).1.2 (Action.result (bind nodes roster) w).2
  | markTrained {roster : Roster ε σ} {w : World ε σ} (h : Reachable roster w)
      (groups : List GroupId) : Reachable (roster.markTrained groups) w
  | load {roster : Roster ε σ} {w : World ε σ} (h : Reachable roster w) (snapshot : Snapshot)
      (specs : List (GroupId × Spec ε σ)) :
      Reachable (Action.result (roster.load snapshot specs) w).1.2
        (Action.result (roster.load snapshot specs) w).2
  | commit {roster staged : Roster ε σ} {w : World ε σ} (h : Reachable roster w)
      (hstaged : Reachable staged w) (hapart : roster.Apart staged) (groups : List GroupId) :
      Reachable (roster.commit staged groups) w
  /-- Whatever else happens in the world, no instance goes away. -/
  | elsewhere {roster : Roster ε σ} {w v : World ε σ} (h : Reachable roster w)
      (hsize : w.instances.size ≤ v.instances.size) : Reachable roster v

theorem Reachable.sound_tidy {roster : Roster ε σ} {w : World ε σ} (h : roster.Reachable w) :
    roster.Sound w ∧ roster.Tidy := by
  induction h with
  | empty w => exact ⟨sound_empty w, tidy_empty⟩
  | @request roster w h group spec ih =>
    cases hmember : roster.member? group with
    | some member =>
      rw [request_of_member hmember]
      exact ih
    | none =>
      rw [request_of_none hmember]
      exact ⟨ih.1.put_spawned group spec false, ih.2.put group _⟩
  | @bind roster w h nodes ih =>
    obtain ⟨binding, bound, after, hresult, hbound⟩ := result_bind nodes ih.1
    refine ⟨?_, ih.2.bind nodes w⟩
    rw [hresult]
    exact hbound.sound
  | markTrained h groups ih => exact ⟨ih.1.markTrained groups, ih.2.markTrained groups⟩
  | load h snapshot specs ih => exact ⟨ih.1.load snapshot specs, ih.2.load ih.1 snapshot specs⟩
  | commit h hstaged hapart groups ih ih' =>
    exact ⟨ih.1.commit ih'.1 ih'.2 hapart groups, ih.2.commit _ groups⟩
  | elsewhere h hsize ih => exact ⟨ih.1.grow hsize, ih.2⟩

end Roster

/-! ### Quiet computations -/

/-- Nothing but the journal differs between two worlds. -/
structure World.Quiet (w v : World ε σ) : Prop where
  instances : v.instances = w.instances
  environment : v.environment = w.environment

namespace World.Quiet

variable {w v u : World ε σ}

theorem refl (w : World ε σ) : Quiet w w := ⟨rfl, rfl⟩

theorem told (w : World ε σ) (message : Message) : Quiet w (w.told message) := ⟨rfl, rfl⟩

theorem trans (h : Quiet w v) (h' : Quiet v u) : Quiet w u :=
  ⟨h'.instances.trans h.instances, h'.environment.trans h.environment⟩

end World.Quiet

theorem quiet_tell_all (messages : List Message) (w : World ε σ) :
    w.Quiet (Action.result (messages.forM Action.tell) w).2 := by
  induction messages generalizing w with
  | nil => exact .refl w
  | cons message rest ih => exact (World.Quiet.told w message).trans (ih (w.told message))

namespace Session

/-- Exporting the state of a session does no more than tell a message. -/
theorem quiet_exportState (s : Session ε σ) (order : Roster.Order) (w : World ε σ) :
    w.Quiet (Action.result (s.exportState order) w).2 := by
  have hexport : (Action.result (s.roster.exportAll order) w).2 = w :=
    Roster.quiet_exportInto _ .empty w
  unfold exportState
  rw [Action.result_bind]
  generalize Action.result (s.roster.exportAll order) w = exported at hexport ⊢
  obtain ⟨result, after⟩ := exported
  obtain rfl : after = w := hexport
  cases result with
  | error e => exact .refl after
  | ok snapshot => exact .told after (.stateExported snapshot.size)

/-! ### Calls of a session -/

variable [Inhabited σ]

/-- What may be asked of a session. -/
inductive Call
  | invoke (mode : Mode) (runner : Option String) (schedule : Schedule)
  | exportState (order : Roster.Order)
  | loadState (snapshot : Snapshot)
  | cancel

/-- The session after a call. -/
def call (s : Session ε σ) : Call → Action ε σ (Session ε σ)
  | .invoke mode runner schedule => do
    let (_, s) ← s.invoke mode runner schedule
    return s
  | .exportState order => do
    let _ ← s.exportState order
    return s
  | .loadState snapshot => do
    let (_, s) ← s.loadState snapshot
    return s
  | .cancel => do
    s.cancel
    return s

/-- The session after several calls. -/
def calls (s : Session ε σ) : List Call → Action ε σ (Session ε σ)
  | [] => return s
  | c :: rest => do
    let s ← s.call c
    s.calls rest

/-- The sessions that come about by calls from a launch. -/
inductive Reachable : Session ε σ → World ε σ → Prop
  | launch (runtime : Runtime ε σ) (number : Nat) (workflow : Workflow ε σ) (w : World ε σ) :
      Reachable (runtime.launch number workflow) w
  | call {s : Session ε σ} {w : World ε σ} (h : Reachable s w) (c : Call) :
      Reachable (Action.result (s.call c) w).1 (Action.result (s.call c) w).2
  /-- Other sessions do as they like in the world, but not with the instances of this one. -/
  | elsewhere {s : Session ε σ} {w v : World ε σ} (h : Reachable s w)
      (hsize : w.instances.size ≤ v.instances.size)
      (hkept : ∀ group member, s.roster.member? group = some member →
        v.instances[member.actor]? = w.instances[member.actor]?) : Reachable s v

/-! ### The graphs of a session -/

/-- The graph that a session builds for a mode. -/
def build (s : Session ε σ) (mode : Mode) : Except FlowError (Graph ε σ) :=
  s.workflow.graph s.runtime.feed s.runtime.sinks mode

/-- A session keeps only graphs that it would build again. -/
def Faithful (s : Session ε σ) : Prop :=
  ∀ mode runner g, s.graphs.lookup (mode, runner) = some g → s.build mode = .ok g

/-- The groups of the application graph, to which states are loaded. -/
def specs (s : Session ε σ) : List (GroupId × Spec ε σ) :=
  match s.build .apply with
  | .ok g => g.groups
  | .error _ => []

/-- Whether it is kept or built, the graph is the one that the session builds. -/
theorem result_graph {s : Session ε σ} (h : s.Faithful) (mode : Mode) (runner : String)
    (w : World ε σ) :
    ∃ graphs after, Action.result (s.graph mode runner) w =
        ((s.build mode, { s with graphs }), after) ∧
      w.Quiet after ∧ ({ s with graphs } : Session ε σ).Faithful := by
  unfold graph
  cases hkept : s.graphs.lookup (mode, runner) with
  | some g =>
    refine ⟨s.graphs, w.told (.graphReused mode runner), ?_, .told w _, h⟩
    rw [h mode runner g hkept]
    rfl
  | none =>
    have hquiet := quiet_tell_all (Message.ofBuild (s.build mode)) w
    cases hbuilt : s.build mode with
    | error e =>
      rw [hbuilt] at hquiet
      refine ⟨s.graphs, _, ?_, hquiet, h⟩
      dsimp only
      rw [build] at hbuilt
      rw [Action.result_bind, hbuilt]
      rfl
    | ok g =>
      rw [hbuilt] at hquiet
      refine ⟨((mode, runner), g) :: s.graphs, _, ?_,
        hquiet.trans (.told _ (.graphBuilt mode runner g.nodes.length)), ?_⟩
      · dsimp only
        rw [build] at hbuilt
        rw [Action.result_bind, hbuilt]
        rfl
      · intro mode' runner' g' hlookup
        change List.lookup (mode', runner') (((mode, runner), g) :: s.graphs) = some g' at hlookup
        rw [List.lookup_cons] at hlookup
        by_cases hsame : (mode', runner') = (mode, runner)
        · rw [hsame, beq_self_eq_true] at hlookup
          obtain rfl : g = g' := Option.some.inj hlookup
          cases hsame
          exact hbuilt
        · rw [beq_false_of_ne hsame] at hlookup
          exact h mode' runner' g' hlookup

/-! ### Calls to load -/

/-- What a call to load comes to: there is no application graph, or the roster loads the snapshot
for the groups of that graph. -/
inductive Loaded (s : Session ε σ) (snapshot : Snapshot) (w : World ε σ) : Prop
  | refused {e : FlowError} {graphs : List ((Mode × String) × Graph ε σ)} {last : World ε σ}
      (hbuild : s.build .apply = .error e) (hquiet : w.Quiet last)
      (hfaithful : ({ s with graphs } : Session ε σ).Faithful)
      (hresult : Action.result (s.loadState snapshot) w = ((.error e, { s with graphs }), last))
  | failed {g : Graph ε σ} {e : FlowError} {graphs : List ((Mode × String) × Graph ε σ)}
      {after : Roster ε σ} {start last : World ε σ} (hbuild : s.build .apply = .ok g)
      (hquiet : w.Quiet start) (hfaithful : ({ s with graphs } : Session ε σ).Faithful)
      (hload : Action.result (s.roster.load snapshot g.groups) start = ((.error e, after), last))
      (hresult : Action.result (s.loadState snapshot) w =
        ((.error e, { s with graphs, roster := after }), last))
  | completed {g : Graph ε σ} {count : Nat} {graphs : List ((Mode × String) × Graph ε σ)}
      {after : Roster ε σ} {start last : World ε σ} (hbuild : s.build .apply = .ok g)
      (hquiet : w.Quiet start) (hfaithful : ({ s with graphs } : Session ε σ).Faithful)
      (hload : Action.result (s.roster.load snapshot g.groups) start = ((.ok count, after), last))
      (hresult : Action.result (s.loadState snapshot) w =
        ((.ok (), { s with graphs, roster := after }), last.told (.stateLoaded count)))

theorem loaded {s : Session ε σ} (h : s.Faithful) (snapshot : Snapshot) (w : World ε σ) :
    Loaded s snapshot w := by
  obtain ⟨graphs, start, hgraph, hquiet, hfaithful⟩ :=
    result_graph h .apply s.runtime.registry.defaultName w
  cases hbuild : s.build .apply with
  | error e =>
    refine .refused hbuild hquiet hfaithful ?_
    simp only [loadState, Action.result_bind, hgraph, hbuild, Action.result_pure]
  | ok g =>
    rcases hload : Action.result (s.roster.load snapshot g.groups) start with
      ⟨⟨e | count, after⟩, last⟩
    · refine .failed hbuild hquiet hfaithful hload ?_
      simp only [loadState, Action.result_bind, hgraph, hbuild, hload, Action.result_pure]
    · refine .completed hbuild hquiet hfaithful hload ?_
      simp only [loadState, Action.result_bind, hgraph, hbuild, hload, Action.result_tell,
        Action.result_pure]

end Session

end Dataflow
