import Dataflow.Proofs.IdleCalls
import Dataflow.Proofs.Retained
import Dataflow.Proofs.TrainersFirst

/-!
# Marks

A roster counts some of its members as trained. `Roster.Marked` says that it does so rightly, given
which instances have been fitted and which groups have been covered by a training or by a snapshot.

Marks stay right when members are added that do not count as trained (`Marked.widened`), when a
training has fitted the staged member of every stateful group and the roster adopts these
(`Marked.commit`), and when a snapshot is loaded, also if one of its states is refused and those
before it have taken effect (`Marked.load`).
-/

set_option autoImplicit false
set_option relaxedAutoImplicit false

namespace Dataflow

variable {ε σ : Type}

/-- A member rightly counts as trained: its actor is stateful, its instance was fitted, and the
instance has what a fitted one retains. -/
structure Member.Earned (member : Member ε σ) (w : World ε σ) (fits : InstanceId → Prop) :
    Prop where
  stateful : member.spec.stateful = true
  fitted : fits member.actor
  retained : ∀ actor, w.instances[member.actor]? = some actor →
    ∀ q, actor.behavior.Retains q → q actor.fit

theorem Member.Earned.mono {member : Member ε σ} {w v : World ε σ} {fits fits' : InstanceId → Prop}
    (h : member.Earned w fits) (hfits : ∀ id, fits id → fits' id)
    (hkept : v.instances[member.actor]? = w.instances[member.actor]?) : member.Earned v fits' where
  stateful := h.stateful
  fitted := hfits _ h.fitted
  retained actor hactor := h.retained actor (hkept ▸ hactor)

namespace Roster

/-- The marks of a roster are exact: the members that count as trained do so rightly, and it is the
covered groups that have such a member. -/
structure Marked (roster : Roster ε σ) (w : World ε σ) (fits : InstanceId → Prop)
    (covers : GroupId → Prop) : Prop where
  earned : ∀ group member, roster.member? group = some member → member.trained = true →
    member.Earned w fits
  covered : ∀ group, covers group ↔ roster.isTrained group = true

theorem isTrained_iff {roster : Roster ε σ} {group : GroupId} :
    roster.isTrained group = true ↔
      ∃ member, roster.member? group = some member ∧ member.trained = true := by
  unfold isTrained
  rw [Option.any_eq_true]

/-- Where no entry counts as trained, no member does. -/
theorem untrained_of_member? {roster : Roster ε σ} (h : ∀ entry ∈ roster, entry.2.trained = false)
    {group : GroupId} {member : Member ε σ} (hmember : roster.member? group = some member) :
    member.trained = false := by
  obtain ⟨front, back, rfl, -⟩ := List.lookup_eq_some_iff.mp hmember
  exact h (group, member) (List.mem_append_right _ List.mem_cons_self)

namespace Marked

variable {roster after : Roster ε σ} {w v : World ε σ} {fits fits' : InstanceId → Prop}
  {covers covers' : GroupId → Prop}

theorem empty (w : World ε σ) :
    (Roster.empty : Roster ε σ).Marked w (fun _ ↦ False) fun _ ↦ False where
  earned _ _ h := nomatch h
  covered group := by simp [isTrained, member?, Roster.empty]

/-- More may have been fitted, as long as the members are as they were. -/
theorem mono (h : roster.Marked w fits covers) (hfits : ∀ id, fits id → fits' id)
    (hcovers : ∀ group, covers' group ↔ covers group)
    (hkept : ∀ group member, roster.member? group = some member →
      v.instances[member.actor]? = w.instances[member.actor]?) : roster.Marked v fits' covers' where
  earned group member hmember htrained :=
    (h.earned group member hmember htrained).mono hfits (hkept group member hmember)
  covered group := (hcovers group).trans (h.covered group)

theorem quiet (h : roster.Marked w fits covers) (hquiet : w.Quiet v) :
    roster.Marked v fits covers :=
  h.mono (fun _ ↦ id) (fun _ ↦ Iff.rfl) fun _ _ _ ↦ by rw [hquiet.instances]

/-- Idle members have no marks. -/
theorem widened {specs : List (GroupId × Spec ε σ)} (h : roster.Marked w fits covers)
    (hwidened : Widened specs roster w after v) (hsound : roster.Sound w)
    (hfits : ∀ id, fits id → fits' id) (hcovers : ∀ group, covers' group ↔ covers group) :
    after.Marked v fits' covers' where
  earned group member hmember htrained := by
    obtain ⟨extra, rfl, huntrained⟩ := hwidened.split
    rw [member?_append, Option.or_eq_some_iff] at hmember
    rcases hmember with hold | ⟨-, hextra⟩
    · exact (h.earned group member hold htrained).mono hfits
        (hwidened.kept.held _ (hsound.lt group member hold))
    · rw [untrained_of_member? huntrained hextra] at htrained
      cases htrained
  covered group := by
    rw [hwidened.isTrained]
    exact (hcovers group).trans (h.covered group)

/-- A roster gets new marks, and they are right if every member that has one has earned it, or had it
before and has still earned it. -/
theorem extend {groups : List GroupId} (h : roster.Marked w fits covers)
    (hearned : ∀ group member, after.member? group = some member → member.trained = true →
      (group ∈ groups ∧ member.Earned v fits') ∨
      (roster.member? group = some member ∧ (member.Earned w fits → member.Earned v fits')))
    (hmarked : ∀ group, roster.isTrained group = true ∨ group ∈ groups →
      after.isTrained group = true) :
    after.Marked v fits' fun group ↦ covers group ∨ group ∈ groups where
  earned group member hmember htrained := by
    rcases hearned group member hmember htrained with ⟨-, hnew⟩ | ⟨hold, hstill⟩
    · exact hnew
    · exact hstill (h.earned group member hold htrained)
  covered group := by
    rw [h.covered]
    refine ⟨hmarked group, fun htrained ↦ ?_⟩
    obtain ⟨member, hmember, htrained⟩ := isTrained_iff.mp htrained
    rcases hearned group member hmember htrained with ⟨hgroup, -⟩ | ⟨hold, -⟩
    · exact .inr hgroup
    · exact .inl (isTrained_iff.mpr ⟨member, hold, htrained⟩)

/-- A roster adopts staged members that have been fitted, and marks all stateful ones. -/
theorem commit {flow : Workflow ε σ} {staged : Roster ε σ} {groups : List GroupId}
    (h : roster.Marked w fits covers) (hsound : roster.Sound w) (hkept : w.Kept v)
    (hfits : ∀ id, fits id → fits' id) (hserves : roster.Serves flow w)
    (hstaged : staged.Serves flow v) (huntrained : ∀ entry ∈ staged, entry.2.trained = false)
    (hgroups : ∀ group spec, (group, spec) ∈ flow.groupsIn 0 → spec.stateful = true →
      group ∈ groups)
    (hmembers : ∀ group ∈ groups, ∃ member, staged.member? group = some member ∧
      member.Earned v fits') :
    (roster.commit staged groups).Marked v fits' fun group ↦ covers group ∨ group ∈ groups := by
  refine h.extend (fun group member hmember htrained ↦ ?_) fun group hor ↦ ?_
  · rw [Roster.commit, member?_markTrained] at hmember
    obtain ⟨found, hfound, rfl⟩ := Option.map_eq_some_iff.mp hmember
    rw [member?_foldl_put hstaged.tidy] at hfound
    by_cases hgroup : group ∈ groups
    · obtain ⟨other, hother, hearned⟩ := hmembers group hgroup
      rw [hother, Option.some_or, Option.some.injEq] at hfound
      subst hfound
      rw [if_pos (List.contains_iff_mem.mpr hgroup)]
      exact .inl ⟨hgroup, hearned.stateful, hearned.fitted, hearned.retained⟩
    · rw [if_neg fun hcontains ↦ hgroup (List.contains_iff_mem.mp hcontains)] at htrained ⊢
      rcases Option.or_eq_some_iff.mp hfound with hnew | ⟨-, hold⟩
      · rw [untrained_of_member? huntrained hnew] at htrained
        cases htrained
      · exact .inr ⟨hold, fun hearned ↦
          hearned.mono hfits (hkept.held _ (hsound.lt group found hold))⟩
  · -- a group that was marked before is stateful, so it is among those that are marked now
    have hgroup : group ∈ groups := by
      refine hor.elim (fun htrained ↦ ?_) id
      obtain ⟨member, hmember, htrained⟩ := isTrained_iff.mp htrained
      exact hgroups group member.spec (hserves.listed group member hmember)
        (h.earned group member hmember htrained).stateful
    obtain ⟨found, hfound, -⟩ := hmembers group hgroup
    refine isTrained_iff.mpr ⟨{ found with trained := true }, ?_, rfl⟩
    rw [Roster.commit, member?_markTrained, member?_foldl_put hstaged.tidy, hfound,
      Option.some_or, Option.map_some, if_pos (List.contains_iff_mem.mpr hgroup)]

/-- A roster has loaded states. If none was refused, the groups of the states may be marked. -/
theorem grown {entries : List (Pending ε σ)} {groups : List GroupId}
    {specs : List (GroupId × Spec ε σ)} (h : roster.Marked w fits covers)
    (hfits : ∀ id, fits id → fits' id) (hgrown : Grown specs roster w after v)
    (hheld : after.held v specs =
      (reached entries (roster.held w specs)).foldl Holding.load (roster.held w specs))
    (haccepted : ∀ group ∈ groups, outcome entries (roster.held w specs) = .ok () ∧
      group ∈ entries.map (·.group))
    (hmembers : ∀ group ∈ groups, ∃ member, after.member? group = some member ∧
      member.spec.stateful = true ∧ fits' member.actor) :
    (after.markTrained groups).Marked v fits' fun group ↦ covers group ∨ group ∈ groups := by
  refine h.extend (fun group member hmember htrained ↦ ?_) fun group hor ↦ ?_
  · rw [member?_markTrained] at hmember
    obtain ⟨found, hfound, rfl⟩ := Option.map_eq_some_iff.mp hmember
    have hholds : ∀ actor, v.instances[found.actor]? = some actor → ∀ q, actor.behavior.Retains q →
        ∃ before, roster.held w specs group = some before ∧ before.behavior = actor.behavior ∧
          (q before.fit ∨ (outcome entries (roster.held w specs) = .ok () ∧
            group ∈ entries.map (·.group)) → q actor.fit) := by
      intro actor hactor q hretains
      refine Holding.retains_foldl ?_ hretains
      rw [← hheld, held_of_member hfound, hactor]
    by_cases hgroup : group ∈ groups
    · obtain ⟨other, hother, hstateful, hfit⟩ := hmembers group hgroup
      obtain rfl := Option.some.inj (hfound.symm.trans hother)
      rw [if_pos (List.contains_iff_mem.mpr hgroup)]
      refine .inl ⟨hgroup, hstateful, hfit, fun actor hactor q hretains ↦ ?_⟩
      obtain ⟨before, -, -, hq⟩ := hholds actor hactor q hretains
      exact hq (.inr (haccepted group hgroup))
    · rw [if_neg fun hcontains ↦ hgroup (List.contains_iff_mem.mp hcontains)] at htrained ⊢
      cases hold : roster.member? group with
      | none =>
        obtain ⟨-, huntrained, -⟩ := hgrown.added group found hold hfound
        rw [htrained] at huntrained
        cases huntrained
      | some former =>
        obtain rfl := Option.some.inj ((hgrown.kept group former hold).symm.trans hfound)
        refine .inr ⟨rfl, fun hearned ↦ ⟨hearned.stateful, hfits _ hearned.fitted, ?_⟩⟩
        intro actor hactor q hretains
        obtain ⟨before, hbefore, hbehavior, hq⟩ := hholds actor hactor q hretains
        rw [held_of_member hold] at hbefore
        exact hq (.inl (hearned.retained before hbefore q (hbehavior ▸ hretains)))
  · rw [isTrained_iff]
    rcases hor with htrained | hgroup
    · obtain ⟨member, hmember, htrained⟩ := isTrained_iff.mp htrained
      refine ⟨_, by rw [member?_markTrained, hgrown.kept group member hmember]; rfl, ?_⟩
      split_ifs
      · rfl
      · exact htrained
    · obtain ⟨found, hfound, -⟩ := hmembers group hgroup
      refine ⟨{ found with trained := true }, ?_, rfl⟩
      rw [member?_markTrained, hfound, Option.map_some,
        if_pos (List.contains_iff_mem.mpr hgroup)]

end Marked

variable {specs : List (GroupId × Spec ε σ)} {roster : Roster ε σ} {w : World ε σ}

/-! ### Loading -/

/-- The instances that accept their states when states are loaded one after another. -/
def acceptedEach : List (Pending ε σ) → Roster ε σ → World ε σ → List InstanceId
  | [], _, _ => []
  | entry :: rest, roster, w =>
    let asked := Action.result (roster.request entry.group entry.spec) w
    match Action.result (Action.loadState asked.1.1 entry.bytes) asked.2 with
    | (some (.error _), _) => []
    | (some (.ok ()), after) => asked.1.1 :: acceptedEach rest asked.1.2 after
    | (none, after) => acceptedEach rest asked.1.2 after

/-- The instances that accept their states when a snapshot is loaded. -/
def accepted (roster : Roster ε σ) (snapshot : Snapshot) (specs : List (GroupId × Spec ε σ))
    (w : World ε σ) : List InstanceId :=
  match snapshot.states.mapM (decodeEntry specs) with
  | .error _ => []
  | .ok entries => acceptedEach entries roster w

theorem markTrained_nil (roster : Roster ε σ) : roster.markTrained [] = roster := by
  simp [markTrained]

/-- Every group of states that have been loaded has a member, and its instance has accepted a
state. -/
theorem exists_accepted {entries : List (Pending ε σ)} (hentries : Loadable specs entries)
    (hsound : roster.Sound w) {after : Roster ε σ} {last : World ε σ}
    (h : Action.result (loadEach entries roster) w = ((.ok (), after), last)) :
    ∀ entry ∈ entries, ∃ member, after.member? entry.group = some member ∧
      member.actor ∈ acceptedEach entries roster w := by
  induction entries generalizing roster w with
  | nil => exact fun entry hentry ↦ nomatch hentry
  | cons entry rest ih =>
    obtain ⟨hspec, hstateful⟩ := hentries entry List.mem_cons_self
    obtain ⟨member, asked, v, hrequest, hmember, hgrown, -⟩ :=
      result_request hsound hspec hstateful
    obtain ⟨actor, hactor⟩ : ∃ actor, v.instances[member.actor]? = some actor :=
      ⟨_, Array.getElem?_eq_getElem (hgrown.sound.lt _ _ hmember)⟩
    have hloaded := Action.result_loadState hactor entry.bytes
    rw [result_loadEach_cons hrequest, hloaded] at h
    rw [acceptedEach, hrequest]
    dsimp only
    rw [hloaded]
    cases hresult : (actor.loaded entry.bytes).1 with
    | error e =>
      rw [hresult] at h
      cases h
    | ok u =>
      rw [hresult] at h
      have hset : asked.Sound (v.setFit member.actor (actor.loaded entry.bytes).2.fit) :=
        hgrown.sound.grow (Nat.le_of_eq Array.size_modify.symm)
      obtain ⟨after', last', hrest, hafter, -⟩ := result_loadEach hentries.tail hset
      obtain rfl : after = after' := congrArg (fun r ↦ r.1.2) (h.symm.trans hrest)
      intro other hother
      rcases List.mem_cons.mp hother with rfl | hother
      · exact ⟨member, hafter.kept _ member hmember, List.mem_cons_self⟩
      · obtain ⟨found, hfound, haccepted⟩ := ih hentries.tail hset h other hother
        exact ⟨found, hfound, List.mem_cons_of_mem _ haccepted⟩

/-- The states that are read from a snapshot are for the groups whose texts are its keys. -/
theorem map_parse_of_mapM_eq_ok {states : List (String × String)} {entries : List (Pending ε σ)}
    (h : states.mapM (decodeEntry specs) = .ok entries) :
    states.map (fun state ↦ GroupId.parse state.1) = entries.map fun entry ↦ .ok entry.group := by
  rw [← List.forall₂_eq_eq_eq, List.forall₂_map_left_iff, List.forall₂_map_right_iff]
  exact (mapM_eq_ok_iff.mp h).imp fun _ _ hentry ↦ (decodeEntry_eq_ok hentry).1

theorem mem_groups_iff {states : List (String × String)} {entries : List (Pending ε σ)}
    (h : states.mapM (decodeEntry specs) = .ok entries) (group : GroupId) :
    (∃ state ∈ states, GroupId.parse state.1 = .ok group) ↔ group ∈ entries.map (·.group) := by
  have hkeys := congrArg (Except.ok group ∈ ·) (map_parse_of_mapM_eq_ok h)
  simpa using hkeys

/-- The members that have accepted states are stateful: a new one is made as the workflow lists its
group, and the others are. -/
theorem Serves.exists_accepted {flow : Workflow ε σ} (hserves : roster.Serves flow w)
    (hsound : roster.Sound w) {entries : List (Pending ε σ)}
    (hentries : Loadable (flow.groupsIn 0) entries) {after : Roster ε σ} {last : World ε σ}
    (hgrown : Grown (flow.groupsIn 0) roster w after last)
    (h : Action.result (loadEach entries roster) w = ((.ok (), after), last)) {group : GroupId}
    (hgroup : group ∈ entries.map (·.group)) :
    ∃ member, after.member? group = some member ∧ member.spec.stateful = true ∧
      member.actor ∈ acceptedEach entries roster w := by
  obtain ⟨entry, hentry, rfl⟩ := List.mem_map.mp hgroup
  obtain ⟨hspec, hstateful⟩ := hentries entry hentry
  obtain ⟨member, hmember, hactor⟩ := Roster.exists_accepted hentries hsound h entry hentry
  refine ⟨member, hmember, ?_, hactor⟩
  cases hroster : roster.member? entry.group with
  | none => exact (hgrown.added _ member hroster hmember).2.2.2
  | some former =>
    obtain rfl : former = member :=
      Option.some.inj ((hgrown.kept _ former hroster).symm.trans hmember)
    obtain ⟨front, back, hsplit, -⟩ := List.lookup_eq_some_iff.mp hspec
    have hlisted : (entry.group, entry.spec) ∈ flow.groupsIn 0 := by
      rw [hsplit]
      exact List.mem_append_right _ List.mem_cons_self
    rw [hserves.spec_eq hroster hlisted]
    exact hstateful

/-- When a snapshot is loaded, the groups that are marked are those whose texts are its keys, and they
are marked only if no state was refused. -/
theorem Marked.load {flow : Workflow ε σ} {fits : InstanceId → Prop} {covers : GroupId → Prop}
    (h : roster.Marked w fits covers) (hserves : roster.Serves flow w) (hsound : roster.Sound w)
    (snapshot : Snapshot) :
    let loaded := Action.result (roster.load snapshot (flow.groupsIn 0)) w
    loaded.1.2.Marked loaded.2
      (fun id ↦ fits id ∨ id ∈ roster.accepted snapshot (flow.groupsIn 0) w)
      fun group ↦ covers group ∨ (∃ count, loaded.1.1 = .ok count) ∧
        ∃ state ∈ snapshot.states, GroupId.parse state.1 = .ok group := by
  intro loaded
  unfold accepted
  cases hread : snapshot.states.mapM (decodeEntry (flow.groupsIn 0)) with
  | error e =>
    have hloaded : loaded = ((.error e, roster), w) := by
      simp only [loaded, Roster.load, hread]
      rfl
    rw [hloaded]
    exact h.mono (fun _ ↦ .inl) (fun group ↦ by simp) fun _ _ _ ↦ rfl
  | ok entries =>
    have hentries := loadable_of_mapM_eq_ok hread
    obtain ⟨after, last, hresult, hgrown, hheld⟩ := result_loadEach hentries hsound
    cases houtcome : outcome entries (roster.held w (flow.groupsIn 0)) with
    | error e =>
      have hloaded : loaded = ((.error e, after), last) := by
        simp only [loaded, Roster.load, hread, Action.result_bind, hresult, houtcome]
        rfl
      have hmarked : (after.markTrained []).Marked last fits fun group ↦ covers group ∨ group ∈ [] :=
        h.grown (fun _ ↦ id) hgrown hheld (fun _ hgroup ↦ absurd hgroup List.not_mem_nil)
          fun _ hgroup ↦ absurd hgroup List.not_mem_nil
      rw [markTrained_nil] at hmarked
      rw [hloaded]
      exact hmarked.mono (fun _ ↦ .inl) (fun group ↦ by simp) fun _ _ _ ↦ rfl
    | ok u =>
      have hloaded : loaded =
          ((.ok entries.length, after.markTrained (entries.map (·.group))), last) := by
        simp only [loaded, Roster.load, hread, Action.result_bind, hresult, houtcome]
        rfl
      rw [hloaded]
      refine (h.grown (fun _ ↦ .inl) hgrown hheld (fun group hgroup ↦ ⟨houtcome, hgroup⟩)
        fun group hgroup ↦ ?_).mono (fun _ ↦ id)
          (fun group ↦ by simp [mem_groups_iff hread]) fun _ _ _ ↦ rfl
      rw [houtcome] at hresult
      obtain ⟨member, hmember, hstateful, hactor⟩ :=
        hserves.exists_accepted hsound hentries hgrown hresult hgroup
      exact ⟨member, hmember, hstateful, .inr hactor⟩

end Roster

end Dataflow
