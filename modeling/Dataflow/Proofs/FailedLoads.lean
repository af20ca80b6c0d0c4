import Dataflow.Proofs.CoupledSessions

/-!
# Loading that fails

When a state of a snapshot is refused, the states before it have been loaded and stay loaded. So a
call to load that fails is not in general a call that has done nothing: the groups it has got to
hold what was loaded, and if they count as trained the next application runs on it.

`Session.unchanged_iff_harmless` says exactly when a failed call has done nothing. No mark ever
changes. The fit states are what they were exactly if the snapshot was `Roster.Harmless`: it could
not be read at all, or the states that were reached lead every group back to the fit state it had.
After a harmless call all later applications give what they would have given without it, whatever
else is called in between. `Session.loading_not_atomic` is a call that was not harmless.
-/

set_option autoImplicit false
set_option relaxedAutoImplicit false

namespace Dataflow

variable {ε σ : Type}

/-! ### States of one group -/

/-- An instance loads states one after another, also if it refuses them. -/
def Instance.loadedAll (actor : Instance ε σ) (states : List Bytes) : Instance ε σ :=
  states.foldl (fun actor bytes ↦ (actor.loaded bytes).2) actor

theorem Instance.behavior_loadedAll (actor : Instance ε σ) (states : List Bytes) :
    (actor.loadedAll states).behavior = actor.behavior := by
  induction states generalizing actor with
  | nil => rfl
  | cons bytes rest ih => exact ih (actor.loaded bytes).2

/-- An instance that is led back to its fit state is what it was. -/
theorem Instance.loadedAll_eq_self {actor : Instance ε σ} {states : List Bytes}
    (h : (actor.loadedAll states).fit = actor.fit) : actor.loadedAll states = actor := by
  have hbehavior := actor.behavior_loadedAll states
  generalize actor.loadedAll states = after at h hbehavior ⊢
  obtain ⟨behavior, fit⟩ := actor
  obtain ⟨behavior', fit'⟩ := after
  obtain rfl : behavior' = behavior := hbehavior
  obtain rfl : fit' = fit := h
  rfl

/-- The bytes that states hold for a group, in order. -/
def Roster.bytesFor (entries : List (Roster.Pending ε σ)) (group : GroupId) : List Bytes :=
  (entries.filter fun entry ↦ entry.group = group).map (·.bytes)

/-- Groups that load states one after another each load their own. -/
theorem Holding.foldl_load (entries : List (Roster.Pending ε σ)) (held : Holding ε σ)
    (group : GroupId) :
    entries.foldl Holding.load held group =
      (held group).map fun actor ↦ actor.loadedAll (Roster.bytesFor entries group) := by
  induction entries generalizing held with
  | nil => exact Option.map_id'.symm
  | cons entry rest ih =>
    rw [List.foldl_cons, ih, load, Roster.bytesFor, Roster.bytesFor, List.filter_cons]
    by_cases hgroup : group = entry.group
    · rw [if_pos hgroup, if_pos (decide_eq_true hgroup.symm), Option.map_map]
      rfl
    · rw [if_neg hgroup, if_neg (by simpa using Ne.symm hgroup)]

namespace Roster

variable {specs : List (GroupId × Spec ε σ)} {roster after : Roster ε σ} {w last : World ε σ}

/-- The fit state of a group: that of its instance, or the one a new instance would have. -/
def fit? (roster : Roster ε σ) (w : World ε σ) (specs : List (GroupId × Spec ε σ))
    (group : GroupId) : Option σ :=
  (roster.held w specs group).map (·.fit)

/-- A group without a member and without a spec has no fit state. -/
theorem fit?_eq_none {group : GroupId} (hmember : group ∉ roster.map Prod.fst)
    (hspec : group ∉ specs.map Prod.fst) : roster.fit? w specs group = none := by
  have hlookup : specs.lookup group = none := by
    refine List.lookup_eq_none_iff.mpr fun entry hentry ↦ ?_
    rw [bne_iff_ne]
    rintro rfl
    exact hspec (List.mem_map_of_mem hentry)
  rw [fit?, held_of_none (member?_eq_none hmember), hlookup]
  rfl

/-- A snapshot is harmless to a roster: it cannot be read, or the states up to the first that is
refused lead every group back to the fit state it has. -/
def Harmless (roster : Roster ε σ) (w : World ε σ) (snapshot : Snapshot)
    (specs : List (GroupId × Spec ε σ)) : Prop :=
  ∀ entries, snapshot.states.mapM (decodeEntry specs) = .ok entries →
    ∀ group actor, roster.held w specs group = some actor →
      (actor.loadedAll (bytesFor (reached entries (roster.held w specs)) group)).fit = actor.fit

theorem Harmless.restored_eq_held {snapshot : Snapshot} (h : roster.Harmless w snapshot specs) :
    roster.restored w snapshot specs = roster.held w specs := by
  unfold restored
  cases hread : snapshot.states.mapM (decodeEntry specs) with
  | error e => rfl
  | ok entries =>
    funext group
    dsimp only
    rw [Holding.foldl_load]
    cases hactor : roster.held w specs group with
    | none => rfl
    | some actor =>
      rw [Option.map_some, Instance.loadedAll_eq_self (h entries hread group actor hactor)]

/-- What a call to load leaves behind has the former fit states exactly if the snapshot is
harmless. -/
theorem fit?_eq_iff_harmless {snapshot : Snapshot}
    (h : after.held last specs = roster.restored w snapshot specs) :
    (∀ group, after.fit? last specs group = roster.fit? w specs group) ↔
      roster.Harmless w snapshot specs := by
  unfold fit?
  constructor
  · intro hsame entries hread group actor hactor
    have hrestored : after.held last specs group =
        some (actor.loadedAll (bytesFor (reached entries (roster.held w specs)) group)) := by
      rw [h, restored, hread]
      dsimp only
      rw [Holding.foldl_load, hactor, Option.map_some]
    have hgroup := hsame group
    rw [hrestored, hactor, Option.map_some, Option.map_some, Option.some.injEq] at hgroup
    exact hgroup
  · intro hharmless group
    rw [h, hharmless.restored_eq_held]

/-- A snapshot for which there are no groups cannot be read or is empty. -/
theorem harmless_of_nil (roster : Roster ε σ) (w : World ε σ) (snapshot : Snapshot) :
    roster.Harmless w snapshot [] := by
  intro entries hread group actor hactor
  have hnone : entries = [] := by
    refine List.eq_nil_iff_forall_not_mem.mpr fun entry hentry ↦ ?_
    obtain ⟨hlookup, -⟩ := loadable_of_mapM_eq_ok hread entry hentry
    cases hlookup
  rw [hnone]
  rfl

/-! ### Worlds that differ in their journals -/

theorem held_quiet (roster : Roster ε σ) {v : World ε σ} (h : w.Quiet v) :
    roster.held v specs = roster.held w specs := by
  unfold held
  rw [h.instances]

theorem restored_quiet (roster : Roster ε σ) {v : World ε σ} (h : w.Quiet v) (snapshot : Snapshot) :
    roster.restored v snapshot specs = roster.restored w snapshot specs := by
  unfold restored
  rw [roster.held_quiet h]

theorem Grown.of_quiet (hsound : roster.Sound w) {v : World ε σ} (h : w.Quiet v) :
    Grown specs roster w roster v where
  sound := hsound.grow (Nat.le_of_eq (congrArg Array.size h.instances.symm))
  tidy := id
  kept _ _ hmember := hmember
  added _ _ hnone hmember := by
    rw [hnone] at hmember
    cases hmember
  environment := h.environment
  size_le := Nat.le_of_eq (congrArg Array.size h.instances.symm)
  elsewhere _ _ _ := by rw [h.instances]

end Roster

namespace Session

variable [Inhabited σ] {s t : Session ε σ} {w last : World ε σ} {snapshot : Snapshot}
  {e : FlowError}

/-! ### A session that fails to load -/

/-- A session fails to load because it has no application graph, or because its roster fails to. -/
theorem loadState_error (hfaithful : s.Faithful)
    (hfail : Action.result (s.loadState snapshot) w = ((.error e, t), last)) :
    ∃ graphs after middle, w.Quiet middle ∧ ({ s with graphs } : Session ε σ).Faithful ∧
      t = { s with graphs, roster := after } ∧
      ((s.specs = [] ∧ after = s.roster ∧ last = middle) ∨
        Action.result (s.roster.load snapshot s.specs) middle = ((.error e, after), last)) := by
  cases loaded hfaithful snapshot w with
  | @refused e' graphs middle hbuild hquiet hkept hresult =>
    have hspecs : s.specs = [] := by rw [specs, hbuild]
    cases hresult.symm.trans hfail
    exact ⟨graphs, s.roster, last, hquiet, hkept, rfl, .inl ⟨hspecs, rfl, rfl⟩⟩
  | @failed g e' graphs after middle last' hbuild hquiet hkept hload hresult =>
    have hspecs : s.specs = g.groups := by rw [specs, hbuild]
    cases hresult.symm.trans hfail
    exact ⟨graphs, after, middle, hquiet, hkept, rfl, .inr (hspecs ▸ hload)⟩
  | completed hbuild hquiet hkept hload hresult => cases hresult.symm.trans hfail

/-- When a session fails to load, its roster has grown and holds what has been restored. -/
theorem grown_of_loadState_error (hsound : s.roster.Sound w) (hfaithful : s.Faithful)
    (hfail : Action.result (s.loadState snapshot) w = ((.error e, t), last)) :
    Roster.Grown s.specs s.roster w t.roster last ∧
      t.roster.held last s.specs = s.roster.restored w snapshot s.specs ∧
      ∃ graphs, t = { s with graphs, roster := t.roster } ∧
        ({ s with graphs } : Session ε σ).Faithful := by
  obtain ⟨graphs, after, middle, hquiet, hkept, rfl, ⟨hspecs, rfl, rfl⟩ | hload⟩ :=
    loadState_error hfaithful hfail
  · refine ⟨.of_quiet hsound hquiet, ?_, graphs, rfl, hkept⟩
    have hharmless := s.roster.harmless_of_nil w snapshot
    rw [hspecs, hharmless.restored_eq_held]
    exact s.roster.held_quiet hquiet
  · have hstart : Roster.Grown s.specs s.roster w s.roster middle := .of_quiet hsound hquiet
    obtain ⟨hgrown, hheld⟩ := s.roster.load_failed hstart.sound hload
    refine ⟨hstart.trans hgrown, ?_, graphs, rfl, hkept⟩
    rw [← s.roster.restored_quiet hquiet]
    exact hheld

/-- What an application gives after some calls. -/
def applyAfter (s : Session ε σ) (w : World ε σ) (cs : List Call) (runner : Option String)
    (schedule : Schedule) : Except (Halt FlowError) Report :=
  let after := Action.result (s.calls cs) w
  (Action.result (after.1.invoke .apply runner schedule) after.2).1.1

theorem Coupled.applyAfter {π : Pairing ε σ} {v : World ε σ} (h : Coupled π s t w v)
    (cs : List Call) (runner : Option String) (schedule : Schedule) :
    t.applyAfter v cs runner schedule = s.applyAfter w cs runner schedule := by
  obtain ⟨π', hafter⟩ := h.calls cs
  exact (hafter.invoke .apply runner schedule).answer

/-- Whatever a roster or a session has been through, a call to load that fails changes no mark, and
it leaves all fit states as they were exactly if the snapshot is harmless. After a harmless call of
a session every later application gives what it would have given without the call. -/
theorem unchanged_iff_harmless :
    (∀ {roster after : Roster ε σ} {w last : World ε σ} {snapshot : Snapshot}
      {specs : List (GroupId × Spec ε σ)} {e : FlowError}, roster.Reachable w →
      Action.result (roster.load snapshot specs) w = ((.error e, after), last) →
        (∀ group, after.isTrained group = roster.isTrained group) ∧
        ((∀ group, after.fit? last specs group = roster.fit? w specs group) ↔
          roster.Harmless w snapshot specs)) ∧
    ∀ {s t : Session ε σ} {w last : World ε σ} {snapshot : Snapshot} {e : FlowError},
      s.Reachable w →
      Action.result (s.loadState snapshot) w = ((.error e, t), last) →
        (∀ group, t.roster.isTrained group = s.roster.isTrained group) ∧
        ((∀ group, t.roster.fit? last s.specs group = s.roster.fit? w s.specs group) ↔
          s.roster.Harmless w snapshot s.specs) ∧
        (s.roster.Harmless w snapshot s.specs → ∀ cs runner schedule,
          t.applyAfter last cs runner schedule = s.applyAfter w cs runner schedule) := by
  constructor
  · intro roster after w last snapshot specs e hreachable hfail
    obtain ⟨hgrown, hheld⟩ := roster.load_failed hreachable.sound_tidy.1 hfail
    exact ⟨hgrown.isTrained, Roster.fit?_eq_iff_harmless hheld⟩
  · intro s t w last snapshot e hreachable hfail
    obtain ⟨hsound, hfaithful⟩ := hreachable.invariant
    obtain ⟨hgrown, hheld, graphs, ht, hkept⟩ := grown_of_loadState_error hsound hfaithful hfail
    refine ⟨hgrown.isTrained, Roster.fit?_eq_iff_harmless hheld,
      fun hharmless cs runner schedule ↦ ?_⟩
    have hcoupled := coupled_of_grown hsound hgrown (hheld.trans hharmless.restored_eq_held)
      hfaithful hkept
    rw [← ht] at hcoupled
    exact hcoupled.applyAfter cs runner schedule

/-- An actor whose fit state is a number, persisted as one byte. It adds that many cells to its
input. -/
def gauge : Spec Unit Nat where
  name := "gauge"
  stateful := true
  behavior :=
    { fresh := 0
      apply := fun inputs fit env ↦
        match inputs with
        | [.column cells] => (.ok (.column (cells ++ List.replicate fit .null)), env)
        | _ => (.ok (.column (List.replicate fit .null)), env)
      train := fun _ _ fit env ↦ (.ok (), fit, env)
      exportState := fun fit ↦ .ok (some [UInt8.ofNat fit])
      loadState := fun bytes fit ↦
        match bytes with
        | [] => (.error (.state "no byte"), fit)
        | byte :: _ => (.ok (), byte.toNat) }

/-- A session of two gauges in sequence. -/
def gauges : Session Unit Nat :=
  Runtime.launch ⟨{ runners := [.sequential] }, .ofTables [("rows", ⟨["x"], []⟩)], .collecting⟩ 0
    ⟨⟨"rows", none⟩, ⟨0, .sequence (.mapper gauge) (.mapper gauge)⟩, none⟩

/-- The session of gauges after both have loaded the number one. -/
def gaugesLoaded : Session Unit Nat × World Unit Nat :=
  Action.result (gauges.call (.loadState ⟨[("0.0", "AQ=="), ("0.1", "AQ==")]⟩)) (World.new ())

/-- The number of cells of a report. -/
def cells (result : Except (Halt FlowError) Report) : Option Nat :=
  match result with
  | .ok { output := some (.column cells), .. } => some cells.length
  | _ => none

theorem reachable_gaugesLoaded : gaugesLoaded.1.Reachable gaugesLoaded.2 :=
  .call (.launch _ _ _ _) _

/-- How it ends when the loaded gauges load a snapshot. -/
def gaugesAfter (snapshot : Snapshot) :
    (Except FlowError Unit × Session Unit Nat) × World Unit Nat :=
  Action.result (gaugesLoaded.1.loadState snapshot) gaugesLoaded.2

/-- Loading is not all or nothing: the first gauge has loaded the number two when the second
refuses, and the next application runs on it. -/
theorem loading_not_atomic :
    ¬ ∀ (s t : Session Unit Nat) (w last : World Unit Nat) (snapshot : Snapshot) (e : FlowError),
      s.Reachable w → Action.result (s.loadState snapshot) w = ((.error e, t), last) →
        (∀ group, t.roster.isTrained group = s.roster.isTrained group) ∧
        (∀ group, t.roster.fit? last s.specs group = s.roster.fit? w s.specs group) ∧
        ∀ cs runner schedule,
          t.applyAfter last cs runner schedule = s.applyAfter w cs runner schedule := by
  intro hatomic
  let snapshot : Snapshot := ⟨[("0.0", "Ag=="), ("0.1", "")]⟩
  cases hresult : (gaugesAfter snapshot).1.1 with
  | ok u =>
    have hfails : (gaugesAfter snapshot).1.1.isOk = false := by decide +kernel
    rw [hresult] at hfails
    cases hfails
  | error e =>
    obtain ⟨-, -, hsame⟩ := hatomic gaugesLoaded.1 (gaugesAfter snapshot).1.2 gaugesLoaded.2
      (gaugesAfter snapshot).2 snapshot e reachable_gaugesLoaded
      (Prod.ext (Prod.ext hresult rfl) rfl)
    have hdiffer : cells ((gaugesAfter snapshot).1.2.applyAfter (gaugesAfter snapshot).2 [] none
        .inOrder) ≠ cells (gaugesLoaded.1.applyAfter gaugesLoaded.2 [] none .inOrder) := by
      decide +kernel
    exact hdiffer (congrArg cells (hsame [] none .inOrder))

/-- A snapshot whose first state is the one the gauge has is harmless, although the second is
refused. -/
theorem unchanged_iff_harmless_gauges :
    let snapshot : Snapshot := ⟨[("0.0", "AQ=="), ("0.1", "")]⟩
    let after := gaugesAfter snapshot
    (∃ e, after.1.1 = .error e) ∧
      gaugesLoaded.1.roster.Harmless gaugesLoaded.2 snapshot gaugesLoaded.1.specs ∧
      ∀ cs runner schedule, after.1.2.applyAfter after.2 cs runner schedule =
        gaugesLoaded.1.applyAfter gaugesLoaded.2 cs runner schedule := by
  intro snapshot after
  cases hresult : after.1.1 with
  | ok u =>
    have hfails : after.1.1.isOk = false := by decide +kernel
    rw [hresult] at hfails
    cases hfails
  | error e =>
    obtain ⟨-, hiff, happly⟩ := unchanged_iff_harmless.2 reachable_gaugesLoaded
      (show Action.result (gaugesLoaded.1.loadState snapshot) gaugesLoaded.2 =
        ((.error e, after.1.2), after.2) from Prod.ext (Prod.ext hresult rfl) rfl)
    have hharmless :
        gaugesLoaded.1.roster.Harmless gaugesLoaded.2 snapshot gaugesLoaded.1.specs := by
      have hspecs : gaugesLoaded.1.specs.map Prod.fst = [⟨0, 0⟩, ⟨0, 1⟩] := by decide +kernel
      have hbefore : gaugesLoaded.1.roster.map Prod.fst = [⟨0, 0⟩, ⟨0, 1⟩] := by decide +kernel
      have hafter : after.1.2.roster.map Prod.fst = [⟨0, 0⟩, ⟨0, 1⟩] := by decide +kernel
      refine hiff.mp fun group ↦ ?_
      by_cases hgroup : group = ⟨0, 0⟩ ∨ group = ⟨0, 1⟩
      · rcases hgroup with rfl | rfl
        · decide +kernel
        · decide +kernel
      · have hnot : group ∉ [⟨0, 0⟩, (⟨0, 1⟩ : GroupId)] := by simpa using hgroup
        rw [Roster.fit?_eq_none (hafter ▸ hnot) (hspecs ▸ hnot),
          Roster.fit?_eq_none (hbefore ▸ hnot) (hspecs ▸ hnot)]
    exact ⟨⟨e, rfl⟩, hharmless, happly hharmless⟩

end Session

end Dataflow
