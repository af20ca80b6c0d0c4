import Dataflow.Proofs.Binding
import Dataflow.Proofs.Labels

/-!
# Loading persisted states

A roster loads the states of a snapshot one after another. The first state that is refused ends it,
and nothing is taken back: the states before it stay loaded, and the instance that refused is left
as it has left itself. `Roster.restored` says what every group then holds, as a function of what the
groups held and of the snapshot. It is what a call leaves behind, whether it fails or not
(`Roster.result_load`).

A call that fails changes no mark. So it has changed nothing exactly if `Roster.restored` gives what
the groups held, as it does when the snapshot cannot be read (`Roster.load_failed`).

An instance that a call makes for a group without one is new, so a group without an instance counts
as holding a new one (`Roster.held`).
-/

set_option autoImplicit false
set_option relaxedAutoImplicit false

namespace Dataflow

variable {ε σ α β : Type}

/-! ### One state -/

/-- How it ends when an instance loads a state, and the instance after it. -/
def Instance.loaded (actor : Instance ε σ) (bytes : Bytes) :
    Except ActorError Unit × Instance ε σ :=
  let (result, fit) := actor.behavior.loadState bytes actor.fit
  (result, { actor with fit })

/-- An instance that loads a state changes its fit state only. -/
theorem Action.result_loadState {w : World ε σ} {id : InstanceId} {actor : Instance ε σ}
    (h : w.instances[id]? = some actor) (bytes : Bytes) :
    result (loadState id bytes) w =
      (some (actor.loaded bytes).1, w.setFit id (actor.loaded bytes).2.fit) := by
  change loadState id bytes w = _
  rw [loadState, h]
  rfl

/-- What groups hold: an instance each. -/
abbrev Holding (ε σ : Type) : Type :=
  GroupId → Option (Instance ε σ)

/-- A group loads a state. -/
def Holding.load (held : Holding ε σ) (entry : Roster.Pending ε σ) : Holding ε σ := fun group ↦
  if group = entry.group then (held group).map fun actor ↦ (actor.loaded entry.bytes).2
  else held group

/-- The error of a group that refuses a state. -/
def Holding.refusal? (held : Holding ε σ) (entry : Roster.Pending ε σ) : Option ActorError :=
  match held entry.group with
  | some actor =>
    match (actor.loaded entry.bytes).1 with
    | .error e => some e
    | .ok () => none
  | none => none

namespace Roster

/-- What a group of a roster holds: its instance, or else a new one of its spec. -/
def held (roster : Roster ε σ) (w : World ε σ) (specs : List (GroupId × Spec ε σ)) :
    Holding ε σ := fun group ↦
  match roster.member? group with
  | some member => w.instances[member.actor]?
  | none => (specs.lookup group).map Spec.instantiate

/-- The states that are loaded, or refused: all up to the first that is refused. -/
def reached : List (Pending ε σ) → Holding ε σ → List (Pending ε σ)
  | [], _ => []
  | entry :: rest, held =>
    match held.refusal? entry with
    | some _ => [entry]
    | none => entry :: reached rest (held.load entry)

/-- How loading states ends. -/
def outcome : List (Pending ε σ) → Holding ε σ → Except FlowError Unit
  | [], _ => .ok ()
  | entry :: rest, held =>
    match held.refusal? entry with
    | some e => .error (.state s!"group {entry.group.text}: {e.message}")
    | none => outcome rest (held.load entry)

/-- What the groups hold after a call to load a snapshot. -/
def restored (roster : Roster ε σ) (w : World ε σ) (snapshot : Snapshot)
    (specs : List (GroupId × Spec ε σ)) : Holding ε σ :=
  match snapshot.states.mapM (decodeEntry specs) with
  | .error _ => roster.held w specs
  | .ok entries => (reached entries (roster.held w specs)).foldl Holding.load (roster.held w specs)

/-! ### Growing rosters -/

variable {specs : List (GroupId × Spec ε σ)} {roster after : Roster ε σ} {w last : World ε σ}

theorem held_of_member {group : GroupId} {member : Member ε σ}
    (h : roster.member? group = some member) :
    roster.held w specs group = w.instances[member.actor]? := by
  rw [held, h]

theorem held_of_none {group : GroupId} (h : roster.member? group = none) :
    roster.held w specs group = (specs.lookup group).map Spec.instantiate := by
  rw [held, h]

theorem Sound.grow (h : roster.Sound w) (hsize : w.instances.size ≤ last.instances.size) :
    roster.Sound last where
  lt group member hmember := Nat.lt_of_lt_of_le (h.lt group member hmember) hsize
  distinct := h.distinct

/-- A roster has got members for stateful groups of `specs`, and nothing else has changed but fit
states of its members. -/
structure Grown (specs : List (GroupId × Spec ε σ)) (roster : Roster ε σ) (w : World ε σ)
    (after : Roster ε σ) (last : World ε σ) : Prop where
  sound : after.Sound last
  tidy : roster.Tidy → after.Tidy
  kept : ∀ group member, roster.member? group = some member → after.member? group = some member
  /-- A new member has a new instance and does not count as trained. -/
  added : ∀ group member, roster.member? group = none → after.member? group = some member →
    w.instances.size ≤ member.actor ∧ member.trained = false ∧
      specs.lookup group = some member.spec ∧ member.spec.stateful = true
  environment : last.environment = w.environment
  size_le : w.instances.size ≤ last.instances.size
  elsewhere : ∀ id < w.instances.size,
    (∀ group member, roster.member? group = some member → member.actor ≠ id) →
      last.instances[id]? = w.instances[id]?

namespace Grown

theorem refl (h : roster.Sound w) : Grown specs roster w roster w where
  sound := h
  tidy := id
  kept _ _ hmember := hmember
  added _ _ hnone hmember := by
    rw [hnone] at hmember
    cases hmember
  environment := rfl
  size_le := Nat.le_refl _
  elsewhere _ _ _ := rfl

theorem trans {middle : Roster ε σ} {v : World ε σ} (h : Grown specs roster w middle v)
    (h' : Grown specs middle v after last) : Grown specs roster w after last where
  sound := h'.sound
  tidy := h'.tidy ∘ h.tidy
  kept group member hmember := h'.kept group member (h.kept group member hmember)
  added group member hnone hmember := by
    cases hmiddle : middle.member? group with
    | none =>
      obtain ⟨hle, hrest⟩ := h'.added group member hmiddle hmember
      exact ⟨Nat.le_trans h.size_le hle, hrest⟩
    | some found =>
      obtain rfl : found = member :=
        Option.some.inj ((h'.kept group found hmiddle).symm.trans hmember)
      exact h.added group found hnone hmiddle
  environment := h'.environment.trans h.environment
  size_le := Nat.le_trans h.size_le h'.size_le
  elsewhere id hid hfree := by
    refine (h'.elsewhere id (Nat.lt_of_lt_of_le hid h.size_le) ?_).trans (h.elsewhere id hid hfree)
    intro group member hmember
    cases hroster : roster.member? group with
    | none =>
      obtain ⟨hle, -⟩ := h.added group member hroster hmember
      exact Nat.ne_of_gt (Nat.lt_of_lt_of_le hid hle)
    | some found =>
      obtain rfl : found = member :=
        Option.some.inj ((h.kept group found hroster).symm.trans hmember)
      exact hfree group found hroster

/-- No mark is set where members are added. -/
theorem isTrained (h : Grown specs roster w after last) (group : GroupId) :
    after.isTrained group = roster.isTrained group := by
  unfold Roster.isTrained
  cases hroster : roster.member? group with
  | some member => rw [h.kept group member hroster]
  | none =>
    cases hafter : after.member? group with
    | none => rfl
    | some member =>
      obtain ⟨-, huntrained, -⟩ := h.added group member hroster hafter
      rw [Option.any_some, Option.any_none, huntrained]

end Grown

/-! ### Loading one state after another -/

/-- A group that asks for its instance has one afterwards, and holds what it held. -/
theorem result_request (h : roster.Sound w) {group : GroupId} {spec : Spec ε σ}
    (hspec : specs.lookup group = some spec) (hstateful : spec.stateful = true) :
    ∃ member after last,
      Action.result (roster.request group spec) w = ((member.actor, after), last) ∧
      after.member? group = some member ∧ Grown specs roster w after last ∧
        after.held last specs = roster.held w specs := by
  cases hmember : roster.member? group with
  | some member =>
    exact ⟨member, roster, w, request_of_member hmember spec w, hmember, .refl h, rfl⟩
  | none =>
    have hput : (roster.put group ⟨spec, w.instances.size, false⟩).member? group =
        some ⟨spec, w.instances.size, false⟩ := by
      rw [member?_put, if_pos rfl]
    refine ⟨_, _, w.spawned spec, request_of_none hmember spec w, hput, ?_, ?_⟩
    · refine ⟨h.put_spawned group spec false, fun htidy ↦ htidy.put group _,
        fun other member hother ↦ ?_, fun other member hother hnew ↦ ?_, rfl, ?_, fun id hid _ ↦ ?_⟩
      · rw [member?_put, if_neg fun hsame ↦ ?_]
        · exact hother
        · rw [hsame, hmember] at hother
          cases hother
      · rw [member?_put] at hnew
        split_ifs at hnew with hsame
        · obtain rfl := Option.some.inj hnew
          exact ⟨Nat.le_refl _, rfl, hsame ▸ hspec, hstateful⟩
        · rw [hother] at hnew
          cases hnew
      · rw [World.size_spawned]
        exact Nat.le_succ _
      · exact World.instances_spawned_of_lt hid spec
    · funext other
      by_cases hsame : other = group
      · subst hsame
        rw [held_of_member hput, held_of_none hmember, hspec, World.instances_spawned_self]
        rfl
      · cases hother : roster.member? other with
        | none =>
          rw [held_of_none hother, held_of_none]
          rw [member?_put, if_neg hsame, hother]
        | some found =>
          have hlt := h.lt other found hother
          have hkept :
              (roster.put group ⟨spec, w.instances.size, false⟩).member? other = some found := by
            rw [member?_put, if_neg hsame, hother]
          rw [held_of_member hother, held_of_member hkept, World.instances_spawned_of_lt hlt]

/-- When the instance of a group takes on a fit state, only what the group holds changes. -/
theorem held_setFit (h : roster.Sound w) {group : GroupId} {member : Member ε σ}
    (hmember : roster.member? group = some member) (fit : σ) (other : GroupId) :
    roster.held (w.setFit member.actor fit) specs other =
      if other = group then (roster.held w specs other).map fun actor ↦ { actor with fit }
      else roster.held w specs other := by
  split_ifs with hsame
  · subst hsame
    rw [held_of_member hmember, held_of_member hmember, World.instances_setFit, if_pos rfl]
  · cases hother : roster.member? other with
    | none => rw [held_of_none hother, held_of_none hother]
    | some found =>
      rw [held_of_member hother, held_of_member hother]
      refine World.instances_setFit_of_ne w (fun hactor ↦ hsame ?_) fit
      exact (h.distinct group other member found hmember hother hactor).symm

theorem Grown.setFit (h : roster.Sound w) {group : GroupId} {member : Member ε σ}
    (hmember : roster.member? group = some member) (fit : σ) :
    Grown specs roster w roster (w.setFit member.actor fit) where
  sound := h.grow (Nat.le_of_eq Array.size_modify.symm)
  tidy := id
  kept _ _ hfound := hfound
  added _ _ hnone hfound := by
    rw [hnone] at hfound
    cases hfound
  environment := rfl
  size_le := Nat.le_of_eq Array.size_modify.symm
  elsewhere _ _ hfree := World.instances_setFit_of_ne w (hfree group member hmember) fit

/-- The groups of states have stateful specs, as they do if the states were read from a snapshot. -/
def Loadable (specs : List (GroupId × Spec ε σ)) (entries : List (Pending ε σ)) : Prop :=
  ∀ entry ∈ entries, specs.lookup entry.group = some entry.spec ∧ entry.spec.stateful = true

theorem Loadable.tail {entry : Pending ε σ} {rest : List (Pending ε σ)}
    (h : Loadable specs (entry :: rest)) : Loadable specs rest := fun other hother ↦
  h other (List.mem_cons_of_mem _ hother)

/-- The first state is loaded into the instance its group asks for, and the others only if it is not
refused. -/
theorem result_loadEach_cons {entry : Pending ε σ} {id : InstanceId} {asked : Roster ε σ}
    {v : World ε σ} (h : Action.result (roster.request entry.group entry.spec) w = ((id, asked), v))
    (rest : List (Pending ε σ)) :
    Action.result (loadEach (entry :: rest) roster) w =
      match Action.result (Action.loadState id entry.bytes) v with
      | (some (.error e), last) =>
        ((.error (.state s!"group {entry.group.text}: {e.message}"), asked), last)
      | (_, last) => Action.result (loadEach rest asked) last := by
  rw [loadEach, Action.result_bind, h]
  dsimp only
  rw [Action.result_bind]
  rcases Action.result (Action.loadState id entry.bytes) v with ⟨_ | e | u, last⟩ <;> rfl

/-- Loading states stops at the first that is refused, and has then done what was reached. -/
theorem result_loadEach {entries : List (Pending ε σ)} (hentries : Loadable specs entries)
    (h : roster.Sound w) :
    ∃ after last, Action.result (loadEach entries roster) w =
        ((outcome entries (roster.held w specs), after), last) ∧
      Grown specs roster w after last ∧ after.held last specs =
        (reached entries (roster.held w specs)).foldl Holding.load (roster.held w specs) := by
  induction entries generalizing roster w with
  | nil => exact ⟨roster, w, rfl, .refl h, rfl⟩
  | cons entry rest ih =>
    obtain ⟨hspec, hstateful⟩ := hentries entry List.mem_cons_self
    obtain ⟨member, asked, v, hrequest, hmember, hgrown, hheld⟩ := result_request h hspec hstateful
    obtain ⟨actor, hactor⟩ : ∃ actor, v.instances[member.actor]? = some actor :=
      ⟨_, Array.getElem?_eq_getElem (hgrown.sound.lt _ _ hmember)⟩
    have hholds : roster.held w specs entry.group = some actor := by
      rw [← hheld, held_of_member hmember, hactor]
    have hloaded := Action.result_loadState hactor entry.bytes
    have hset := hgrown.trans (.setFit hgrown.sound hmember (actor.loaded entry.bytes).2.fit)
    have hload : asked.held (v.setFit member.actor (actor.loaded entry.bytes).2.fit) specs =
        (roster.held w specs).load entry := by
      funext other
      rw [held_setFit hgrown.sound hmember, hheld, Holding.load]
      split_ifs with hsame
      · rw [hsame, hholds]
        rfl
      · rfl
    rw [result_loadEach_cons hrequest, hloaded, outcome, reached, Holding.refusal?, hholds]
    dsimp only
    cases hresult : (actor.loaded entry.bytes).1 with
    | error e => exact ⟨_, _, rfl, hset, hload⟩
    | ok u =>
      obtain ⟨after, last, hrest, hafter, hheld'⟩ :=
        ih hentries.tail hset.sound
      rw [hload] at hrest hheld'
      exact ⟨after, last, hrest, hset.trans hafter, hheld'⟩

/-! ### Loading a snapshot -/

/-- An entry that can be read has the text of a group with a spec that is stateful. -/
theorem decodeEntry_eq_ok {entry : String × String} {pending : Pending ε σ}
    (h : decodeEntry specs entry = .ok pending) :
    GroupId.parse entry.1 = .ok pending.group ∧
      specs.lookup pending.group = some pending.spec ∧ pending.spec.stateful = true := by
  obtain ⟨key, encoded⟩ := entry
  unfold decodeEntry at h
  dsimp only at h
  cases hgroup : GroupId.parse key with
  | error fault =>
    rw [hgroup] at h
    cases h
  | ok group =>
    rw [hgroup] at h
    cases hspec : specs.lookup group with
    | none =>
      simp only [pure_bind, hspec] at h
      cases h
    | some spec =>
      simp only [pure_bind, hspec] at h
      by_cases hstateful : spec.stateful = true
      · rw [if_pos hstateful] at h
        cases hbytes : Text.Base64.decode encoded with
        | error fault =>
          rw [hbytes] at h
          cases h
        | ok bytes =>
          rw [hbytes] at h
          obtain rfl : ({ group, spec, bytes } : Pending ε σ) = pending := Except.ok.inj h
          exact ⟨rfl, hspec, hstateful⟩
      · rw [if_neg hstateful] at h
        cases h

theorem mem_of_mapM_eq_ok {δ : Type} {f : α → Except δ β} {l : List α} {m : List β}
    (h : l.mapM f = .ok m) {b : β} (hb : b ∈ m) : ∃ a ∈ l, f a = .ok b := by
  rw [mapM_eq_ok_iff] at h
  induction h with
  | nil => cases hb
  | cons hfirst _ ih =>
    rcases List.mem_cons.mp hb with rfl | hb
    · exact ⟨_, List.mem_cons_self, hfirst⟩
    · obtain ⟨found, hfound, hgives⟩ := ih hb
      exact ⟨found, List.mem_cons_of_mem _ hfound, hgives⟩

theorem loadable_of_mapM_eq_ok {states : List (String × String)} {entries : List (Pending ε σ)}
    (h : states.mapM (decodeEntry specs) = .ok entries) : Loadable specs entries := by
  intro entry hentry
  obtain ⟨text, -, hdecoded⟩ := mem_of_mapM_eq_ok h hentry
  exact (decodeEntry_eq_ok hdecoded).2

/-- The three ways in which a call to load a snapshot ends: it cannot be read, a state is refused,
or all are loaded. -/
theorem result_load (h : roster.Sound w) (snapshot : Snapshot) :
    (∃ e, snapshot.states.mapM (decodeEntry specs) = .error e ∧
      Action.result (roster.load snapshot specs) w = ((.error e, roster), w)) ∨
    ∃ entries after last, snapshot.states.mapM (decodeEntry specs) = .ok entries ∧
      Grown specs roster w after last ∧
      after.held last specs = roster.restored w snapshot specs ∧
      ((∃ e, outcome entries (roster.held w specs) = .error e ∧
          Action.result (roster.load snapshot specs) w = ((.error e, after), last)) ∨
        (outcome entries (roster.held w specs) = .ok () ∧
          Action.result (roster.load snapshot specs) w =
            ((.ok entries.length, after.markTrained (entries.map (·.group))), last))) := by
  cases hread : snapshot.states.mapM (decodeEntry specs) with
  | error e =>
    refine .inl ⟨e, rfl, ?_⟩
    rw [load, hread]
    rfl
  | ok entries =>
    obtain ⟨after, last, hresult, hgrown, hheld⟩ :=
      result_loadEach (loadable_of_mapM_eq_ok hread) h
    have hload : Action.result (roster.load snapshot specs) w =
        match outcome entries (roster.held w specs) with
        | .error e => ((.error e, after), last)
        | .ok () => ((.ok entries.length, after.markTrained (entries.map (·.group))), last) := by
      rw [load, hread]
      dsimp only
      rw [Action.result_bind, hresult]
      cases outcome entries (roster.held w specs) with
      | error e => rfl
      | ok u => rfl
    refine .inr ⟨entries, after, last, rfl, hgrown, ?_, ?_⟩
    · rw [restored, hread]
      exact hheld
    · cases houtcome : outcome entries (roster.held w specs) with
      | error e =>
        rw [houtcome] at hload
        exact .inl ⟨e, rfl, hload⟩
      | ok u =>
        rw [houtcome] at hload
        exact .inr ⟨rfl, hload⟩

/-- A call to load that fails changes no mark, and it leaves behind what `restored` says. -/
theorem load_failed (h : roster.Sound w) {snapshot : Snapshot} {e : FlowError}
    (hfail : Action.result (roster.load snapshot specs) w = ((.error e, after), last)) :
    Grown specs roster w after last ∧ after.held last specs = roster.restored w snapshot specs := by
  rcases roster.result_load h snapshot with ⟨e', hread, hload⟩ |
    ⟨entries, loaded, v, -, hgrown, hheld, ⟨e', -, hload⟩ | ⟨-, hload⟩⟩
  · rw [hload] at hfail
    cases hfail
    refine ⟨.refl h, ?_⟩
    rw [restored, hread]
  · rw [hload] at hfail
    cases hfail
    exact ⟨hgrown, hheld⟩
  · rw [hload] at hfail
    cases hfail

end Roster

end Dataflow
