import Dataflow.Proofs.Coupling
import Dataflow.Proofs.Histories

/-!
# Coupled rosters

Two rosters are `Roster.Coupled` if their groups hold the same: paired instances that count alike as
trained. The second roster may have members that the first does not have, as long as they do not
count as trained and hold what a new instance would. Such members are idle until they are asked for,
and until then they are set aside.

Coupled rosters stay coupled when nodes are bound, members are marked and adopted, and states are
loaded, and they accept and refuse the same states (`Roster.coupled_bind`, `Roster.Coupled.commit`,
`Roster.coupled_load`).
-/

set_option autoImplicit false
set_option relaxedAutoImplicit false

namespace Dataflow

variable {ε σ : Type}

/-! ### Pairing more instances -/

namespace Pairing

/-- Pairs two more instances. The second is no longer set aside. -/
def extend (π : Pairing ε σ) (i j : InstanceId) (hi : ∀ k, ¬ π.paired i k)
    (hj : ∀ k, ¬ π.paired k j) : Pairing ε σ where
  paired a b := π.paired a b ∨ (a = i ∧ b = j)
  aside b actor := π.aside b actor ∧ b ≠ j
  left {a b k} ha hb := by
    rcases ha with ha | ⟨rfl, rfl⟩ <;> rcases hb with hb | ⟨rfl, hk⟩
    · exact π.left ha hb
    · exact absurd (hk ▸ ha) (hj a)
    · exact absurd hb (hj b)
    · rfl
  right {a b k} ha hb := by
    rcases ha with ha | ⟨rfl, rfl⟩ <;> rcases hb with hb | ⟨hk, rfl⟩
    · exact π.right ha hb
    · exact absurd (hk ▸ ha) (hi b)
    · exact absurd hb (hi k)
    · rfl
  apart {a b actor} ha hb := by
    rcases ha with ha | ⟨-, rfl⟩
    · exact π.apart ha hb.1
    · exact hb.2 rfl

/-- All pairs of a pairing are pairs of another, and all that it sets aside the other sets aside. -/
structure Within (π π' : Pairing ε σ) : Prop where
  paired : ∀ {i j}, π.paired i j → π'.paired i j
  aside : ∀ {j actor}, π.aside j actor → π'.aside j actor

theorem Within.refl (π : Pairing ε σ) : π.Within π := ⟨id, id⟩

theorem Within.trans {π π' π'' : Pairing ε σ} (h : π.Within π') (h' : π'.Within π'') :
    π.Within π'' := ⟨h'.paired ∘ h.paired, h'.aside ∘ h.aside⟩

end Pairing

namespace World.Coupled

variable {π : Pairing ε σ} {w v : World ε σ}

theorem quiet (h : Coupled π w v) {w' v' : World ε σ} (hw : w.Quiet w') (hv : v.Quiet v') :
    Coupled π w' v' where
  same hpair := by
    rw [hw.instances, hv.instances]
    exact h.same hpair
  aside haside := by
    rw [hv.instances]
    exact h.aside haside
  environment := by rw [hw.environment, hv.environment, h.environment]

theorem lt_left (h : Coupled π w v) {i j : InstanceId} (hpair : π.paired i j) :
    i < w.instances.size := by
  obtain ⟨actor, hw, -⟩ := h.same hpair
  exact (Array.getElem?_eq_some_iff.mp hw).1

theorem lt_right (h : Coupled π w v) {i j : InstanceId} (hpair : π.paired i j) :
    j < v.instances.size := by
  obtain ⟨actor, -, hv⟩ := h.same hpair
  exact (Array.getElem?_eq_some_iff.mp hv).1

theorem lt_of_aside (h : Coupled π w v) {j : InstanceId} {actor : Instance ε σ}
    (haside : π.aside j actor) : j < v.instances.size :=
  (Array.getElem?_eq_some_iff.mp (h.aside haside)).1

/-- The next instances of two worlds are not paired yet. -/
theorem fresh_left (h : Coupled π w v) (k : InstanceId) : ¬ π.paired w.instances.size k :=
  fun hpair ↦ Nat.lt_irrefl _ (h.lt_left hpair)

theorem fresh_right (h : Coupled π w v) (k : InstanceId) : ¬ π.paired k v.instances.size :=
  fun hpair ↦ Nat.lt_irrefl _ (h.lt_right hpair)

/-- The pairing of two worlds that each make an instance. -/
def pairing (h : Coupled π w v) : Pairing ε σ :=
  π.extend w.instances.size v.instances.size h.fresh_left h.fresh_right

theorem within_pairing (h : Coupled π w v) : π.Within h.pairing where
  paired := .inl
  aside haside := ⟨haside, Nat.ne_of_lt (h.lt_of_aside haside)⟩

/-- Two worlds that each make an instance of one spec stay coupled. -/
theorem spawned (h : Coupled π w v) (spec : Spec ε σ) :
    Coupled h.pairing (w.spawned spec) (v.spawned spec) where
  same {i j} hpair := by
    rcases hpair with hpair | ⟨rfl, rfl⟩
    · rw [instances_spawned_of_lt (h.lt_left hpair), instances_spawned_of_lt (h.lt_right hpair)]
      exact h.same hpair
    · exact ⟨_, instances_spawned_self w spec, instances_spawned_self v spec⟩
  aside {j actor} haside := by
    rw [instances_spawned_of_lt (h.lt_of_aside haside.1)]
    exact h.aside haside.1
  environment := h.environment

end World.Coupled

/-! ### Coupled rosters -/

/-- Two members are coupled: they have paired instances of one spec and count alike as trained. -/
structure Member.Coupled (π : Pairing ε σ) (member other : Member ε σ) : Prop where
  actor : π.paired member.actor other.actor
  spec : other.spec = member.spec
  trained : other.trained = member.trained

namespace Roster

/-- Two rosters are coupled: a group has coupled members in both, or none in the first and in the
second at most one that is idle. -/
structure Coupled (π : Pairing ε σ) (specs : List (GroupId × Spec ε σ))
    (roster other : Roster ε σ) :
    Prop where
  member : ∀ {group member}, roster.member? group = some member →
    ∃ found, other.member? group = some found ∧ member.Coupled π found
  idle : ∀ {group found}, roster.member? group = none → other.member? group = some found →
    found.trained = false ∧ specs.lookup group = some found.spec ∧ found.spec.stateful = true ∧
      π.aside found.actor found.spec.instantiate

/-- A group that has no member in the first roster has none in the second either. -/
def Level (roster other : Roster ε σ) (group : GroupId) : Prop :=
  roster.member? group = none → other.member? group = none

variable {π : Pairing ε σ} {specs : List (GroupId × Spec ε σ)} {roster other : Roster ε σ}
  {w v : World ε σ}

theorem coupled_empty (π : Pairing ε σ) (specs : List (GroupId × Spec ε σ)) :
    Coupled π specs (empty : Roster ε σ) empty where
  member h := nomatch h
  idle _ h := nomatch h

theorem Coupled.mono (h : Coupled π specs roster other) {π' : Pairing ε σ} (hπ : π.Within π') :
    Coupled π' specs roster other where
  member hmember := by
    obtain ⟨found, hfound, hactor, hspec, htrained⟩ := h.member hmember
    exact ⟨found, hfound, hπ.paired hactor, hspec, htrained⟩
  idle hnone hfound := by
    obtain ⟨htrained, hlookup, hstateful, haside⟩ := h.idle hnone hfound
    exact ⟨htrained, hlookup, hstateful, hπ.aside haside⟩

theorem Coupled.isTrained (h : Coupled π specs roster other) (group : GroupId) :
    other.isTrained group = roster.isTrained group := by
  unfold Roster.isTrained
  cases hmember : roster.member? group with
  | some member =>
    obtain ⟨found, hfound, hcoupled⟩ := h.member hmember
    rw [hfound, Option.any_some, Option.any_some, hcoupled.trained]
  | none =>
    cases hother : other.member? group with
    | none => rfl
    | some found =>
      obtain ⟨huntrained, -⟩ := h.idle hmember hother
      rw [Option.any_some, Option.any_none, huntrained]

theorem Coupled.put (h : Coupled π specs roster other) (group : GroupId) {member found : Member ε σ}
    (hcoupled : member.Coupled π found) :
    Coupled π specs (roster.put group member) (other.put group found) where
  member {g m} hm := by
    rw [member?_put] at hm ⊢
    split_ifs at hm ⊢ with hgroup
    · obtain rfl := Option.some.inj hm
      exact ⟨found, rfl, hcoupled⟩
    · exact h.member hm
  idle {g m} hnone hm := by
    rw [member?_put] at hnone hm
    split_ifs at hnone hm with hgroup
    exact h.idle hnone hm

theorem Level.put {group : GroupId} (h : Level roster other group) (g : GroupId)
    (member found : Member ε σ) : Level (roster.put g member) (other.put g found) group := by
  intro hnone
  rw [member?_put] at hnone ⊢
  split_ifs at hnone ⊢
  exact h hnone

/-- Coupled rosters in coupled worlds give a node paired instances. -/
theorem coupled_claim (hrosters : Coupled π specs roster other) (hworlds : World.Coupled π w v)
    (node : Node ε σ) (hlevel : ∀ group, node.group = some group → Level roster other group) :
    ∃ π', π.Within π' ∧
      π'.paired (Action.result (roster.claim node) w).1.1 (Action.result (other.claim node) v).1.1 ∧
      Coupled π' specs (Action.result (roster.claim node) w).1.2
        (Action.result (other.claim node) v).1.2 ∧
      World.Coupled π' (Action.result (roster.claim node) w).2
        (Action.result (other.claim node) v).2 ∧
      ∀ group, Level roster other group →
        Level (Action.result (roster.claim node) w).1.2 (Action.result (other.claim node) v).1.2
          group := by
  cases hgroup : node.group with
  | none =>
    have hfirst : Action.result (roster.claim node) w =
        ((w.instances.size, roster), w.spawned node.spec) := by
      rw [claim, hgroup]
      rfl
    have hsecond : Action.result (other.claim node) v =
        ((v.instances.size, other), v.spawned node.spec) := by
      rw [claim, hgroup]
      rfl
    rw [hfirst, hsecond]
    exact ⟨hworlds.pairing, hworlds.within_pairing, .inr ⟨rfl, rfl⟩,
      hrosters.mono hworlds.within_pairing, hworlds.spawned node.spec, fun _ h ↦ h⟩
  | some group =>
    have hfirst : roster.claim node = roster.request group node.spec := by rw [claim, hgroup]
    have hsecond : other.claim node = other.request group node.spec := by rw [claim, hgroup]
    rw [hfirst, hsecond]
    cases hmember : roster.member? group with
    | some member =>
      obtain ⟨found, hfound, hcoupled⟩ := hrosters.member hmember
      rw [request_of_member hmember, request_of_member hfound]
      exact ⟨π, .refl π, hcoupled.actor, hrosters, hworlds, fun _ h ↦ h⟩
    | none =>
      rw [request_of_none hmember, request_of_none (hlevel group hgroup hmember)]
      refine ⟨hworlds.pairing, hworlds.within_pairing, .inr ⟨rfl, rfl⟩, ?_,
        hworlds.spawned node.spec, fun _ h ↦ h.put group _ _⟩
      exact (hrosters.mono hworlds.within_pairing).put group ⟨.inr ⟨rfl, rfl⟩, rfl, rfl⟩

/-- Coupled rosters in coupled worlds bind nodes to paired instances. -/
theorem coupled_bind (nodes : List (Node ε σ)) (hrosters : Coupled π specs roster other)
    (hworlds : World.Coupled π w v)
    (hlevel : ∀ node ∈ nodes, ∀ group, node.group = some group → Level roster other group) :
    ∃ π', π.Within π' ∧
      List.Forall₂ π'.paired (Action.result (bind nodes roster) w).1.1
        (Action.result (bind nodes other) v).1.1 ∧
      Coupled π' specs (Action.result (bind nodes roster) w).1.2
        (Action.result (bind nodes other) v).1.2 ∧
      World.Coupled π' (Action.result (bind nodes roster) w).2
        (Action.result (bind nodes other) v).2 := by
  induction nodes generalizing π roster other w v with
  | nil => exact ⟨π, .refl π, .nil, hrosters, hworlds⟩
  | cons node rest ih =>
    rw [result_bind_cons, result_bind_cons]
    obtain ⟨π₁, hπ, hpair, hrosters₁, hworlds₁, hlevel₁⟩ :=
      coupled_claim hrosters hworlds node (hlevel node List.mem_cons_self)
    obtain ⟨π₂, hπ₁, hbinding, hrosters₂, hworlds₂⟩ := ih hrosters₁ hworlds₁
      fun n hn group hgroup ↦ hlevel₁ group (hlevel n (List.mem_cons_of_mem _ hn) group hgroup)
    exact ⟨π₂, hπ.trans hπ₁, .cons (hπ₁.paired hpair) hbinding, hrosters₂, hworlds₂⟩

/-! ### Marking and adopting coupled members -/

theorem Coupled.markTrained (h : Coupled π specs roster other) {groups : List GroupId}
    (hlevel : ∀ group ∈ groups, Level roster other group) :
    Coupled π specs (roster.markTrained groups) (other.markTrained groups) where
  member {group m} hm := by
    rw [member?_markTrained] at hm ⊢
    obtain ⟨member, hmember, rfl⟩ := Option.map_eq_some_iff.mp hm
    obtain ⟨found, hfound, hcoupled⟩ := h.member hmember
    rw [hfound]
    refine ⟨_, rfl, ?_⟩
    split_ifs
    · exact ⟨hcoupled.actor, hcoupled.spec, rfl⟩
    · exact hcoupled
  idle {group m} hnone hm := by
    rw [member?_markTrained] at hnone hm
    have hroster : roster.member? group = none := Option.map_eq_none_iff.mp hnone
    obtain ⟨found, hfound, rfl⟩ := Option.map_eq_some_iff.mp hm
    by_cases hgroup : groups.contains group = true
    · have hother := hlevel group (List.contains_iff_mem.mp hgroup) hroster
      rw [hother] at hfound
      cases hfound
    · rw [if_neg hgroup]
      exact h.idle hroster hfound

/-- Two rosters adopt coupled staged rosters, and marked groups are among the staged ones. -/
theorem Coupled.commit (h : Coupled π specs roster other) {staged staged' : Roster ε σ}
    (hstaged : Coupled π [] staged staged') (htidy : staged.Tidy) (htidy' : staged'.Tidy)
    {groups : List GroupId}
    (hgroups : ∀ group ∈ groups, ∃ member, staged.member? group = some member) :
    Coupled π specs (roster.commit staged groups) (other.commit staged' groups) := by
  have hnone : ∀ group, staged.member? group = none → staged'.member? group = none := by
    intro group hmember
    cases hfound : staged'.member? group with
    | none => rfl
    | some found =>
      obtain ⟨-, hlookup, -⟩ := hstaged.idle hmember hfound
      cases hlookup
  refine Coupled.markTrained ⟨fun {group m} hm ↦ ?_, fun {group m} hfree hm ↦ ?_⟩
    fun group hgroup hfree ↦ ?_
  · rw [member?_foldl_put htidy, Option.or_eq_some_iff] at hm
    rw [member?_foldl_put htidy']
    rcases hm with hnew | ⟨hmissing, hold⟩
    · obtain ⟨found, hfound, hcoupled⟩ := hstaged.member hnew
      exact ⟨found, by rw [hfound, Option.some_or], hcoupled⟩
    · obtain ⟨found, hfound, hcoupled⟩ := h.member hold
      exact ⟨found, by rw [hnone group hmissing, hfound, Option.none_or], hcoupled⟩
  · rw [member?_foldl_put htidy, Option.or_eq_none_iff] at hfree
    rw [member?_foldl_put htidy', hnone group hfree.1, Option.none_or] at hm
    exact h.idle hfree.2 hm
  · obtain ⟨member, hmember⟩ := hgroups group hgroup
    rw [member?_foldl_put htidy, hmember, Option.some_or] at hfree
    cases hfree

/-! ### Loading into coupled rosters -/

/-- Coupled rosters in coupled worlds give a group paired instances, also if the second has had an
idle member for it. -/
theorem coupled_request (hrosters : Coupled π specs roster other) (hworlds : World.Coupled π w v)
    (hsound : other.Sound v) {group : GroupId} {spec : Spec ε σ}
    (hspec : specs.lookup group = some spec) :
    ∃ π', π'.paired (Action.result (roster.request group spec) w).1.1
        (Action.result (other.request group spec) v).1.1 ∧
      Coupled π' specs (Action.result (roster.request group spec) w).1.2
        (Action.result (other.request group spec) v).1.2 ∧
      World.Coupled π' (Action.result (roster.request group spec) w).2
        (Action.result (other.request group spec) v).2 := by
  cases hmember : roster.member? group with
  | some member =>
    obtain ⟨found, hfound, hcoupled⟩ := hrosters.member hmember
    rw [request_of_member hmember, request_of_member hfound]
    exact ⟨π, hcoupled.actor, hrosters, hworlds⟩
  | none =>
    rw [request_of_none hmember]
    cases hfound : other.member? group with
    | none =>
      rw [request_of_none hfound]
      refine ⟨hworlds.pairing, .inr ⟨rfl, rfl⟩, ?_, hworlds.spawned spec⟩
      exact (hrosters.mono hworlds.within_pairing).put group ⟨.inr ⟨rfl, rfl⟩, rfl, rfl⟩
    | some found =>
      rw [request_of_member hfound]
      obtain ⟨huntrained, hlookup, -, haside⟩ := hrosters.idle hmember hfound
      obtain rfl : found.spec = spec := Option.some.inj (hlookup.symm.trans hspec)
      refine ⟨π.extend w.instances.size found.actor hworlds.fresh_left
          fun k hk ↦ π.apart hk haside, .inr ⟨rfl, rfl⟩,
          ⟨fun {g m} hm ↦ ?_, fun {g m} hfree hm ↦ ?_⟩,
        ⟨fun {i j} hpair ↦ ?_, fun hkept ↦ hworlds.aside hkept.1, hworlds.environment⟩⟩
      · rw [member?_put] at hm
        split_ifs at hm with hgroup
        · obtain rfl := Option.some.inj hm
          exact ⟨found, hgroup ▸ hfound, .inr ⟨rfl, rfl⟩, rfl, huntrained⟩
        · obtain ⟨m', hm', hcoupled⟩ := hrosters.member hm
          exact ⟨m', hm', .inl hcoupled.actor, hcoupled.spec, hcoupled.trained⟩
      · rw [member?_put] at hfree
        split_ifs at hfree with hgroup
        obtain ⟨htrained, hlookup', hstateful, haside'⟩ := hrosters.idle hfree hm
        refine ⟨htrained, hlookup', hstateful, haside', fun hsame ↦ hgroup ?_⟩
        exact hsound.distinct g group m found hm hfound hsame
      · rcases hpair with hpair | ⟨rfl, rfl⟩
        · rw [World.instances_spawned_of_lt (hworlds.lt_left hpair)]
          exact hworlds.same hpair
        · exact ⟨_, World.instances_spawned_self w found.spec, hworlds.aside haside⟩

theorem size_loadState (id : InstanceId) (bytes : Bytes) (w : World ε σ) :
    (Action.result (Action.loadState id bytes) w).2.instances.size = w.instances.size := by
  cases hactor : w.instances[id]? with
  | none =>
    have hresult : Action.result (Action.loadState id bytes) w = (none, w) := by
      change Action.loadState id bytes w = _
      rw [Action.loadState, hactor]
    rw [hresult]
  | some actor =>
    rw [Action.result_loadState hactor]
    exact Array.size_modify

/-- Coupled rosters in coupled worlds accept and refuse the same states. -/
theorem coupled_loadEach {entries : List (Pending ε σ)} (hentries : Loadable specs entries)
    (hrosters : Coupled π specs roster other) (hworlds : World.Coupled π w v)
    (hsound : roster.Sound w) (hsound' : other.Sound v) :
    ∃ π', (Action.result (loadEach entries other) v).1.1 =
        (Action.result (loadEach entries roster) w).1.1 ∧
      Coupled π' specs (Action.result (loadEach entries roster) w).1.2
        (Action.result (loadEach entries other) v).1.2 ∧
      World.Coupled π' (Action.result (loadEach entries roster) w).2
        (Action.result (loadEach entries other) v).2 := by
  induction entries generalizing π roster other w v with
  | nil => exact ⟨π, rfl, hrosters, hworlds⟩
  | cons entry rest ih =>
    obtain ⟨hspec, hstateful⟩ := hentries entry List.mem_cons_self
    obtain ⟨member, asked, w₁, hrequest, -, hgrown, -⟩ := result_request hsound hspec hstateful
    obtain ⟨member', asked', v₁, hrequest', -, hgrown', -⟩ := result_request hsound' hspec hstateful
    obtain ⟨π₁, hpair, hrosters₁, hworlds₁⟩ := coupled_request hrosters hworlds hsound' hspec
    rw [hrequest, hrequest'] at hpair hrosters₁ hworlds₁
    obtain ⟨hresult, hworlds₂⟩ := Action.coupled_loadState hpair entry.bytes w₁ v₁ hworlds₁
    have hsize := size_loadState member.actor entry.bytes w₁
    have hsize' := size_loadState member'.actor entry.bytes v₁
    rw [result_loadEach_cons hrequest, result_loadEach_cons hrequest']
    dsimp only at hresult hworlds₂
    generalize Action.result (Action.loadState member.actor entry.bytes) w₁ = first at *
    generalize Action.result (Action.loadState member'.actor entry.bytes) v₁ = second at *
    obtain ⟨result, w₂⟩ := first
    obtain ⟨result', v₂⟩ := second
    obtain rfl : result = result' := hresult
    have hrest := ih hentries.tail hrosters₁ hworlds₂ (hgrown.sound.grow (Nat.le_of_eq hsize.symm))
      (hgrown'.sound.grow (Nat.le_of_eq hsize'.symm))
    rcases result with _ | e | u
    · exact hrest
    · exact ⟨π₁, rfl, hrosters₁, hworlds₂⟩
    · exact hrest

/-- Every group of loaded states has a member. -/
theorem exists_member_of_loadEach {entries : List (Pending ε σ)} (hentries : Loadable specs entries)
    (hsound : roster.Sound w) {after : Roster ε σ} {last : World ε σ}
    (h : Action.result (loadEach entries roster) w = ((.ok (), after), last)) :
    ∀ entry ∈ entries, ∃ member, after.member? entry.group = some member := by
  induction entries generalizing roster w with
  | nil => exact fun entry hentry ↦ nomatch hentry
  | cons entry rest ih =>
    obtain ⟨hspec, hstateful⟩ := hentries entry List.mem_cons_self
    obtain ⟨member, asked, w₁, hrequest, hmember, hgrown, -⟩ :=
      result_request hsound hspec hstateful
    have hsize := size_loadState member.actor entry.bytes w₁
    rw [result_loadEach_cons hrequest] at h
    generalize Action.result (Action.loadState member.actor entry.bytes) w₁ = first at *
    obtain ⟨result, w₂⟩ := first
    have hgrow : asked.Sound w₂ := hgrown.sound.grow (Nat.le_of_eq hsize.symm)
    have hrest : Action.result (loadEach rest asked) w₂ = ((.ok (), after), last) := by
      rcases result with _ | e | u
      · exact h
      · cases h
      · exact h
    obtain ⟨after', last', hrest', hafter, -⟩ := result_loadEach hentries.tail hgrow
    rw [hrest] at hrest'
    obtain rfl : after = after' := congrArg (fun r ↦ r.1.2) hrest'
    intro other hother
    rcases List.mem_cons.mp hother with rfl | hmem
    · exact ⟨member, hafter.kept _ _ hmember⟩
    · exact ih hentries.tail hgrow hrest other hmem

/-- Coupled rosters in coupled worlds load a snapshot alike. -/
theorem coupled_load (snapshot : Snapshot) (hrosters : Coupled π specs roster other)
    (hworlds : World.Coupled π w v) (hsound : roster.Sound w) (hsound' : other.Sound v) :
    ∃ π', (Action.result (other.load snapshot specs) v).1.1 =
        (Action.result (roster.load snapshot specs) w).1.1 ∧
      Coupled π' specs (Action.result (roster.load snapshot specs) w).1.2
        (Action.result (other.load snapshot specs) v).1.2 ∧
      World.Coupled π' (Action.result (roster.load snapshot specs) w).2
        (Action.result (other.load snapshot specs) v).2 := by
  unfold load
  cases hread : snapshot.states.mapM (decodeEntry specs) with
  | error e => exact ⟨π, rfl, hrosters, hworlds⟩
  | ok entries =>
    have hentries := loadable_of_mapM_eq_ok hread
    obtain ⟨π', hresult, hrosters', hworlds'⟩ :=
      coupled_loadEach hentries hrosters hworlds hsound hsound'
    dsimp only
    rw [Action.result_bind, Action.result_bind]
    have hmembers : ∀ after last,
        Action.result (loadEach entries roster) w = ((.ok (), after), last) →
        ∀ entry ∈ entries, ∃ member, after.member? entry.group = some member :=
      fun _ _ ↦ exists_member_of_loadEach hentries hsound
    generalize Action.result (loadEach entries roster) w = first at *
    generalize Action.result (loadEach entries other) v = second at *
    obtain ⟨⟨result, after⟩, last⟩ := first
    obtain ⟨⟨result', after'⟩, last'⟩ := second
    obtain rfl : result' = result := hresult
    cases result' with
    | error e => exact ⟨π', rfl, hrosters', hworlds'⟩
    | ok u =>
      refine ⟨π', rfl, hrosters'.markTrained fun group hgroup hnone ↦ ?_, hworlds'⟩
      obtain ⟨entry, hentry, rfl⟩ := List.mem_map.mp hgroup
      obtain ⟨member, hmember⟩ := hmembers after last rfl entry hentry
      rw [hmember] at hnone
      cases hnone

end Roster

end Dataflow
