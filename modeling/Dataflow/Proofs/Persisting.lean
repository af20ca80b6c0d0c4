import Dataflow.Proofs.Coding
import Dataflow.Proofs.Marks
import Dataflow.Proofs.SnapshotText

/-!
# Rosters that are exported and loaded

A roster whose trained members can all be exported gives a snapshot with one entry for each of them,
sorted by the texts of their groups (`Roster.Exports.exists_exportAll`). A roster without members that loads
such a snapshot accepts it, and then every group holds a new instance, which has loaded what was
exported for the group, if anything was (`Roster.result_load_entries`).
-/

set_option autoImplicit false
set_option relaxedAutoImplicit false

namespace Dataflow

variable {ε σ α β : Type}

/-- Whatever stands in some order what a function gives comes from an order of its arguments. -/
theorem exists_perm_map {f : α → β} {l : List β} {m : List α} (h : (m.map f).Perm l) :
    ∃ m' : List α, m'.Perm m ∧ m'.map f = l := by
  generalize hx : m.map f = x at h
  induction h generalizing m with
  | nil => exact ⟨m, .refl m, hx⟩
  | cons b h ih =>
    obtain ⟨a, rest, rfl, rfl, hrest⟩ := List.map_eq_cons_iff.mp hx
    obtain ⟨m', hperm, hmap⟩ := ih hrest
    exact ⟨a :: m', hperm.cons a, by rw [List.map_cons, hmap]⟩
  | swap b b' l =>
    obtain ⟨a, rest, rfl, rfl, hrest⟩ := List.map_eq_cons_iff.mp hx
    obtain ⟨a', rest, rfl, rfl, rfl⟩ := List.map_eq_cons_iff.mp hrest
    exact ⟨a' :: a :: rest, .swap a a' rest, rfl⟩
  | trans _ _ ih ih' =>
    obtain ⟨m', hperm, hmap⟩ := ih hx
    obtain ⟨m'', hperm', hmap'⟩ := ih' hmap
    exact ⟨m'', hperm'.trans hperm, hmap'⟩

/-! ### Entries -/

namespace Snapshot

/-- What a snapshot has for a group whose state is given by these bytes. -/
def entry (bytes : GroupId → Bytes) (group : GroupId) : String × String :=
  (group.text, Text.Base64.encode (bytes group))

theorem entry_injective (bytes : GroupId → Bytes) : Function.Injective (entry bytes) :=
  fun _ _ h ↦ GroupId.text_injective (congrArg Prod.fst h)

end Snapshot

namespace Roster

variable {roster : Roster ε σ} {w : World ε σ} {specs : List (GroupId × Spec ε σ)}
  {bytes : GroupId → Bytes}

/-! ### Exporting -/

/-- The groups of the members that count as trained. -/
def trainedGroups (roster : Roster ε σ) : List GroupId :=
  (roster.filter (·.2.trained)).map Prod.fst

theorem nodup_trainedGroups (htidy : roster.Tidy) : roster.trainedGroups.Nodup :=
  htidy.sublist (List.filter_sublist.map Prod.fst)

theorem mem_trainedGroups (htidy : roster.Tidy) {group : GroupId} :
    group ∈ roster.trainedGroups ↔ roster.isTrained group = true := by
  rw [trainedGroups, List.mem_map, isTrained_iff]
  constructor
  · rintro ⟨⟨group, member⟩, hmem, rfl⟩
    obtain ⟨hentry, htrained⟩ := List.mem_filter.mp hmem
    exact ⟨member, htidy.member?_of_mem hentry, htrained⟩
  · rintro ⟨member, hmember, htrained⟩
    obtain ⟨front, back, rfl, -⟩ := List.lookup_eq_some_iff.mp hmember
    exact ⟨(group, member), List.mem_filter.mpr ⟨by simp, htrained⟩, rfl⟩

/-- Every member that counts as trained is exported as these bytes. -/
def Exports (roster : Roster ε σ) (w : World ε σ) (bytes : GroupId → Bytes) : Prop :=
  ∀ entry ∈ roster, entry.2.trained = true → ∃ actor, w.instances[entry.2.actor]? = some actor ∧
    actor.behavior.exportState actor.fit = .ok (some (bytes entry.1))

theorem Exports.shipped (h : roster.Exports w bytes) {entry : GroupId × Member ε σ}
    (hentry : entry ∈ roster) :
    Roster.shipped w entry.1 entry.2 =
      .ok (if entry.2.trained then some (Snapshot.entry bytes entry.1) else none) := by
  unfold Roster.shipped
  by_cases htrained : entry.2.trained = true
  · obtain ⟨actor, hactor, hbytes⟩ := h entry hentry htrained
    rw [if_pos htrained, if_pos htrained, hactor]
    dsimp only
    rw [hbytes]
    rfl
  · rw [if_neg htrained, if_neg htrained]

/-- A tidy roster is exported, in any order, as one sorted snapshot with one state for each group
that counts as trained. -/
theorem Exports.exists_exportAll (h : roster.Exports w bytes) (htidy : roster.Tidy) :
    ∃ snapshot : Snapshot, (∀ order, Action.result (roster.exportAll order) w = (.ok snapshot, w)) ∧
      Snapshot.Sorted snapshot.states ∧
      (roster.trainedGroups.map (Snapshot.entry bytes)).Perm snapshot.states := by
  have hnone : ∀ e, ¬ roster.Withholds w e := by
    intro e hwithheld
    obtain ⟨entry, hentry, hshipped⟩ := withholds_iff.mp hwithheld
    rw [h.shipped hentry] at hshipped
    cases hshipped
  obtain ⟨snapshot, hexport, hsorted, hmem⟩ := Roster.exists_exportAll htidy hnone
  refine ⟨snapshot, hexport, hsorted, ?_⟩
  refine (List.perm_ext_iff_of_nodup ((nodup_trainedGroups htidy).map
    (Snapshot.entry_injective bytes)) hsorted.nodup_keys.of_map).mpr fun x ↦ ?_
  rw [hmem, trainedGroups, List.map_map, List.mem_map]
  constructor
  · rintro ⟨entry, hentry, rfl⟩
    obtain ⟨hlisted, htrained⟩ := List.mem_filter.mp hentry
    exact ⟨entry, hlisted, by rw [h.shipped hlisted, if_pos htrained]; rfl⟩
  · rintro ⟨entry, hentry, hshipped⟩
    rw [h.shipped hentry] at hshipped
    obtain ⟨htrained, hx⟩ := Option.ite_none_right_eq_some.mp (Except.ok.inj hshipped)
    exact ⟨entry, List.mem_filter.mpr ⟨hentry, htrained⟩, Option.some.inj hx⟩

/-! ### Loading -/

/-- The states that are read from the entries of these groups. -/
def pending (bytes : GroupId → Bytes) (listed : List (GroupId × Spec ε σ)) :
    List (Pending ε σ) :=
  listed.map fun (group, spec) ↦ ⟨group, spec, bytes group⟩

/-- A group can be read from its text, and its actor is stateful. -/
def Restorable (specs : List (GroupId × Spec ε σ)) (listed : List (GroupId × Spec ε σ)) : Prop :=
  ∀ entry ∈ listed, specs.lookup entry.1 = some entry.2 ∧ entry.2.stateful = true ∧
    entry.1.scope < UInt32.size ∧ entry.1.ordinal < UInt32.size

theorem decodeEntry_entry {group : GroupId} {spec : Spec ε σ}
    (hspec : specs.lookup group = some spec) (hstateful : spec.stateful = true)
    (hscope : group.scope < UInt32.size) (hordinal : group.ordinal < UInt32.size) :
    decodeEntry specs (Snapshot.entry bytes group) = .ok ⟨group, spec, bytes group⟩ := by
  have hbytes := Text.Base64.decode_encode (bytes group)
  have hgroup := GroupId.parse_text hscope hordinal
  unfold decodeEntry Snapshot.entry
  dsimp only
  rw [hgroup, hbytes]
  simp only [pure_bind, hspec, if_pos hstateful]
  rfl

theorem mapM_decodeEntry {listed : List (GroupId × Spec ε σ)} (h : Restorable specs listed) :
    (listed.map fun entry ↦ Snapshot.entry bytes entry.1).mapM (decodeEntry specs) =
      .ok (pending bytes listed) := by
  induction listed with
  | nil => rfl
  | cons entry rest ih =>
    obtain ⟨hspec, hstateful, hscope, hordinal⟩ := h entry List.mem_cons_self
    rw [List.map_cons, List.mapM_cons, decodeEntry_entry hspec hstateful hscope hordinal,
      ih fun other hother ↦ h other (List.mem_cons_of_mem _ hother)]
    rfl

/-- When no group has two states and every state would be accepted, all of them are. -/
theorem outcome_of_accepted {entries : List (Pending ε σ)} {held : Holding ε σ}
    (hnodup : (entries.map (·.group)).Nodup) (h : ∀ entry ∈ entries, held.refusal? entry = none) :
    outcome entries held = .ok () ∧ reached entries held = entries := by
  induction entries generalizing held with
  | nil => exact ⟨rfl, rfl⟩
  | cons entry rest ih =>
    obtain ⟨hgroup, hrest⟩ := List.nodup_cons.mp hnodup
    have hlater : ∀ other ∈ rest, (held.load entry).refusal? other = none := by
      intro other hother
      have hne : other.group ≠ entry.group := fun hsame ↦
        hgroup (List.mem_map.mpr ⟨other, hother, hsame⟩)
      rw [Holding.refusal?, Holding.load, if_neg hne]
      exact h other (List.mem_cons_of_mem _ hother)
    obtain ⟨houtcome, hreached⟩ := ih hrest hlater
    rw [outcome, reached, h entry List.mem_cons_self]
    exact ⟨houtcome, congrArg (entry :: ·) hreached⟩

theorem map_group_pending (listed : List (GroupId × Spec ε σ)) :
    (pending bytes listed).map (·.group) = listed.map Prod.fst := by
  rw [pending, List.map_map]
  rfl

theorem bytesFor_pending {listed : List (GroupId × Spec ε σ)}
    (hnodup : (listed.map Prod.fst).Nodup) (group : GroupId) :
    bytesFor (pending bytes listed) group =
      if group ∈ listed.map Prod.fst then [bytes group] else [] := by
  induction listed with
  | nil => rfl
  | cons entry rest ih =>
    obtain ⟨hfirst, hrest⟩ := List.nodup_cons.mp hnodup
    have hstep : bytesFor (pending bytes (entry :: rest)) group =
        if entry.1 = group then bytes entry.1 :: bytesFor (pending bytes rest) group
        else bytesFor (pending bytes rest) group := by
      rw [pending, List.map_cons, bytesFor, List.filter_cons]
      by_cases hsame : entry.1 = group
      · rw [if_pos (decide_eq_true hsame), if_pos hsame]
        rfl
      · rw [if_neg (by simpa using hsame), if_neg hsame]
        rfl
    rw [hstep, ih hrest]
    by_cases hsame : entry.1 = group
    · subst hsame
      rw [if_pos rfl, if_neg hfirst, List.map_cons, if_pos List.mem_cons_self]
    · rw [if_neg hsame]
      simp only [List.map_cons, List.mem_cons, Ne.symm hsame, false_or]

/-- What a group without an instance holds once it has loaded its state: a new instance, which has
accepted the bytes if there were any for the group. -/
def reloaded (bytes : GroupId → Bytes) (listed : List (GroupId × Spec ε σ)) (group : GroupId)
    (spec : Spec ε σ) : Instance ε σ :=
  if group ∈ listed.map Prod.fst then (spec.instantiate.loaded (bytes group)).2
  else spec.instantiate

/-- A roster without members accepts the entries of groups if new instances accept their bytes, and
then it holds what they come to. -/
theorem result_load_entries {listed : List (GroupId × Spec ε σ)} (h : Restorable specs listed)
    (hnodup : (listed.map Prod.fst).Nodup)
    (haccepts : ∀ entry ∈ listed, (entry.2.instantiate.loaded (bytes entry.1)).1 = .ok ())
    (w : World ε σ) :
    ∃ after last, Action.result (load .empty
        ⟨listed.map fun entry ↦ Snapshot.entry bytes entry.1⟩ specs) w =
          ((.ok listed.length, after.markTrained (listed.map Prod.fst)), last) ∧
      Grown specs .empty w after last ∧
      ∀ group, after.held last specs group =
        (specs.lookup group).map (reloaded bytes listed group) := by
  let snapshot : Snapshot := ⟨listed.map fun entry ↦ Snapshot.entry bytes entry.1⟩
  have hread : snapshot.states.mapM (decodeEntry specs) = .ok (pending bytes listed) :=
    mapM_decodeEntry h
  have hheld : ∀ group, held .empty w specs group = (specs.lookup group).map Spec.instantiate :=
    fun group ↦ held_of_none rfl
  have hrefusal : ∀ entry ∈ pending bytes listed, (held .empty w specs).refusal? entry = none := by
    intro entry hentry
    obtain ⟨listing, hlisting, rfl⟩ := List.mem_map.mp hentry
    have hholds : held .empty w specs listing.1 = some listing.2.instantiate := by
      rw [hheld, (h listing hlisting).1, Option.map_some]
    simp only [Holding.refusal?, hholds, haccepts listing hlisting]
  obtain ⟨houtcome, hreached⟩ := outcome_of_accepted
    (by rw [map_group_pending]; exact hnodup) hrefusal
  rcases result_load (sound_empty w) snapshot with ⟨e, hfails, -⟩ |
    ⟨entries, after, last, hreads, hgrown, hrestored, hend⟩
  · rw [hread] at hfails
    cases hfails
  · obtain rfl : pending bytes listed = entries := Except.ok.inj (hread.symm.trans hreads)
    obtain ⟨e, herror, -⟩ | ⟨-, hload⟩ := hend
    · rw [houtcome] at herror
      cases herror
    · refine ⟨after, last, ?_, hgrown, fun group ↦ ?_⟩
      · rw [map_group_pending, pending, List.length_map] at hload
        exact hload
      · rw [hrestored, restored, hread]
        dsimp only
        rw [hreached, Holding.foldl_load, hheld, bytesFor_pending hnodup, Option.map_map]
        refine congrArg (Option.map · _) (funext fun spec ↦ ?_)
        simp only [Function.comp, reloaded]
        split_ifs <;> rfl

theorem held_markTrained (roster : Roster ε σ) (groups : List GroupId) :
    (roster.markTrained groups).held w specs = roster.held w specs := by
  funext group
  unfold held
  rw [member?_markTrained]
  cases roster.member? group with
  | none => rfl
  | some member => dsimp only [Option.map_some]; split_ifs <;> rfl

/-- The groups whose entries have been loaded count as trained, and no others. -/
theorem isTrained_load_entries {flow : Workflow ε σ} {listed : List (GroupId × Spec ε σ)}
    (h : Restorable (flow.groupsIn 0) listed) {count : Nat} {after : Roster ε σ} {last : World ε σ}
    (hload : Action.result (load .empty
      ⟨listed.map fun entry ↦ Snapshot.entry bytes entry.1⟩ (flow.groupsIn 0)) w =
        ((.ok count, after), last)) (group : GroupId) :
    after.isTrained group = true ↔ group ∈ listed.map Prod.fst := by
  have hmarked := (Marked.empty w).load (.empty flow w) (sound_empty w)
    ⟨listed.map fun entry ↦ Snapshot.entry bytes entry.1⟩
  rw [hload] at hmarked
  have hparse : ∀ entry ∈ listed, GroupId.parse (Snapshot.entry bytes entry.1).1 = .ok entry.1 :=
    fun entry hentry ↦ GroupId.parse_text (h entry hentry).2.2.1 (h entry hentry).2.2.2
  rw [← hmarked.covered group, List.mem_map]
  constructor
  · rintro (hnone | ⟨-, state, hstate, hgroup⟩)
    · exact hnone.elim
    · obtain ⟨entry, hentry, rfl⟩ := List.mem_map.mp hstate
      exact ⟨entry, hentry, Except.ok.inj ((hparse entry hentry).symm.trans hgroup)⟩
  · rintro ⟨entry, hentry, rfl⟩
    exact .inr ⟨⟨count, rfl⟩, _, List.mem_map_of_mem hentry, hparse entry hentry⟩

end Roster

end Dataflow
