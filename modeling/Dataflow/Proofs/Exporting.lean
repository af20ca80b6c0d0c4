import Dataflow.Proofs.Binding
import Dataflow.Proofs.Coding
import Dataflow.Proofs.SnapshotText
import Mathlib.Data.List.Sort

/-!
# Exports in any order

An export goes through the members of a roster in an order that is not known. Any order of the
members may be the one that it takes (`Roster.exists_arranged_eq`).

The order is not seen in an export that succeeds. Unless some member cannot be exported, every
export gives the one snapshot that is sorted and has the entries of all members
(`Roster.exists_exportAll`, `Roster.result_exportAll_eq_ok_iff`). It is only when two members cannot
be exported that the order counts: an export reports the error of one of them, and of each in some
order (`Roster.exists_result_exportAll_eq_error_iff`).
-/

set_option autoImplicit false
set_option relaxedAutoImplicit false

namespace Dataflow

variable {ε σ : Type}

/-! ### Entries -/

namespace Snapshot

variable {states others : List (String × String)} {key state : String}

theorem mem_insert_iff (h : key ∉ states.map Prod.fst) {entry : String × String} :
    entry ∈ insert key state states ↔ entry = (key, state) ∨ entry ∈ states :=
  (perm_insert h).mem_iff.trans List.mem_cons

/-- A sorted list is known from its entries. -/
theorem Sorted.ext (h : Sorted states) (h' : Sorted others)
    (hmem : ∀ entry, entry ∈ states ↔ entry ∈ others) : states = others := by
  refine List.Perm.eq_of_pairwise (fun a b _ _ hlt hlt' ↦ ?_) h h' ?_
  · exact absurd hlt' (String.lt_asymm hlt)
  · exact (List.perm_ext_iff_of_nodup h.nodup_keys.of_map h'.nodup_keys.of_map).mpr hmem

end Snapshot

namespace Roster

variable {roster walk : Roster ε σ} {w : World ε σ} {order : Order}

/-! ### Orders -/

theorem perm_arranged (roster : Roster ε σ) (order : Order) :
    (roster.arranged order).Perm roster :=
  List.mergeSort_perm roster _

theorem pairwise_arranged (roster : Roster ε σ) (order : Order) :
    (roster.arranged order).Pairwise fun a b ↦ order a.1 ≤ order b.1 := by
  refine (List.pairwise_mergeSort (fun a b c hab hbc ↦ ?_) (fun a b ↦ ?_) roster).imp ?_
  · simp only [decide_eq_true_eq] at hab hbc ⊢
    exact hab.trans hbc
  · simp only [Bool.or_eq_true, decide_eq_true_eq]
    exact Nat.le_total _ _
  · exact fun h ↦ of_decide_eq_true h

/-- The members of a tidy roster can be met in any order. -/
theorem exists_arranged_eq (htidy : roster.Tidy) (hperm : walk.Perm roster) :
    ∃ order, roster.arranged order = walk := by
  have hnodup : (walk.map Prod.fst).Nodup := (hperm.map Prod.fst).nodup_iff.mpr htidy
  let order : Order := fun group ↦ (walk.map Prod.fst).idxOf group
  have hwalk : walk.Pairwise fun a b ↦ order a.1 ≤ order b.1 := by
    refine List.pairwise_iff_getElem.mpr fun i j hi hj hij ↦ ?_
    have hplace : ∀ k (hk : k < walk.length), order walk[k].1 = k := by
      intro k hk
      have hbound : k < (walk.map Prod.fst).length := by rwa [List.length_map]
      have hfst : walk[k].1 = (walk.map Prod.fst)[k] := (List.getElem_map Prod.fst).symm
      change (walk.map Prod.fst).idxOf walk[k].1 = k
      rw [hfst, hnodup.idxOf_getElem]
    rw [hplace i hi, hplace j hj]
    exact hij.le
  refine ⟨order, List.Perm.eq_of_pairwise (fun a b ha hb hab hba ↦ ?_)
    (roster.pairwise_arranged order) hwalk ((roster.perm_arranged order).trans hperm.symm)⟩
  have hgroup : a.1 = b.1 :=
    (List.idxOf_inj (List.mem_map_of_mem (hperm.mem_iff.mpr
      ((roster.perm_arranged order).mem_iff.mp ha)))).mp (Nat.le_antisymm hab hba)
  exact List.inj_on_of_nodup_map hnodup (hperm.mem_iff.mpr
    ((roster.perm_arranged order).mem_iff.mp ha)) hb hgroup

/-! ### What a member is exported as -/

/-- What exporting a member gives: an entry of the snapshot, nothing, or the error that ends the
export. -/
def shipped (w : World ε σ) (group : GroupId) (member : Member ε σ) :
    Except FlowError (Option (String × String)) :=
  match if member.trained then w.instances[member.actor]? else none with
  | none => .ok none
  | some actor =>
    match actor.behavior.exportState actor.fit with
    | .ok state => .ok (state.map fun bytes ↦ (group.text, Text.Base64.encode bytes))
    | .error e => .error (.state s!"exporting {group.text} ({member.spec.name}): {e.message}")

/-- Some group that counts as trained cannot be exported, and this error says so. -/
def Withholds (roster : Roster ε σ) (w : World ε σ) (e : FlowError) : Prop :=
  ∃ group member, (group, member) ∈ roster ∧ member.trained = true ∧
    ∃ actor fault, w.instances[member.actor]? = some actor ∧
      actor.behavior.exportState actor.fit = .error fault ∧
      e = .state s!"exporting {group.text} ({member.spec.name}): {fault.message}"

theorem withholds_iff {e : FlowError} :
    roster.Withholds w e ↔ ∃ entry ∈ roster, shipped w entry.1 entry.2 = .error e := by
  constructor
  · rintro ⟨group, member, hmem, htrained, actor, fault, hactor, hfault, rfl⟩
    refine ⟨(group, member), hmem, ?_⟩
    dsimp only
    rw [shipped, if_pos htrained, hactor]
    dsimp only
    rw [hfault]
  · rintro ⟨⟨group, member⟩, hmem, hshipped⟩
    dsimp only at hshipped
    unfold shipped at hshipped
    split at hshipped
    · cases hshipped
    case h_2 actor hactor =>
      obtain ⟨htrained, hactor⟩ := Option.ite_none_right_eq_some.mp hactor
      split at hshipped
      · cases hshipped
      case h_2 fault hfault =>
        exact ⟨group, member, hmem, htrained, actor, fault, hactor, hfault,
          (Except.error.inj hshipped).symm⟩

theorem exists_shipped_eq_ok (hnone : ∀ e, ¬ roster.Withholds w e)
    {entry : GroupId × Member ε σ} (hentry : entry ∈ roster) :
    ∃ state, shipped w entry.1 entry.2 = .ok state := by
  cases hshipped : shipped w entry.1 entry.2 with
  | ok state => exact ⟨state, rfl⟩
  | error e => exact absurd (withholds_iff.mpr ⟨entry, hentry, hshipped⟩) (hnone e)

/-- What is exported stands under the text of the group. -/
theorem fst_of_shipped {group : GroupId} {member : Member ε σ} {x : String × String}
    (h : shipped w group member = .ok (some x)) : x.1 = group.text := by
  unfold shipped at h
  split at h
  · cases h
  · split at h
    · obtain ⟨bytes, -, rfl⟩ := Option.map_eq_some_iff.mp (Except.ok.inj h)
      rfl
    · cases h

/-! ### Exporting -/

theorem result_exportInto_cons (group : GroupId) (member : Member ε σ) (rest : Roster ε σ)
    (snapshot : Snapshot) (w : World ε σ) :
    Action.result (exportInto snapshot ((group, member) :: rest)) w =
      match shipped w group member with
      | .ok none => Action.result (exportInto snapshot rest) w
      | .ok (some entry) => Action.result (exportInto (snapshot.put entry.1 entry.2) rest) w
      | .error e => (.error e, w) := by
  have hlook : Action.result (Action.exportState member.actor) w =
      (w.instances[member.actor]?.map fun actor ↦ actor.behavior.exportState actor.fit, w) :=
    rfl
  rw [exportInto, shipped]
  by_cases htrained : member.trained = true
  · rw [if_pos htrained, if_pos htrained, Action.result_bind, hlook]
    cases w.instances[member.actor]? with
    | none => rfl
    | some actor =>
      dsimp only [Option.map_some]
      cases actor.behavior.exportState actor.fit with
      | error e => rfl
      | ok state => cases state <;> rfl
  · rw [if_neg htrained, if_neg htrained]

/-- Exporting only looks at instances. -/
theorem quiet_exportInto (walk : Roster ε σ) (snapshot : Snapshot) (w : World ε σ) :
    (Action.result (exportInto snapshot walk) w).2 = w := by
  induction walk generalizing snapshot with
  | nil => rfl
  | cons entry rest ih =>
    rw [result_exportInto_cons]
    split
    · exact ih _
    · exact ih _
    · rfl

/-- If every member can be exported, the entries of all of them are added. -/
theorem exists_exportInto (hnodup : walk.Tidy) (hnone : ∀ e, ¬ walk.Withholds w e)
    {snapshot : Snapshot} (hsorted : Snapshot.Sorted snapshot.states)
    (hnew : ∀ entry ∈ walk, entry.1.text ∉ snapshot.states.map Prod.fst) :
    ∃ next : Snapshot, Action.result (exportInto snapshot walk) w = (.ok next, w) ∧
      Snapshot.Sorted next.states ∧
      ∀ x, x ∈ next.states ↔
        x ∈ snapshot.states ∨ ∃ entry ∈ walk, shipped w entry.1 entry.2 = .ok (some x) := by
  induction walk generalizing snapshot with
  | nil => exact ⟨snapshot, rfl, hsorted, fun x ↦ by simp⟩
  | cons entry rest ih =>
    obtain ⟨group, member⟩ := entry
    obtain ⟨hgroup, hrest⟩ := List.nodup_cons.mp hnodup
    have hnone' : ∀ e, ¬ Withholds rest w e := fun e h ↦ by
      obtain ⟨other, hother, hshipped⟩ := withholds_iff.mp h
      exact hnone e (withholds_iff.mpr ⟨other, List.mem_cons_of_mem _ hother, hshipped⟩)
    obtain ⟨state, hshipped⟩ := exists_shipped_eq_ok hnone List.mem_cons_self
    dsimp only at hshipped
    rw [result_exportInto_cons, hshipped]
    cases state with
    | none =>
      obtain ⟨next, hnext, hsorted', hmem⟩ := ih hrest hnone' hsorted fun other hother ↦
        hnew other (List.mem_cons_of_mem _ hother)
      refine ⟨next, hnext, hsorted', fun x ↦ ?_⟩
      rw [hmem, List.exists_mem_cons_iff, hshipped]
      simp
    | some own =>
      have hown : own.1 = group.text := fst_of_shipped hshipped
      have hfresh : own.1 ∉ snapshot.states.map Prod.fst := by
        rw [hown]
        exact hnew (group, member) List.mem_cons_self
      have hput : Snapshot.Sorted (snapshot.put own.1 own.2).states := hsorted.insert
      have hnew' : ∀ other ∈ rest,
          other.1.text ∉ (snapshot.put own.1 own.2).states.map Prod.fst := by
        intro other hother hkey
        obtain ⟨x, hx, htext⟩ := List.mem_map.mp hkey
        obtain rfl | hold := (Snapshot.mem_insert_iff hfresh).mp hx
        · exact hgroup (List.mem_map.mpr
            ⟨other, hother, GroupId.text_injective (htext.symm.trans hown)⟩)
        · exact hnew other (List.mem_cons_of_mem _ hother) (List.mem_map.mpr ⟨x, hold, htext⟩)
      obtain ⟨next, hnext, hsorted', hmem⟩ := ih hrest hnone' hput hnew'
      refine ⟨next, hnext, hsorted', fun x ↦ ?_⟩
      rw [hmem, List.exists_mem_cons_iff, hshipped]
      change x ∈ Snapshot.insert own.1 own.2 snapshot.states ∨ _ ↔ _
      rw [Snapshot.mem_insert_iff hfresh]
      simp only [Except.ok.injEq, Option.some.injEq]
      tauto

theorem withholds_of_exportInto {snapshot : Snapshot} {e : FlowError}
    (h : (Action.result (exportInto snapshot walk) w).1 = .error e) : walk.Withholds w e := by
  rw [withholds_iff]
  induction walk generalizing snapshot with
  | nil => cases h
  | cons entry rest ih =>
    rw [result_exportInto_cons] at h
    rw [List.exists_mem_cons_iff]
    split at h
    · exact .inr (ih h)
    · exact .inr (ih h)
    case h_3 fault hfault => exact .inl (hfault.trans (congrArg Except.error (Except.error.inj h)))

theorem not_withholds_of_exportInto {snapshot next : Snapshot}
    (h : (Action.result (exportInto snapshot walk) w).1 = .ok next) (e : FlowError) :
    ¬ walk.Withholds w e := by
  rw [withholds_iff]
  induction walk generalizing snapshot with
  | nil => simp
  | cons entry rest ih =>
    rw [result_exportInto_cons] at h
    rw [List.exists_mem_cons_iff]
    rintro (hfirst | hlater)
    · rw [hfirst] at h
      cases h
    · split at h
      · exact ih h hlater
      · exact ih h hlater
      · cases h

theorem Withholds.of_perm {e : FlowError} (h : walk.Withholds w e) (hperm : walk.Perm roster) :
    roster.Withholds w e := by
  obtain ⟨entry, hentry, hshipped⟩ := withholds_iff.mp h
  exact withholds_iff.mpr ⟨entry, hperm.mem_iff.mp hentry, hshipped⟩

/-- A tidy roster without a member that cannot be exported is exported as one snapshot, in whatever
order. It is sorted and has the entries of all members. -/
theorem exists_exportAll (htidy : roster.Tidy) (hnone : ∀ e, ¬ roster.Withholds w e) :
    ∃ snapshot : Snapshot, (∀ order, Action.result (roster.exportAll order) w = (.ok snapshot, w)) ∧
      Snapshot.Sorted snapshot.states ∧
      ∀ x, x ∈ snapshot.states ↔ ∃ entry ∈ roster, shipped w entry.1 entry.2 = .ok (some x) := by
  have hordered : ∀ order, ∃ next : Snapshot,
      Action.result (roster.exportAll order) w = (.ok next, w) ∧ Snapshot.Sorted next.states ∧
      ∀ x, x ∈ next.states ↔ ∃ entry ∈ roster, shipped w entry.1 entry.2 = .ok (some x) := by
    intro order
    have hperm := roster.perm_arranged order
    have hempty : Snapshot.Sorted Snapshot.empty.states := List.Pairwise.nil
    obtain ⟨next, hnext, hsorted, hmem⟩ := exists_exportInto
      ((hperm.map Prod.fst).nodup_iff.mpr htidy) (fun e h ↦ hnone e (h.of_perm hperm)) hempty
      fun _ _ hkey ↦ nomatch hkey
    refine ⟨next, hnext, hsorted, fun x ↦ (hmem x).trans ?_⟩
    simp only [hperm.mem_iff]
    exact or_iff_right fun hx ↦ nomatch hx
  obtain ⟨snapshot, -, hsorted, hmem⟩ := hordered fun _ ↦ 0
  refine ⟨snapshot, fun order ↦ ?_, hsorted, hmem⟩
  obtain ⟨⟨states⟩, hnext, hsorted', hmem'⟩ := hordered order
  obtain rfl : states = snapshot.states :=
    hsorted'.ext hsorted fun x ↦ (hmem' x).trans (hmem x).symm
  exact hnext

/-- Whether an export succeeds, and with which snapshot, does not depend on the order. -/
theorem result_exportAll_eq_ok_iff (htidy : roster.Tidy) {snapshot : Snapshot} :
    (Action.result (roster.exportAll order) w).1 = .ok snapshot ↔
      (∀ e, ¬ roster.Withholds w e) ∧ Snapshot.Sorted snapshot.states ∧
      ∀ x, x ∈ snapshot.states ↔ ∃ entry ∈ roster, shipped w entry.1 entry.2 = .ok (some x) := by
  constructor
  · intro h
    have hnone : ∀ e, ¬ roster.Withholds w e := fun e hwithheld ↦
      not_withholds_of_exportInto h e (hwithheld.of_perm (roster.perm_arranged order).symm)
    obtain ⟨next, hnext, hsorted, hmem⟩ := exists_exportAll htidy hnone
    rw [hnext order] at h
    obtain rfl := Except.ok.inj h
    exact ⟨hnone, hsorted, hmem⟩
  · rintro ⟨hnone, hsorted, hmem⟩
    obtain ⟨⟨states⟩, hnext, hsorted', hmem'⟩ := exists_exportAll htidy hnone
    rw [hnext order]
    obtain rfl : states = snapshot.states :=
      hsorted'.ext hsorted fun x ↦ (hmem' x).trans (hmem x).symm
    rfl

/-- The errors that an export may report are those of the groups that cannot be exported. -/
theorem exists_result_exportAll_eq_error_iff (htidy : roster.Tidy) {e : FlowError} :
    (∃ order, (Action.result (roster.exportAll order) w).1 = .error e) ↔ roster.Withholds w e := by
  constructor
  · rintro ⟨order, h⟩
    exact (withholds_of_exportInto h).of_perm (roster.perm_arranged order)
  · intro hwithheld
    obtain ⟨entry, hentry, hshipped⟩ := withholds_iff.mp hwithheld
    obtain ⟨front, back, rfl⟩ := List.append_of_mem hentry
    -- The order in which this member is the first one ends the export here.
    obtain ⟨order, horder⟩ := exists_arranged_eq htidy List.perm_middle.symm
    refine ⟨order, ?_⟩
    rw [exportAll, horder, result_exportInto_cons, hshipped]

end Roster

end Dataflow
