import Dataflow.Proofs.RowSplits
import Mathlib.Data.FinEnum

/-!
# The keys of the shuffle

Each round of the scrambling of a word can be undone: adding a constant, multiplying by a number
that has an inverse (`mul_injective_of_inverse`), and combining a word with itself shifted to the
right, since a word that is its own shift is zero (`xorShift_injective`). So the scrambling is a
permutation of the words (`mix_bijective`), and two rows have one key exactly if they are the same
word (`shuffleKey_eq_iff`).

Rows that are words have different keys then, and only one list of them is in the order of the keys
(`SortedBy.unique`). Whatever sorts the rows of a table gives this list, and so the same folds
(`CrossValidation.shuffle_without_ties`).
-/

set_option autoImplicit false
set_option relaxedAutoImplicit false

namespace Dataflow

/-! ### Scrambling a word -/

/-- A word combined with itself shifted to the right. -/
def xorShift (shift z : UInt64) : UInt64 :=
  z ^^^ z >>> shift

/-- A word that a shift to the right leaves alone is zero. -/
theorem eq_zero_of_shiftRight_eq {shift d : UInt64} (hshift : shift.toNat % 64 ≠ 0)
    (h : d >>> shift = d) : d = 0 := by
  have hquotient : d.toNat / 2 ^ (shift.toNat % 64) = d.toNat := by
    rw [← Nat.shiftRight_eq_div_pow, ← UInt64.toNat_shiftRight, h]
  have hpow : 1 < 2 ^ (shift.toNat % 64) := Nat.one_lt_two_pow hshift
  refine UInt64.toNat_inj.mp (Nat.eq_zero_of_not_pos fun hpos ↦ ?_)
  exact absurd hquotient (Nat.div_lt_self hpos hpow).ne

theorem xorShift_injective {shift : UInt64} (hshift : shift.toNat % 64 ≠ 0) :
    Function.Injective (xorShift shift) := by
  intro x y h
  -- the words differ where their shifts differ, so their difference is its own shift
  have hdifference : (x ^^^ y) >>> shift = x ^^^ y :=
    calc (x ^^^ y) >>> shift
        = x ^^^ xorShift shift x ^^^ y >>> shift := by
          rw [xorShift, UInt64.shiftRight_xor, ← UInt64.xor_assoc, UInt64.xor_self,
            UInt64.zero_xor]
      _ = x ^^^ xorShift shift y ^^^ y >>> shift := by rw [h]
      _ = x ^^^ y := by
          rw [xorShift, UInt64.xor_assoc, UInt64.xor_assoc, UInt64.xor_self, UInt64.xor_zero]
  exact UInt64.xor_eq_zero_iff.mp (eq_zero_of_shiftRight_eq hshift hdifference)

theorem mul_injective_of_inverse {factor inverse : UInt64} (h : factor * inverse = 1) :
    Function.Injective fun z : UInt64 ↦ z * factor := by
  intro x y hxy
  have hundone := congrArg (· * inverse) hxy
  simpa only [UInt64.mul_assoc, h, UInt64.mul_one] using hundone

/-- The scrambling, round by round. -/
theorem mix_eq_comp : mix = xorShift 31 ∘ (fun z ↦ z * 0x94D049BB133111EB) ∘
    xorShift 27 ∘ (fun z ↦ z * 0xBF58476D1CE4E5B9) ∘ xorShift 30 ∘
    (fun z ↦ z + 0x9E3779B97F4A7C15) := rfl

/-- Scrambling is a permutation of the words. -/
theorem mix_bijective : Function.Bijective mix := by
  have hshifted : Function.Injective fun z : UInt64 ↦ z + 0x9E3779B97F4A7C15 :=
    fun _ _ h ↦ (UInt64.add_left_inj _).mp h
  have hfirst : Function.Injective fun z : UInt64 ↦ z * 0xBF58476D1CE4E5B9 :=
    mul_injective_of_inverse
      (show (0xBF58476D1CE4E5B9 : UInt64) * 0x96DE1B173F119089 = 1 from rfl)
  have hsecond : Function.Injective fun z : UInt64 ↦ z * 0x94D049BB133111EB :=
    mul_injective_of_inverse
      (show (0x94D049BB133111EB : UInt64) * 0x319642B2D24D8EC3 = 1 from rfl)
  refine Finite.injective_iff_bijective.mp ?_
  rw [mix_eq_comp]
  exact (xorShift_injective (by decide)).comp <| hsecond.comp <|
    (xorShift_injective (by decide)).comp <| hfirst.comp <|
    (xorShift_injective (by decide)).comp hshifted

/-! ### Keys -/

/-- Two rows have one key exactly if they are the same word. -/
theorem shuffleKey_eq_iff (seed : UInt64) {row other : Nat} :
    shuffleKey seed row = shuffleKey seed other ↔ row ≡ other [MOD 2 ^ 64] := by
  calc shuffleKey seed row = shuffleKey seed other
      ↔ UInt64.ofNat row = UInt64.ofNat other := by
        rw [shuffleKey, shuffleKey, mix_bijective.injective.eq_iff, UInt64.xor_right_inj,
          mix_bijective.injective.eq_iff]
    _ ↔ row ≡ other [MOD 2 ^ 64] := by
        rw [UInt64.ofNat_eq_iff_mod_eq_toNat, UInt64.toNat_ofNat']
        rfl

/-- Rows that are words have different keys. -/
theorem shuffleKey_injOn (seed : UInt64) : Set.InjOn (shuffleKey seed) {row | row < 2 ^ 64} :=
  fun _ hrow _ hother h ↦ ((shuffleKey_eq_iff seed).mp h).eq_of_lt_of_lt hrow hother

/-! ### Sorting by the keys -/

/-- What sorting by a key makes of a list: it has the same entries, and their keys go up. -/
structure SortedBy (key : Nat → UInt64) (l sorted : List Nat) : Prop where
  perm : sorted.Perm l
  ascending : sorted.Pairwise fun a b ↦ key a ≤ key b

/-- A list without ties is sorted in one way only. -/
theorem SortedBy.unique {key : Nat → UInt64} {l sorted other : List Nat}
    (hkey : Set.InjOn key {a | a ∈ l}) (h : SortedBy key l sorted) (h' : SortedBy key l other) :
    sorted = other := by
  refine List.Perm.eq_of_pairwise ?_ h.ascending h'.ascending (h.perm.trans h'.perm.symm)
  intro a b ha hb hab hba
  exact hkey (h.perm.subset ha) (h'.perm.subset hb) (UInt64.le_antisymm hab hba)

/-- A shuffle is the rows sorted by their keys. -/
theorem sortedBy_shuffled (seed : UInt64) (rows : Nat) :
    SortedBy (shuffleKey seed) (List.range rows) (shuffled seed rows) where
  perm := shuffled_perm seed rows
  ascending := by
    have hkeyed : ∀ p ∈ (((List.range rows).map fun row ↦ (shuffleKey seed row, row)).mergeSort
        fun a b ↦ a.1 ≤ b.1), p.1 = shuffleKey seed p.2 := by
      intro p hp
      obtain ⟨row, -, rfl⟩ := List.mem_map.mp (List.mem_mergeSort.mp hp)
      rfl
    have hsorted := @List.pairwise_mergeSort _ (fun a b : UInt64 × Nat ↦ a.1 ≤ b.1)
      (fun _ _ _ hab hbc ↦ decide_eq_true (UInt64.le_trans (of_decide_eq_true hab)
        (of_decide_eq_true hbc)))
      (fun a b ↦ by simpa using UInt64.le_total a.1 b.1)
      ((List.range rows).map fun row ↦ (shuffleKey seed row, row))
    refine List.pairwise_map.mpr (hsorted.imp_of_mem fun ha hb hab ↦ ?_)
    rw [← hkeyed _ ha, ← hkeyed _ hb]
    exact of_decide_eq_true hab

namespace CrossValidation

/-- The rows a fold trains on and those it tests on, if the rows are dealt out in a given order. -/
def deal (plan : CrossValidation) (fold : Nat) (order : List Nat) : List Nat × List Nat :=
  let (test, train) := order.zipIdx.partition fun (_, position) ↦ plan.tests fold position
  let sorted (part : List (Nat × Nat)) : List Nat :=
    (part.map (·.1)).mergeSort fun a b ↦ a ≤ b
  (sorted train, sorted test)

theorem split_eq_deal (plan : CrossValidation) (fold rows : Nat) :
    plan.split fold rows = plan.deal fold (shuffled plan.seed rows) := rfl

/-- Scrambling is a permutation of the words, so that no two rows that are words have one key, under
any seed. The shuffle that a split deals out is the rows sorted by their keys, and so is no other
list: whatever sorts the rows, in whatever order it leaves entries with one key, gives this shuffle
and the same split. -/
theorem shuffle_without_ties :
    Function.Bijective mix ∧
      (∀ (seed : UInt64) (row other : Nat), row < 2 ^ 64 → other < 2 ^ 64 → row ≠ other →
        shuffleKey seed row ≠ shuffleKey seed other) ∧
      ∀ (plan : CrossValidation) (rows : Nat), rows ≤ 2 ^ 64 →
        SortedBy (shuffleKey plan.seed) (List.range rows) (shuffled plan.seed rows) ∧
          ∀ order, SortedBy (shuffleKey plan.seed) (List.range rows) order →
            order = shuffled plan.seed rows ∧
              ∀ fold, plan.deal fold order = plan.split fold rows := by
  refine ⟨mix_bijective, ?_, ?_⟩
  · intro seed row other hrow hother hne hkey
    exact hne (shuffleKey_injOn seed hrow hother hkey)
  · intro plan rows hrows
    have hsorted := sortedBy_shuffled plan.seed rows
    have hwords : {row | row ∈ List.range rows} ⊆ {row | row < 2 ^ 64} :=
      fun row hrow ↦ (List.mem_range.mp hrow).trans_le hrows
    refine ⟨hsorted, fun order horder ↦ ?_⟩
    have hshuffle := horder.unique ((shuffleKey_injOn plan.seed).mono hwords) hsorted
    exact ⟨hshuffle, fun fold ↦ by rw [hshuffle, split_eq_deal]⟩

/-- Six rows put into order by hand are shuffled, and dealt out, as they are by the sort. -/
theorem shuffle_without_ties_six :
    let plan : CrossValidation := ⟨3, 11, .accuracy⟩
    shuffleKey 11 0 ≠ shuffleKey 11 (2 ^ 64 - 1) ∧
      SortedBy (shuffleKey plan.seed) (List.range 6) [3, 5, 2, 1, 0, 4] ∧
      shuffled plan.seed 6 = [3, 5, 2, 1, 0, 4] ∧
      plan.split 1 6 = plan.deal 1 [3, 5, 2, 1, 0, 4] := by
  intro plan
  have horder : SortedBy (shuffleKey plan.seed) (List.range 6) [3, 5, 2, 1, 0, 4] :=
    ⟨by decide, by decide⟩
  obtain ⟨-, hkeys, hsorts⟩ := shuffle_without_ties
  obtain ⟨hshuffle, hdeal⟩ := (hsorts plan 6 (by decide)).2 _ horder
  exact ⟨hkeys 11 0 _ (by decide) (by decide) (by decide), horder, hshuffle.symm, (hdeal 1).symm⟩

end CrossValidation

end Dataflow
