import Dataflow.Evaluation
import Dataflow.Proofs.Labels
import Mathlib.Algebra.Order.Floor.Div
import Mathlib.Data.Int.CardIntervalMod
import Mathlib.Data.List.Sort

/-!
# Rows dealt out to folds

Cross-validation shuffles the rows of a table and deals them out to the folds in turn, so that each
row has one fold that tests on it, its home (`CrossValidation.home`). A shuffle has every row once
(`shuffled_perm`), and the two parts of a split are put back into the order of the table, so a split
is the rows of the table told apart by their home (`CrossValidation.split_eq`). All else follows
from this: the folds test on parts that are disjoint, cover the table and differ in size by one row
at most (`CrossValidation.split_partitions`).
-/

set_option autoImplicit false
set_option relaxedAutoImplicit false

namespace Dataflow

/-! ### The shuffle -/

/-- A shuffle has every row once, whatever the sort keys are. -/
theorem shuffled_perm (seed : UInt64) (rows : Nat) :
    (shuffled seed rows).Perm (List.range rows) := by
  have hkeyed : ((List.range rows).map fun row ↦ (shuffleKey seed row, row)).map Prod.snd =
      List.range rows := by
    rw [List.map_map]
    exact List.map_id' _
  have hperm := (List.mergeSort_perm ((List.range rows).map fun row ↦ (shuffleKey seed row, row))
    fun a b ↦ a.1 ≤ b.1).map Prod.snd
  rwa [hkeyed] at hperm

theorem nodup_shuffled (seed : UInt64) (rows : Nat) : (shuffled seed rows).Nodup :=
  (shuffled_perm seed rows).nodup_iff.mpr List.nodup_range

theorem length_shuffled (seed : UInt64) (rows : Nat) : (shuffled seed rows).length = rows :=
  (shuffled_perm seed rows).length_eq.trans List.length_range

/-- In a list without repetition the places of the entries, in order, are the numbers from zero. -/
theorem map_idxOf_self {l : List Nat} (h : l.Nodup) : l.map l.idxOf = List.range l.length := by
  refine List.ext_getElem (by simp) fun place hplace _ ↦ ?_
  rw [List.getElem_map, List.getElem_range, h.idxOf_getElem]

/-- The rows whose places in the shuffle have a property, taken with their places and sorted, are
those of the table in order. -/
theorem sorted_shuffled (seed : UInt64) (rows : Nat) (property : Nat → Bool) :
    (((shuffled seed rows).zipIdx.filter fun placed ↦ property placed.2).map Prod.fst).mergeSort
        (fun a b ↦ a ≤ b) =
      (List.range rows).filter fun row ↦ property ((shuffled seed rows).idxOf row) := by
  set order := shuffled seed rows with horder
  have hplace : ∀ placed ∈ order.zipIdx, property placed.2 = property (order.idxOf placed.1) := by
    intro placed hplaced
    obtain ⟨hlt, hrow⟩ := List.getElem?_eq_some_iff.mp (List.mem_zipIdx_iff_getElem?.mp hplaced)
    rw [← hrow, (nodup_shuffled seed rows).idxOf_getElem]
  have hrows : (order.zipIdx.filter fun placed ↦ property placed.2).map Prod.fst =
      order.filter fun row ↦ property (order.idxOf row) := by
    have hmap := List.filter_map (f := Prod.fst) (p := fun row ↦ property (order.idxOf row))
      (l := order.zipIdx)
    rw [List.zipIdx_map_fst] at hmap
    rw [hmap, List.filter_congr hplace]
    rfl
  have hperm := (shuffled_perm seed rows).filter fun row ↦ property (order.idxOf row)
  refine ((List.mergeSort_perm _ _).trans (hrows ▸ hperm)).eq_of_pairwise' (r := (· ≤ ·)) ?_ ?_
  · exact List.pairwise_mergeSort' (· ≤ ·) _
  · exact List.pairwise_le_range.filter _

namespace CrossValidation

/-! ### The home of a row -/

/-- The fold that tests on a row of a table with `rows` rows. -/
def home (plan : CrossValidation) (rows row : Nat) : Nat :=
  (shuffled plan.seed rows).idxOf row % max plan.folds 1

theorem tests_idxOf (plan : CrossValidation) (fold rows row : Nat) :
    plan.tests fold ((shuffled plan.seed rows).idxOf row) = decide (plan.home rows row = fold) :=
  rfl

/-- A fold trains on the rows whose home is another fold and tests on those whose home it is, both
in the order of the table. -/
theorem split_eq (plan : CrossValidation) (fold rows : Nat) :
    plan.split fold rows = ((List.range rows).filter fun row ↦ plan.home rows row ≠ fold,
      (List.range rows).filter fun row ↦ plan.home rows row = fold) := by
  unfold split
  simp only [List.partition_eq_filter_filter]
  refine Prod.ext ?_ ?_
  · refine (sorted_shuffled plan.seed rows fun place ↦ !plan.tests fold place).trans ?_
    exact List.filter_congr fun row _ ↦ by rw [tests_idxOf, decide_not]
  · refine (sorted_shuffled plan.seed rows fun place ↦ plan.tests fold place).trans ?_
    exact List.filter_congr fun row _ ↦ plan.tests_idxOf fold rows row

theorem mem_train {plan : CrossValidation} {fold rows row : Nat} :
    row ∈ (plan.split fold rows).1 ↔ row < rows ∧ plan.home rows row ≠ fold := by
  simp [split_eq]

theorem mem_test {plan : CrossValidation} {fold rows row : Nat} :
    row ∈ (plan.split fold rows).2 ↔ row < rows ∧ plan.home rows row = fold := by
  simp [split_eq]

variable {plan : CrossValidation}

theorem home_lt (hfolds : 1 ≤ plan.folds) (rows row : Nat) : plan.home rows row < plan.folds := by
  unfold home
  rw [max_eq_left hfolds]
  exact Nat.mod_lt _ hfolds

/-- A fold gets one row of each full round, and one of the last round if that comes to it. -/
theorem length_test {fold : Nat} (hfold : fold < plan.folds) (rows : Nat) :
    (plan.split fold rows).2.length =
      rows / plan.folds + if fold < rows % plan.folds then 1 else 0 := by
  have hpos : 0 < plan.folds := Nat.zero_lt_of_lt hfold
  have hround : ∀ place, place % plan.folds = fold ↔ place ≡ fold [MOD plan.folds] := fun place ↦ by
    rw [Nat.ModEq, Nat.mod_eq_of_lt hfold]
  have hplaces := map_idxOf_self (nodup_shuffled plan.seed rows)
  rw [length_shuffled] at hplaces
  calc (plan.split fold rows).2.length
      = (List.range rows).countP fun row ↦ plan.home rows row = fold := by
        rw [split_eq, List.countP_eq_length_filter]
    _ = (shuffled plan.seed rows).countP fun row ↦ plan.home rows row = fold :=
        (shuffled_perm plan.seed rows).symm.countP_eq _
    _ = (List.range rows).countP fun place ↦ place % plan.folds = fold := by
        rw [← hplaces, List.countP_map]
        simp only [home, max_eq_left (Nat.succ_le_of_lt hpos), Function.comp_def]
    _ = rows.count (· ≡ fold [MOD plan.folds]) :=
        List.countP_congr fun place _ ↦ by simp [hround]
    _ = _ := by rw [Nat.count_modEq_card _ hpos, Nat.mod_eq_of_lt hfold]

/-- The number of entries that fall to one place of rounds of a given length, the last of which may
break off, is a quotient rounded up. -/
theorem quotient_add_eq_ceilDiv {fold folds : Nat} (hfold : fold < folds) (rows : Nat) :
    rows / folds + (if fold < rows % folds then 1 else 0) = (rows - fold) ⌈/⌉ folds := by
  have hpos : 0 < folds := Nat.zero_lt_of_lt hfold
  have hlast := Nat.mod_lt rows hpos
  have hrows := Nat.div_add_mod rows folds
  rw [Nat.ceilDiv_eq_add_pred_div]
  by_cases hreached : fold < rows % folds
  · have hsplit : rows - fold + folds - 1 =
        folds * (rows / folds + 1) + (rows % folds - fold - 1) := by
      rw [Nat.mul_add, Nat.mul_one]
      omega
    have hrest : (rows % folds - fold - 1) / folds = 0 := Nat.div_eq_of_lt (by omega)
    rw [if_pos hreached, hsplit, Nat.mul_add_div hpos, hrest, Nat.add_zero]
  · rw [if_neg hreached, Nat.add_zero]
    rcases Nat.eq_zero_or_pos (rows / folds) with hnone | hround
    · rw [hnone, Nat.mul_zero] at hrows
      rw [hnone, Nat.div_eq_of_lt (by omega)]
    · have hfull : folds ≤ folds * (rows / folds) := Nat.le_mul_of_pos_right _ hround
      have hsplit : rows - fold + folds - 1 =
          folds * (rows / folds) + (rows % folds + (folds - 1 - fold)) := by omega
      have hrest : (rows % folds + (folds - 1 - fold)) / folds = 0 := Nat.div_eq_of_lt (by omega)
      rw [hsplit, Nat.mul_add_div hpos, hrest, Nat.add_zero]

/-! ### Splits -/

/-- Two lists split the rows of a table: they are in order, they have no row in common, and together
they are all rows. -/
structure Splits (rows : Nat) (train test : List Nat) : Prop where
  train_increasing : train.Pairwise (· < ·)
  test_increasing : test.Pairwise (· < ·)
  disjoint : train.Disjoint test
  covers : ∀ row, row ∈ train ∨ row ∈ test ↔ row < rows

theorem splits (plan : CrossValidation) (fold rows : Nat) :
    Splits rows (plan.split fold rows).1 (plan.split fold rows).2 where
  train_increasing := by
    rw [split_eq]
    exact List.pairwise_lt_range.filter _
  test_increasing := by
    rw [split_eq]
    exact List.pairwise_lt_range.filter _
  disjoint row htrain htest := (mem_train.mp htrain).2 (mem_test.mp htest).2
  covers row := by
    rw [mem_train, mem_test]
    tauto

/-- Each fold splits the rows of a table. The folds test on disjoint parts, which together are all
rows; the size of a part is what is left behind the folds before it, divided by the number of folds
and rounded up, so sizes differ by one at most. A fold that is not there tests on nothing and trains
on all rows. The metric has no part in it. -/
theorem split_partitions (plan : CrossValidation) (hfolds : 1 ≤ plan.folds) (rows : Nat) :
    (∀ fold < plan.folds,
      Splits rows (plan.split fold rows).1 (plan.split fold rows).2 ∧
      (plan.split fold rows).2.length =
        if fold < rows then (rows - fold) ⌈/⌉ plan.folds else 0) ∧
    (∀ fold < plan.folds, ∀ other < plan.folds,
      (fold ≠ other → (plan.split fold rows).2.Disjoint (plan.split other rows).2) ∧
      (plan.split fold rows).2.length ≤ (plan.split other rows).2.length + 1) ∧
    (∀ row < rows, ∃ fold < plan.folds, row ∈ (plan.split fold rows).2) ∧
    (∀ fold, plan.folds ≤ fold → plan.split fold rows = (List.range rows, [])) ∧
    ∀ (fold : Nat) (metric : Metric),
      { plan with metric }.split fold rows = plan.split fold rows := by
  refine ⟨fun fold hfold ↦ ⟨plan.splits fold rows, ?_⟩, fun fold hfold other hother ↦ ⟨?_, ?_⟩,
    fun row hrow ↦ ?_, fun fold hfold ↦ ?_, fun fold metric ↦ rfl⟩
  · rw [length_test hfold, quotient_add_eq_ceilDiv hfold]
    split_ifs with hreached
    · rfl
    · rw [Nat.sub_eq_zero_of_le (Nat.le_of_not_lt hreached), zero_ceilDiv]
  · intro hne row hrow hother
    exact hne ((mem_test.mp hrow).2.symm.trans (mem_test.mp hother).2)
  · rw [length_test hfold, length_test hother]
    split_ifs <;> omega
  · exact ⟨plan.home rows row, home_lt hfolds rows row, mem_test.mpr ⟨hrow, rfl⟩⟩
  · have helsewhere : ∀ row, plan.home rows row ≠ fold := fun row ↦
      ne_of_lt (lt_of_lt_of_le (home_lt hfolds rows row) hfold)
    rw [split_eq]
    simp [helsewhere]

/-- Ten rows in three folds are tested in parts of four, three and three, and two rows in three
folds in parts of one, one and none. -/
theorem split_partitions_uneven :
    let plan : CrossValidation := ⟨3, 11, .accuracy⟩
    1 ≤ plan.folds ∧
      (List.range 3).map (fun fold ↦ (plan.split fold 10).2.length) = [4, 3, 3] ∧
      (List.range 3).map (fun fold ↦ (plan.split fold 2).2.length) = [1, 1, 0] ∧
      plan.split 3 10 = (List.range 10, []) := by
  intro plan
  obtain ⟨hsplits, -, -, hbeyond, -⟩ := split_partitions plan (by decide) 10
  obtain ⟨hfew, -⟩ := split_partitions plan (by decide) 2
  refine ⟨by decide, ?_, ?_, hbeyond 3 (by decide)⟩
  · simp only [List.range, List.range.loop, List.map_cons, List.map_nil, (hsplits 0 (by decide)).2,
      (hsplits 1 (by decide)).2, (hsplits 2 (by decide)).2]
    decide
  · simp only [List.range, List.range.loop, List.map_cons, List.map_nil, (hfew 0 (by decide)).2,
      (hfew 1 (by decide)).2, (hfew 2 (by decide)).2]
    decide

end CrossValidation

end Dataflow

/-!
## Rows stay with their labels

The splitter of a fold selects rows of the features and cells of the label column by the same
positions. Features pass over positions that are not there, and labels crash at them; since a split
has positions of the table only (`CrossValidation.splits`), neither happens, and what is selected is
a part of the table with the labels that belong to it (`CrossValidation.Part`). Each row with its
label is in the test part of one fold and in the training parts of all others
(`CrossValidation.splitter_pairs`).
-/

namespace Dataflow.CrossValidation

variable {ε σ : Type} {f : Frame} {label : List Json} {positions : List Nat}

/-! ### Selecting -/

/-- These are the rows of a table and the cells of its label column at the same positions, in the
order of the table and under the names of its columns. -/
structure Part (f : Frame) (label : List Json) (positions : List Nat) (rows : Frame)
    (labels : List Json) : Prop where
  increasing : positions.Pairwise (· < ·)
  within : ∀ position ∈ positions, position < f.height
  columns_eq : rows.columns = f.columns
  height_eq : rows.height = positions.length
  length_eq : labels.length = positions.length
  paired : ∀ place position : Nat, positions[place]? = some position →
    rows.rows[place]? = f.rows[position]? ∧ labels[place]? = label[position]?

theorem rows_takeRows (h : ∀ position ∈ positions, position < f.height) :
    (f.takeRows positions).rows = positions.map (f.rows.getD · []) := by
  change positions.filterMap (f.rows[·]?) = _
  rw [← List.filterMap_eq_map]
  refine List.filterMap_congr fun position hposition ↦ ?_
  have hlt : position < f.rows.length := h position hposition
  rw [Function.comp_apply, List.getElem?_eq_getElem hlt, List.getD_eq_getElem _ _ hlt]

theorem pick_eq_ok (h : ∀ position ∈ positions, position < label.length) :
    pick label positions = .ok (positions.map (label.getD · .null)) := by
  have hread : positions.mapM (label[·]?) = some (positions.map (label.getD · .null)) :=
    mapM_eq_pure fun position hposition ↦ by
      have hlt := h position hposition
      rw [List.getElem?_eq_getElem hlt, List.getD_eq_getElem _ _ hlt]
      rfl
  unfold pick
  rw [hread]

/-- Increasing positions of a table select a part of it, and the labels of that part. -/
theorem exists_part (hlength : label.length = f.height) (hincreasing : positions.Pairwise (· < ·))
    (hwithin : ∀ position ∈ positions, position < f.height) :
    ∃ labels, pick label positions = .ok labels ∧
      Part f label positions (f.takeRows positions) labels := by
  have hrows := rows_takeRows hwithin
  have hlabels : ∀ position ∈ positions, position < label.length := fun position hposition ↦
    hlength.symm ▸ hwithin position hposition
  refine ⟨_, pick_eq_ok hlabels, hincreasing, hwithin, rfl, ?_, List.length_map _,
    fun place position hplace ↦ ?_⟩
  · change (f.takeRows positions).rows.length = _
    rw [hrows, List.length_map]
  · have hposition := List.mem_of_getElem? hplace
    rw [hrows, List.getElem?_map, List.getElem?_map, hplace]
    constructor
    · have hlt : position < f.rows.length := hwithin position hposition
      rw [Option.map_some, List.getD_eq_getElem _ _ hlt, List.getElem?_eq_getElem hlt]
    · have hlt := hlabels position hposition
      rw [Option.map_some, List.getD_eq_getElem _ _ hlt, List.getElem?_eq_getElem hlt]

/-! ### The splitter -/

theorem splitRows_cons (plan : CrossValidation) (fold : Nat) (f : Frame) (label : List Json)
    (rest : List Payload) :
    plan.splitRows fold (.frame f :: .column label :: rest) = do
      Metric.checkRows f.height label.length
      let trainLabel ← pick label (plan.split fold f.height).1
      let testLabel ← pick label (plan.split fold f.height).2
      return .tuple [.frame (f.takeRows (plan.split fold f.height).1), .column trainLabel,
        .frame (f.takeRows (plan.split fold f.height).2), .column testLabel] := rfl

/-- What the splitter of a fold gives: training rows, training labels, test rows and test labels. -/
theorem exists_parts (plan : CrossValidation) (fold : Nat) (hlength : label.length = f.height)
    (rest : List Payload) :
    ∃ trainRows trainLabels testRows testLabels,
      plan.splitRows fold (.frame f :: .column label :: rest) =
        .ok (.tuple [.frame trainRows, .column trainLabels, .frame testRows, .column testLabels]) ∧
      Part f label (plan.split fold f.height).1 trainRows trainLabels ∧
      Part f label (plan.split fold f.height).2 testRows testLabels := by
  have hsplits := plan.splits fold f.height
  obtain ⟨trainLabels, htrain, htrainPart⟩ := exists_part hlength hsplits.train_increasing
    fun position hposition ↦ (hsplits.covers position).mp (.inl hposition)
  obtain ⟨testLabels, htest, htestPart⟩ := exists_part hlength hsplits.test_increasing
    fun position hposition ↦ (hsplits.covers position).mp (.inr hposition)
  refine ⟨_, trainLabels, _, testLabels, ?_, htrainPart, htestPart⟩
  rw [splitRows_cons, Metric.checkRows, if_pos hlength.symm, htrain, htest]
  rfl

variable [Inhabited σ]

/-- On features and labels of one length the splitter of every fold succeeds, with a training part
and a test part of the table and the labels that belong to them. Each row is tested on in one fold,
its home, and trained on in all others. Where the lengths differ every splitter refuses them. -/
theorem splitter_pairs (plan : CrossValidation) (hfolds : 1 ≤ plan.folds) (f : Frame)
    (label : List Json) (rest : List Payload) (fit : σ) (env : Environment ε) :
    (label.length = f.height → ∃ train test : Nat → List Nat,
      (∀ fold, ∃ trainRows trainLabels testRows testLabels,
        (plan.splitter fold : Spec ε σ).behavior.apply (.frame f :: .column label :: rest) fit env =
          (.ok (.tuple [.frame trainRows, .column trainLabels, .frame testRows,
            .column testLabels]), env) ∧
        Part f label (train fold) trainRows trainLabels ∧
        Part f label (test fold) testRows testLabels) ∧
      ∀ row < f.height, ∃ home < plan.folds, ∀ fold,
        (row ∈ test fold ↔ fold = home) ∧ (row ∈ train fold ↔ fold ≠ home)) ∧
    (label.length ≠ f.height → ∀ fold,
      (plan.splitter fold : Spec ε σ).behavior.apply (.frame f :: .column label :: rest) fit env =
        (.error (.error (.invalidInput
          s!"{f.height} predictions for {label.length} truth rows")), env)) := by
  constructor
  · intro hlength
    refine ⟨fun fold ↦ (plan.split fold f.height).1, fun fold ↦ (plan.split fold f.height).2,
      fun fold ↦ ?_, fun row hrow ↦ ?_⟩
    · obtain ⟨trainRows, trainLabels, testRows, testLabels, hsplit, hparts⟩ :=
        exists_parts plan fold hlength rest
      exact ⟨trainRows, trainLabels, testRows, testLabels, congrArg (·, env) hsplit, hparts⟩
    · refine ⟨plan.home f.height row, home_lt hfolds f.height row, fun fold ↦ ⟨?_, ?_⟩⟩
      · rw [mem_test, eq_comm]
        exact and_iff_right hrow
      · rw [mem_train, ne_comm]
        exact and_iff_right hrow
  · intro hlength fold
    change (plan.splitRows fold (.frame f :: .column label :: rest), env) = _
    rw [splitRows_cons, Metric.checkRows, if_neg (Ne.symm hlength)]
    rfl

/-- Two rows that are alike have different labels, and two folds are made of three rows. -/
theorem splitter_pairs_alike :
    let plan : CrossValidation := ⟨2, 5, .accuracy⟩
    let f : Frame := ⟨["x"], [[.int 1], [.int 1], [.int 2]]⟩
    let label : List Json := [.text "yes", .text "no", .text "yes"]
    1 ≤ plan.folds ∧ label.length = f.height ∧
      (∃ test : Nat → List Nat,
        (∀ fold, ∃ trainRows trainLabels testRows testLabels,
          (plan.splitter fold : Spec Unit Unit).behavior.apply [.frame f, .column label] ()
              ⟨[], ()⟩ =
            (.ok (.tuple [.frame trainRows, .column trainLabels, .frame testRows,
              .column testLabels]), ⟨[], ()⟩) ∧
          Part f label (test fold) testRows testLabels) ∧
        ∃ home < 2, ∀ fold, 1 ∈ test fold ↔ fold = home) ∧
      ∃ text, (plan.splitter 0 : Spec Unit Unit).behavior.apply [.frame f, .column []] () ⟨[], ()⟩ =
        (.error (.error (.invalidInput text)), ⟨[], ()⟩) := by
  intro plan f label
  obtain ⟨hsplit, -⟩ := splitter_pairs (ε := Unit) (σ := Unit) plan (by decide) f label [] ()
    ⟨[], ()⟩
  obtain ⟨-, hrefused⟩ := splitter_pairs (ε := Unit) (σ := Unit) plan (by decide) f [] [] ()
    ⟨[], ()⟩
  obtain ⟨train, test, hparts, hhomes⟩ := hsplit rfl
  refine ⟨by decide, rfl, ⟨test, fun fold ↦ ?_, ?_⟩, ⟨_, hrefused (by decide) 0⟩⟩
  · obtain ⟨trainRows, trainLabels, testRows, testLabels, happly, -, htest⟩ := hparts fold
    exact ⟨trainRows, trainLabels, testRows, testLabels, happly, htest⟩
  · obtain ⟨home, hhome, hfolds⟩ := hhomes 1 (by decide)
    exact ⟨home, hhome, fun fold ↦ (hfolds fold).1⟩

end Dataflow.CrossValidation
