import Dataflow.Actor
import Mathlib.Data.List.Forall2
import Mathlib.Data.List.GetD
import Mathlib.Data.List.InsertIdx

/-!
# Features and label

A workflow that trains separates the label column of its feed from the features, and one that only
applies drops that column if it is there. These are two actors. On a rectangular frame a name is
looked up and its column is taken away without a crash (`Frame.named`), so both give the same
features, of the height of the frame, and putting the label back in its place gives the frame again
(`Builtin.features_agree`).

A frame may have several columns of one name, and a name stands for the first of them. So the
features have one label column less than the frame, and all columns of other names with their cells;
a label column is left exactly if there was more than one (`Builtin.label_remains_iff`).
-/

set_option autoImplicit false
set_option relaxedAutoImplicit false

namespace Dataflow

variable {ε σ : Type}

/-- Where each step gives a value, so does going through a list. -/
theorem mapM_eq_pure {m : Type → Type} [Monad m] [LawfulMonad m] {α β : Type} {step : α → m β}
    {value : α → β} {l : List α} (h : ∀ a ∈ l, step a = pure (value a)) :
    l.mapM step = pure (l.map value) := by
  induction l with
  | nil => exact List.mapM_nil
  | cons a rest ih =>
    rw [List.mapM_cons, h a List.mem_cons_self, pure_bind,
      ih fun other hother ↦ h other (List.mem_cons_of_mem _ hother), pure_bind, List.map_cons]

/-- Going through a list gives what each step gives, in order, if no step fails. -/
theorem mapM_eq_ok_iff {δ α β : Type} {step : α → Except δ β} {l : List α} {results : List β} :
    l.mapM step = .ok results ↔ List.Forall₂ (fun a b ↦ step a = .ok b) l results := by
  induction l generalizing results with
  | nil =>
    rw [List.mapM_nil, List.forall₂_nil_left_iff]
    exact ⟨fun h ↦ (Except.ok.inj h).symm, fun h ↦ congrArg Except.ok h.symm⟩
  | cons a rest ih =>
    rw [List.mapM_cons, List.forall₂_cons_left_iff]
    constructor
    · intro h
      cases hfirst : step a with
      | error e =>
        rw [hfirst] at h
        cases h
      | ok first =>
        rw [hfirst] at h
        cases hrest : rest.mapM step with
        | error e =>
          rw [hrest] at h
          cases h
        | ok others =>
          rw [hrest] at h
          exact ⟨first, others, rfl, ih.mp hrest, (Except.ok.inj h).symm⟩
    · rintro ⟨first, others, hfirst, hothers, rfl⟩
      rw [hfirst, ih.mpr hothers]
      rfl

namespace Frame

variable {f : Frame} {name : String} {index : Nat}

/-! ### Columns by position -/

/-- The cells of the column at a position. -/
def cells (f : Frame) (index : Nat) : List Json :=
  f.rows.map (·.getD index .null)

/-- The frame without the column at a position. -/
def eraseColumn (f : Frame) (index : Nat) : Frame :=
  ⟨f.columns.eraseIdx index, f.rows.map (·.eraseIdx index)⟩

/-- The frame with a column inserted at a position. -/
def insertColumn (f : Frame) (index : Nat) (name : String) (cells : List Json) : Frame :=
  ⟨f.columns.insertIdx index name, f.rows.zipWith (fun row cell ↦ row.insertIdx index cell) cells⟩

/-- The names of the columns in order, each with its cells. -/
def listed (f : Frame) : List (String × List Json) :=
  f.columns.zipIdx.map fun column ↦ (column.1, f.cells column.2)

theorem getElem?_listed (f : Frame) (index : Nat) :
    f.listed[index]? = f.columns[index]?.map fun name ↦ (name, f.cells index) := by
  simp [listed, Function.comp_def]

theorem height_eraseColumn (f : Frame) (index : Nat) : (f.eraseColumn index).height = f.height :=
  List.length_map _

theorem length_cells (f : Frame) (index : Nat) : (f.cells index).length = f.height :=
  List.length_map _

theorem IsRectangular.eraseColumn (hf : f.IsRectangular) (index : Nat) :
    (f.eraseColumn index).IsRectangular := by
  intro row hrow
  obtain ⟨wide, hwide, rfl⟩ := List.mem_map.mp hrow
  change (wide.eraseIdx index).length = (f.columns.eraseIdx index).length
  rw [List.length_eraseIdx, List.length_eraseIdx, hf wide hwide]

/-- Taking a column away moves those behind it one place forward. -/
theorem listed_eraseColumn (f : Frame) (index : Nat) :
    (f.eraseColumn index).listed = f.listed.eraseIdx index := by
  refine List.ext_getElem? fun k ↦ ?_
  have hcells : (f.eraseColumn index).cells k = f.cells (if k < index then k else k + 1) := by
    unfold cells Frame.eraseColumn
    rw [List.map_map]
    refine List.map_congr_left fun row _ ↦ ?_
    rw [Function.comp_apply, List.getD_eq_getElem?_getD, List.getD_eq_getElem?_getD,
      List.getElem?_eraseIdx]
    split_ifs <;> rfl
  rw [getElem?_listed, hcells, List.getElem?_eraseIdx]
  change Option.map _ (f.columns.eraseIdx index)[k]? = _
  rw [List.getElem?_eraseIdx]
  split_ifs <;> rw [getElem?_listed]

/-- A column put back where it was gives the frame again. -/
theorem insertColumn_eraseColumn (hf : f.IsRectangular) (hname : f.columns[index]? = some name) :
    (f.eraseColumn index).insertColumn index name (f.cells index) = f := by
  obtain ⟨hindex, rfl⟩ := List.getElem?_eq_some_iff.mp hname
  obtain ⟨columns, rows⟩ := f
  have hrows : ∀ row ∈ rows, (row.eraseIdx index).insertIdx index (row.getD index .null) = row := by
    intro row hrow
    have hlt : index < row.length := (hf row hrow).symm ▸ hindex
    rw [List.getD_eq_getElem _ _ hlt, List.insertIdx_eraseIdx_getElem]
  refine congrArg₂ Frame.mk (List.insertIdx_eraseIdx_getElem hindex) ?_
  change (rows.map _).zipWith _ (rows.map _) = rows
  rw [List.zipWith_map, List.zipWith_self]
  exact (List.map_congr_left hrows).trans (List.map_id' rows)

/-! ### Columns by name -/

/-- The first column of a name stands at this position. -/
structure FirstAt (f : Frame) (name : String) (index : Nat) : Prop where
  here : f.columns[index]? = some name
  first : ∀ earlier < index, f.columns[earlier]? ≠ some name

theorem firstAt_of_columnIndex? (h : f.columnIndex? name = some index) : f.FirstAt name index := by
  obtain ⟨hlt, hhere, hfirst⟩ := List.findIdx?_eq_some_iff_getElem.mp h
  refine ⟨List.getElem?_eq_some_iff.mpr ⟨hlt, eq_of_beq hhere⟩, fun earlier hearlier hsame ↦ ?_⟩
  obtain ⟨_, hname⟩ := List.getElem?_eq_some_iff.mp hsame
  exact hfirst earlier hearlier (beq_iff_eq.mpr hname)

theorem cellsAt_eq_ok {rows : List (List Json)} (h : ∀ row ∈ rows, index < row.length) :
    cellsAt rows index = .ok (rows.map (·.getD index .null)) := by
  have hread : rows.mapM (·[index]?) = some (rows.map (·.getD index .null)) :=
    mapM_eq_pure fun row hrow ↦ by
      rw [List.getElem?_eq_getElem (h row hrow), List.getD_eq_getElem _ _ (h row hrow)]
      rfl
  unfold cellsAt
  rw [hread]

theorem eraseCells_eq_ok {rows : List (List Json)} (h : ∀ row ∈ rows, index < row.length) :
    eraseCells index rows = .ok (rows.map (·.eraseIdx index)) := by
  induction rows with
  | nil => rfl
  | cons row rest ih =>
    rw [eraseCells, if_pos (h row List.mem_cons_self),
      ih fun other hother ↦ h other (List.mem_cons_of_mem _ hother)]
    rfl

/-- What looking up a name and taking its column away come to. -/
inductive Named (f : Frame) (name : String) : Prop
  | absent (hname : name ∉ f.columns) (hcolumn : f.column? name = .ok none)
      (hwithout : f.withoutColumn name = .ok f)
  | found {index : Nat} (hfirst : f.FirstAt name index)
      (hcolumn : f.column? name = .ok (some (f.cells index)))
      (hwithout : f.withoutColumn name = .ok (f.eraseColumn index))

theorem named (hf : f.IsRectangular) (name : String) : f.Named name := by
  cases hindex : f.columnIndex? name with
  | none =>
    have hname : name ∉ f.columns := fun hmem ↦ by
      have hnone := List.findIdx?_eq_none_iff.mp hindex name hmem
      simp at hnone
    refine .absent hname ?_ ?_
    · rw [column?, hindex]
    · rw [withoutColumn, hindex]
  | some index =>
    have hfirst := firstAt_of_columnIndex? hindex
    obtain ⟨hlt, -⟩ := List.getElem?_eq_some_iff.mp hfirst.here
    have hwide : ∀ row ∈ f.rows, index < row.length := fun row hrow ↦ (hf row hrow).symm ▸ hlt
    refine .found hfirst ?_ ?_
    · rw [column?, hindex]
      dsimp only
      rw [cellsAt_eq_ok hwide]
      rfl
    · rw [withoutColumn, hindex]
      dsimp only
      rw [eraseCells_eq_ok hwide]
      rfl

theorem exists_append_eraseIdx {α : Type} {l : List α} {a : α} (h : l[index]? = some a) :
    ∃ front back, l = front ++ a :: back ∧ l.eraseIdx index = front ++ back := by
  obtain ⟨hindex, rfl⟩ := List.getElem?_eq_some_iff.mp h
  refine ⟨l.take index, l.drop (index + 1), ?_, List.eraseIdx_eq_take_drop_succ l index⟩
  rw [← List.drop_eq_getElem_cons hindex, List.take_append_drop]

/-- Taking the column at a position away leaves the columns of other names as they are. -/
theorem filter_listed_eraseColumn (h : f.columns[index]? = some name) :
    (f.eraseColumn index).listed.filter (·.1 ≠ name) = f.listed.filter (·.1 ≠ name) := by
  have hcolumn : f.listed[index]? = some (name, f.cells index) := by
    rw [getElem?_listed, h]
    rfl
  obtain ⟨front, back, hlisted, herased⟩ := exists_append_eraseIdx hcolumn
  rw [listed_eraseColumn, herased, hlisted, List.filter_append, List.filter_append,
    List.filter_cons_of_neg (by simp)]

/-- Taking a column away leaves one column of its name less. -/
theorem count_eraseColumn (h : f.columns[index]? = some name) :
    (f.eraseColumn index).columns.count name + 1 = f.columns.count name := by
  obtain ⟨front, back, hcolumns, herased⟩ := exists_append_eraseIdx h
  change (f.columns.eraseIdx index).count name + 1 = _
  rw [herased, hcolumns, List.count_append, List.count_append, List.count_cons_self, Nat.add_assoc]

end Frame

namespace Builtin

variable [Inhabited σ]

/-! ### The two actors -/

/-- The refusal of a frame without a label column. -/
def missing (label : String) : Halt ActorError :=
  .error (.invalidInput s!"frame has no label column '{label}'")

theorem apply_extract_absent {f : Frame} {label : String} (hcolumn : f.column? label = .ok none)
    (rest : List Payload) (fit : σ) (env : Environment ε) :
    (extract label : Spec ε σ).behavior.apply (.frame f :: rest) fit env =
      (.error (missing label), env) := by
  change (extractLabel label (.frame f :: rest), env) = _
  simp [extractLabel, frameInput, inputAt, Payload.frame?, Halt.lift, Halt.mapError, hcolumn,
    missing, bind, Except.bind, pure, Except.pure, throw, throwThe, MonadExceptOf.throw]

theorem apply_extract_found {f features : Frame} {label : String} {labels : List Json}
    (hcolumn : f.column? label = .ok (some labels))
    (hwithout : f.withoutColumn label = .ok features) (rest : List Payload) (fit : σ)
    (env : Environment ε) :
    (extract label : Spec ε σ).behavior.apply (.frame f :: rest) fit env =
      (.ok (.tuple [.frame features, .column labels]), env) := by
  change (extractLabel label (.frame f :: rest), env) = _
  simp [extractLabel, frameInput, inputAt, Payload.frame?, Halt.lift, Halt.mapError, hcolumn,
    hwithout, bind, Except.bind, pure, Except.pure]

theorem apply_strip {f features : Frame} {label : String}
    (hwithout : f.withoutColumn label = .ok features) (rest : List Payload) (fit : σ)
    (env : Environment ε) :
    (strip label : Spec ε σ).behavior.apply (.frame f :: rest) fit env =
      (.ok (.frame features), env) := by
  change (stripLabel label (.frame f :: rest), env) = _
  simp [stripLabel, frameInput, inputAt, Payload.frame?, Halt.lift, Halt.mapError, hwithout, bind,
    Except.bind, pure, Except.pure]

/-- The two actors give the same features of a frame, and nothing is lost. If a frame has a label
column, one actor gives features and label, of the height of the frame, and the other the same
features; with the label back in the place and under the name of the first label column they are
the frame again. If it has none, one actor refuses the frame and the other hands it on. -/
theorem features_agree (label : String) {f : Frame} (hf : f.IsRectangular) (rest : List Payload)
    (fit : σ) (env : Environment ε) :
    (label ∈ f.columns → ∃ features labels index,
      (extract label : Spec ε σ).behavior.apply (.frame f :: rest) fit env =
          (.ok (.tuple [.frame features, .column labels]), env) ∧
        (strip label : Spec ε σ).behavior.apply (.frame f :: rest) fit env =
          (.ok (.frame features), env) ∧
        features.height = f.height ∧ labels.length = f.height ∧ f.FirstAt label index ∧
        features.insertColumn index label labels = f) ∧
    (label ∉ f.columns →
      (extract label : Spec ε σ).behavior.apply (.frame f :: rest) fit env =
          (.error (missing label), env) ∧
        (strip label : Spec ε σ).behavior.apply (.frame f :: rest) fit env =
          (.ok (.frame f), env)) := by
  cases f.named hf label with
  | absent hname hcolumn hwithout =>
    refine ⟨fun hmem ↦ absurd hmem hname, fun _ ↦ ⟨?_, ?_⟩⟩
    · exact apply_extract_absent hcolumn rest fit env
    · exact apply_strip hwithout rest fit env
  | @found index hfirst hcolumn hwithout =>
    refine ⟨fun _ ↦ ⟨f.eraseColumn index, f.cells index, index, ?_⟩, fun hnone ↦ absurd ?_ hnone⟩
    · exact ⟨apply_extract_found hcolumn hwithout rest fit env, apply_strip hwithout rest fit env,
        f.height_eraseColumn index, f.length_cells index, hfirst,
        Frame.insertColumn_eraseColumn hf hfirst.here⟩
    · exact List.mem_of_getElem? hfirst.here

/-- A frame with two columns of one name. -/
def repeated : Frame :=
  ⟨["y", "x", "y"], [[.int 1, .int 2, .int 3], [.int 4, .int 5, .int 6]]⟩

theorem features_agree_repeated :
    ∃ features labels index,
      (extract "y" : Spec Unit Unit).behavior.apply [.frame repeated] () ⟨[], ()⟩ =
          (.ok (.tuple [.frame features, .column labels]), ⟨[], ()⟩) ∧
        features.height = 2 ∧ repeated.FirstAt "y" index ∧
        features.insertColumn index "y" labels = repeated := by
  obtain ⟨features, labels, index, hextract, -, hheight, -, hfirst, hback⟩ :=
    (features_agree (ε := Unit) (σ := Unit) "y" (by decide : repeated.IsRectangular) [] ()
      ⟨[], ()⟩).1 (by decide)
  exact ⟨features, labels, index, hextract, hheight, hfirst, hback⟩

/-! ### Frames with several label columns -/

/-- Both actors keep all columns of other names, in order and with their cells, and give a
rectangular frame. It has one label column less than the frame, so it has a label column exactly if
the frame had more than one. -/
theorem label_remains_iff (label : String) {f : Frame} (hf : f.IsRectangular)
    (rest : List Payload) (fit : σ) (env : Environment ε) :
    ∃ features : Frame,
      (strip label : Spec ε σ).behavior.apply (.frame f :: rest) fit env =
          (.ok (.frame features), env) ∧
        (label ∈ f.columns → ∃ labels,
          (extract label : Spec ε σ).behavior.apply (.frame f :: rest) fit env =
            (.ok (.tuple [.frame features, .column labels]), env)) ∧
        (label ∉ f.columns →
          (extract label : Spec ε σ).behavior.apply (.frame f :: rest) fit env =
            (.error (missing label), env)) ∧
        features.IsRectangular ∧
        features.listed.filter (·.1 ≠ label) = f.listed.filter (·.1 ≠ label) ∧
        features.columns.count label = f.columns.count label - 1 ∧
        (label ∈ features.columns ↔ 1 < f.columns.count label) := by
  have hleft : ∀ {features : Frame}, features.columns.count label = f.columns.count label - 1 →
      (label ∈ features.columns ↔ 1 < f.columns.count label) := fun hcount ↦ by
    rw [← List.count_pos_iff, hcount]
    omega
  cases f.named hf label with
  | absent hname hcolumn hwithout =>
    have hcount : f.columns.count label = f.columns.count label - 1 := by
      rw [List.count_eq_zero_of_not_mem hname]
    exact ⟨f, apply_strip hwithout rest fit env, fun hmem ↦ absurd hmem hname,
      fun _ ↦ apply_extract_absent hcolumn rest fit env, hf, rfl, hcount, hleft hcount⟩
  | @found index hfirst hcolumn hwithout =>
    have hcount : (f.eraseColumn index).columns.count label = f.columns.count label - 1 :=
      Nat.eq_sub_of_add_eq (Frame.count_eraseColumn hfirst.here)
    exact ⟨f.eraseColumn index, apply_strip hwithout rest fit env,
      fun _ ↦ ⟨f.cells index, apply_extract_found hcolumn hwithout rest fit env⟩,
      fun hnone ↦ absurd (List.mem_of_getElem? hfirst.here) hnone, hf.eraseColumn index,
      Frame.filter_listed_eraseColumn hfirst.here, hcount, hleft hcount⟩

theorem label_remains_repeated :
    ∃ features : Frame,
      (strip "y" : Spec Unit Unit).behavior.apply [.frame repeated] () ⟨[], ()⟩ =
          (.ok (.frame features), ⟨[], ()⟩) ∧
        features.listed.filter (·.1 ≠ "y") = [("x", [.int 2, .int 5])] ∧
        "y" ∈ features.columns := by
  obtain ⟨features, hstrip, -, -, -, hothers, -, hremains⟩ :=
    label_remains_iff (ε := Unit) (σ := Unit) "y" (by decide : repeated.IsRectangular) [] ()
      ⟨[], ()⟩
  exact ⟨features, hstrip, hothers.trans rfl, hremains.mpr (by decide)⟩

/-- With a repeated label column, the features still hold a label column, on either path. -/
theorem label_not_always_dropped :
    Frame.ofRows repeated.columns repeated.rows = .ok repeated ∧
      ∃ features : Frame, "y" ∈ features.columns ∧
        (strip "y" : Spec Unit Unit).behavior.apply [.frame repeated] () ⟨[], ()⟩ =
          (.ok (.frame features), ⟨[], ()⟩) ∧
        (extract "y" : Spec Unit Unit).behavior.apply [.frame repeated] () ⟨[], ()⟩ =
          (.ok (.tuple [.frame features, .column [.int 1, .int 4]]), ⟨[], ()⟩) :=
  ⟨rfl, ⟨["x", "y"], [[.int 2, .int 3], [.int 5, .int 6]]⟩, by decide, rfl, rfl⟩

end Builtin

end Dataflow
