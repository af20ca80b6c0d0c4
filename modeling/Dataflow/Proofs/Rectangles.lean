import Dataflow.Proofs.Labels

/-!
# Frames stay rectangular

A frame is made by calls: it starts empty or from rows, and rows and columns are added, written,
taken away and joined (`Frame.Made`). Every frame that is made is rectangular, because each
operation keeps that, and on a rectangular frame no operation crashes
(`Frame.Made.stays_rectangular`).

What a call changes is one row or one column. Writing a column sets the first column of its name, or
adds one at the end, and leaves all others as they are (`Frame.written`); taking a column away moves
those behind it forward (`Frame.named`, `Frame.listed_eraseColumn`). A row that is refused leaves
the frame as it was (`Frame.run_push`). Frames of one height have all the rows that assembling them
reads, so this does not crash even on frames that are not rectangular (`Frame.assemble_eq_lift`).
-/

set_option autoImplicit false
set_option relaxedAutoImplicit false

namespace Dataflow.Frame

variable {f g : Frame} {name : String} {index : Nat} {values row : List Json}
  {rows : List (List Json)}

/-! ### Rows -/

theorem run_push (row : List Json) (f : Frame) :
    (push row).run f =
      if row.length = f.columns.length then (.ok (), { f with rows := f.rows ++ [row] })
      else (.error (.rowWidth row.length f.columns.length), f) := by
  change Edit.run (do
    if row.length ≠ f.columns.length then throw (.rowWidth row.length f.columns.length)
    set { f with rows := f.rows ++ [row] }) f = _
  by_cases hwidth : row.length = f.columns.length
  · rw [if_neg (not_not_intro hwidth), if_pos hwidth]
    rfl
  · rw [if_pos hwidth, if_neg hwidth]
    rfl

theorem isRectangular_empty (columns : List String) : (empty columns).IsRectangular :=
  fun _ hrow ↦ absurd hrow List.not_mem_nil

theorem IsRectangular.append (hf : f.IsRectangular) (hwidth : row.length = f.columns.length) :
    IsRectangular { f with rows := f.rows ++ [row] } := by
  intro other hother
  rcases List.mem_append.mp hother with hother | hother
  · exact hf other hother
  · rw [List.mem_singleton.mp hother]
    exact hwidth

theorem IsRectangular.push (hf : f.IsRectangular) (row : List Json) :
    ((Frame.push row).run f).2.IsRectangular := by
  rw [run_push]
  split_ifs with hwidth
  · exact hf.append hwidth
  · exact hf

theorem IsRectangular.foldlM_pushRow (hf : f.IsRectangular) (h : rows.foldlM pushRow f = .ok g) :
    g.IsRectangular := by
  induction rows generalizing f with
  | nil =>
    cases h
    exact hf
  | cons row rest ih =>
    rw [List.foldlM_cons, pushRow] at h
    split_ifs at h with hwidth
    · exact ih (hf.append hwidth) h
    · cases h

theorem isRectangular_of_ofRows {columns : List String} (h : ofRows columns rows = .ok f) :
    f.IsRectangular :=
  (isRectangular_empty columns).foldlM_pushRow h

theorem IsRectangular.takeRows (hf : f.IsRectangular) (positions : List Nat) :
    (f.takeRows positions).IsRectangular := by
  intro row hrow
  obtain ⟨position, -, hposition⟩ := List.mem_filterMap.mp hrow
  exact hf row (List.mem_of_getElem? hposition)

/-! ### Writing a value into every row -/

/-- The frame with these names in which a value has been written into every row. -/
def writeRows (f : Frame) (columns : List String) (write : List Json → Json → List Json)
    (values : List Json) : Frame :=
  ⟨columns, f.rows.zipWith write values⟩

section Write

variable {columns : List String} {write : List Json → Json → List Json} {k : Nat}

theorem height_writeRows (hlength : values.length = f.height) :
    (f.writeRows columns write values).height = f.height := by
  change (f.rows.zipWith write values).length = f.rows.length
  rw [List.length_zipWith, hlength]
  exact Nat.min_self _

theorem isRectangular_writeRows
    (hwidth : ∀ row ∈ f.rows, ∀ value, (write row value).length = columns.length) :
    (f.writeRows columns write values).IsRectangular := by
  change ∀ row ∈ f.rows.zipWith write values, row.length = columns.length
  intro row hrow
  obtain ⟨place, hplace, rfl⟩ := List.getElem_of_mem hrow
  rw [List.getElem_zipWith]
  exact hwidth _ (List.getElem_mem _) _

/-- A column in whose place nothing is written stays as it is. -/
theorem cells_writeRows_of_kept (hlength : values.length = f.height)
    (hkept : ∀ row ∈ f.rows, ∀ value, (write row value).getD k .null = row.getD k .null) :
    (f.writeRows columns write values).cells k = f.cells k := by
  have hheight : ((f.writeRows columns write values).cells k).length = f.height :=
    (length_cells _ k).trans (height_writeRows hlength)
  unfold cells writeRows at hheight ⊢
  refine List.ext_getElem (hheight.trans (List.length_map _).symm) fun place _ _ ↦ ?_
  rw [List.getElem_map, List.getElem_map, List.getElem_zipWith]
  exact hkept _ (List.getElem_mem _) _

/-- The column in whose place values are written has these values. -/
theorem cells_writeRows_of_written (hlength : values.length = f.height)
    (hwritten : ∀ row ∈ f.rows, ∀ value, (write row value).getD k .null = value) :
    (f.writeRows columns write values).cells k = values := by
  have hheight : ((f.writeRows columns write values).cells k).length = f.height :=
    (length_cells _ k).trans (height_writeRows hlength)
  unfold cells writeRows at hheight ⊢
  refine List.ext_getElem (hheight.trans hlength.symm) fun place _ _ ↦ ?_
  rw [List.getElem_map, List.getElem_zipWith]
  exact hwritten _ (List.getElem_mem _) _

end Write

/-! ### Columns -/

/-- The frame with these cells in the column at a position. -/
def setColumn (f : Frame) (index : Nat) (values : List Json) : Frame :=
  f.writeRows f.columns (·.set index ·) values

/-- The frame with a column more, at the end. -/
def addColumn (f : Frame) (name : String) (values : List Json) : Frame :=
  f.writeRows (f.columns ++ [name]) (fun row value ↦ row ++ [value]) values

theorem setCells_eq_ok (h : ∀ row ∈ rows, index < row.length)
    (hlength : values.length = rows.length) :
    setCells index rows values = .ok (rows.zipWith (·.set index ·) values) := by
  induction rows generalizing values with
  | nil =>
    rw [List.eq_nil_of_length_eq_zero hlength]
    rfl
  | cons row rest ih =>
    obtain ⟨value, others, rfl⟩ := List.exists_cons_of_length_eq_add_one hlength
    rw [setCells, if_pos (h row List.mem_cons_self),
      ih (fun other hother ↦ h other (List.mem_cons_of_mem _ hother)) (Nat.succ.inj hlength)]
    rfl

theorem IsRectangular.setColumn (hf : f.IsRectangular) (index : Nat) (values : List Json) :
    (f.setColumn index values).IsRectangular :=
  isRectangular_writeRows fun row hrow _ ↦ List.length_set.trans (hf row hrow)

theorem IsRectangular.addColumn (hf : f.IsRectangular) (name : String) (values : List Json) :
    (f.addColumn name values).IsRectangular :=
  isRectangular_writeRows fun row hrow _ ↦ by
    rw [List.length_append, List.length_append, hf row hrow]
    rfl

theorem cells_setColumn_self (hf : f.IsRectangular) (hlength : values.length = f.height)
    (hindex : index < f.columns.length) : (f.setColumn index values).cells index = values :=
  cells_writeRows_of_written hlength fun row hrow value ↦ by
    have hlt : index < (row.set index value).length := by
      rw [List.length_set, hf row hrow]
      exact hindex
    rw [List.getD_eq_getElem _ _ hlt, List.getElem_set_self]

theorem cells_setColumn_of_ne (hlength : values.length = f.height) {k : Nat} (hk : index ≠ k) :
    (f.setColumn index values).cells k = f.cells k :=
  cells_writeRows_of_kept hlength fun row _ value ↦ by
    rw [List.getD_eq_getElem?_getD, List.getElem?_set_ne hk, ← List.getD_eq_getElem?_getD]

theorem cells_addColumn_last (hf : f.IsRectangular) (hlength : values.length = f.height)
    (name : String) : (f.addColumn name values).cells f.columns.length = values :=
  cells_writeRows_of_written hlength fun row hrow value ↦ by
    rw [← hf row hrow, List.getD_append_right _ _ _ _ (Nat.le_refl _), Nat.sub_self]
    rfl

theorem cells_addColumn_of_lt (hf : f.IsRectangular) (hlength : values.length = f.height)
    (name : String) {k : Nat} (hk : k < f.columns.length) :
    (f.addColumn name values).cells k = f.cells k :=
  cells_writeRows_of_kept hlength fun row hrow _ ↦
    List.getD_append _ _ _ _ ((hf row hrow).symm ▸ hk)

/-- Writing a column leaves those at other positions alone. -/
theorem listed_setColumn_of_ne (hlength : values.length = f.height) {k : Nat} (hk : k ≠ index) :
    (f.setColumn index values).listed[k]? = f.listed[k]? := by
  rw [getElem?_listed, getElem?_listed, cells_setColumn_of_ne hlength hk.symm]
  rfl

/-- Adding a column leaves those before it alone, and there are none behind it. -/
theorem listed_addColumn_of_ne (hf : f.IsRectangular) (hlength : values.length = f.height)
    (name : String) {k : Nat} (hk : k ≠ f.columns.length) :
    (f.addColumn name values).listed[k]? = f.listed[k]? := by
  rw [getElem?_listed, getElem?_listed]
  change (f.columns ++ [name])[k]?.map _ = _
  rcases Nat.lt_or_gt_of_ne hk with hlt | hgt
  · rw [List.getElem?_append_left hlt, cells_addColumn_of_lt hf hlength name hlt]
  · have hlong : (f.columns ++ [name]).length ≤ k := by
      rw [List.length_append]
      exact hgt
    rw [List.getElem?_eq_none hlong, List.getElem?_eq_none (Nat.le_of_lt hgt)]
    rfl

/-! ### Columns by name -/

theorem FirstAt.unique {other : Nat} (h : f.FirstAt name index) (hother : f.FirstAt name other) :
    index = other := by
  rcases Nat.lt_trichotomy index other with hlt | heq | hlt
  · exact absurd h.here (hother.first index hlt)
  · exact heq
  · exact absurd hother.here (h.first other hlt)

/-- A name stands for its first column. -/
theorem column?_of_firstAt (hf : f.IsRectangular) (h : f.FirstAt name index) :
    f.column? name = .ok (some (f.cells index)) := by
  cases f.named hf name with
  | absent hname _ _ => exact absurd (List.mem_of_getElem? h.here) hname
  | found hfirst hcolumn _ => rw [hcolumn, hfirst.unique h]

theorem firstAt_addColumn (hname : name ∉ f.columns) :
    (f.addColumn name values).FirstAt name f.columns.length where
  here := List.getElem?_concat_length
  first earlier hearlier hsame := by
    change (f.columns ++ [name])[earlier]? = some name at hsame
    rw [List.getElem?_append_left hearlier] at hsame
    exact hname (List.mem_of_getElem? hsame)

/-- What writing a column of the height of the frame comes to. -/
inductive Written (f : Frame) (name : String) (values : List Json) : Prop
  | replaced {index : Nat} (hfirst : f.FirstAt name index)
      (hwith : f.withColumn name values = .ok (f.setColumn index values))
  | added (hname : name ∉ f.columns)
      (hwith : f.withColumn name values = .ok (f.addColumn name values))

theorem written (hf : f.IsRectangular) (name : String) (hlength : values.length = f.height) :
    f.Written name values := by
  have hrows : values.length = f.rows.length := hlength
  cases hindex : f.columnIndex? name with
  | none =>
    refine .added (fun hmem ↦ ?_) ?_
    · have hnone := List.findIdx?_eq_none_iff.mp hindex name hmem
      simp at hnone
    · rw [withColumn, if_pos hrows, hindex]
      rfl
  | some index =>
    have hfirst := firstAt_of_columnIndex? hindex
    obtain ⟨hlt, -⟩ := List.getElem?_eq_some_iff.mp hfirst.here
    have hwide : ∀ row ∈ f.rows, index < row.length := fun row hrow ↦ (hf row hrow).symm ▸ hlt
    refine .replaced hfirst ?_
    rw [withColumn, if_pos hrows, hindex]
    dsimp only
    rw [setCells_eq_ok hwide hrows]
    rfl

/-- Writing a column gives the name these cells, keeps the height, and leaves alone every column
but the first of the name, or the one added at the end if there is none. -/
theorem exists_withColumn (hf : f.IsRectangular) (name : String)
    (hlength : values.length = f.height) :
    ∃ g index, f.withColumn name values = .ok g ∧
      (f.FirstAt name index ∨ name ∉ f.columns ∧ index = f.columns.length) ∧
      g.column? name = .ok (some values) ∧ g.height = f.height ∧
      ∀ k, k ≠ index → g.listed[k]? = f.listed[k]? := by
  cases written hf name hlength with
  | @replaced index hfirst hwith =>
    obtain ⟨hindex, -⟩ := List.getElem?_eq_some_iff.mp hfirst.here
    have hsame : (f.setColumn index values).FirstAt name index := ⟨hfirst.here, hfirst.first⟩
    refine ⟨f.setColumn index values, index, hwith, .inl hfirst, ?_, height_writeRows hlength,
      fun k hk ↦ listed_setColumn_of_ne hlength hk⟩
    rw [column?_of_firstAt (hf.setColumn index values) hsame,
      cells_setColumn_self hf hlength hindex]
  | added hname hwith =>
    refine ⟨f.addColumn name values, f.columns.length, hwith, .inr ⟨hname, rfl⟩, ?_,
      height_writeRows hlength, fun k hk ↦ listed_addColumn_of_ne hf hlength name hk⟩
    rw [column?_of_firstAt (hf.addColumn name values) (firstAt_addColumn hname),
      cells_addColumn_last hf hlength name]

theorem withColumn_of_height_ne (h : values.length ≠ f.height) :
    f.withColumn name values = .error (.error (.columnHeight name values.length f.height)) :=
  if_neg h

theorem IsRectangular.of_withColumn (hf : f.IsRectangular) (h : f.withColumn name values = .ok g) :
    g.IsRectangular := by
  by_cases hlength : values.length = f.height
  · cases written hf name hlength with
    | replaced _ hwith =>
      cases hwith.symm.trans h
      exact hf.setColumn _ _
    | added _ hwith =>
      cases hwith.symm.trans h
      exact hf.addColumn _ _
  · cases (withColumn_of_height_ne hlength).symm.trans h

theorem IsRectangular.of_withoutColumn (hf : f.IsRectangular) (h : f.withoutColumn name = .ok g) :
    g.IsRectangular := by
  cases f.named hf name with
  | absent _ _ hwithout =>
    cases hwithout.symm.trans h
    exact hf
  | found _ _ hwithout =>
    cases hwithout.symm.trans h
    exact hf.eraseColumn _

/-! ### Frames side by side -/

variable {frames : List Frame}

/-- The height that frames side by side must have: that of the first. -/
def leadingHeight (frames : List Frame) : Nat :=
  (frames.head?.map Frame.height).getD 0

/-- Frames of a common height side by side. -/
def joined (frames : List Frame) : Frame :=
  ⟨frames.flatMap Frame.columns, (List.range (leadingHeight frames)).map fun number ↦
    frames.flatMap fun f ↦ f.rows.getD number []⟩

/-- What putting frames side by side comes to. -/
inductive Concatenated (frames : List Frame) : Prop
  | uneven {other : Frame} (hfind : frames.find? (·.height ≠ leadingHeight frames) = some other)
      (hconcat : concat frames = .error (.unequalHeights (leadingHeight frames) other.height))
  | even (heven : ∀ f ∈ frames, f.height = leadingHeight frames)
      (hconcat : concat frames = .ok (joined frames))

theorem concatenated (frames : List Frame) : Concatenated frames := by
  cases hfind : frames.find? (·.height ≠ leadingHeight frames) with
  | some other =>
    refine .uneven hfind ?_
    unfold leadingHeight at hfind ⊢
    rw [concat, hfind]
  | none =>
    refine .even (fun f hf ↦ by simpa using List.find?_eq_none.mp hfind f hf) ?_
    unfold leadingHeight at hfind
    rw [concat, hfind]
    rfl

theorem isRectangular_joined (hframes : ∀ f ∈ frames, f.IsRectangular)
    (heven : ∀ f ∈ frames, f.height = leadingHeight frames) : (joined frames).IsRectangular := by
  intro row hrow
  obtain ⟨number, hnumber, rfl⟩ := List.mem_map.mp hrow
  change (frames.flatMap _).length = (frames.flatMap Frame.columns).length
  rw [List.length_flatMap, List.length_flatMap]
  refine congrArg List.sum (List.map_congr_left fun f hf ↦ ?_)
  have hlt : number < f.rows.length := by
    rw [List.mem_range, ← heven f hf] at hnumber
    exact hnumber
  rw [List.getD_eq_getElem _ _ hlt]
  exact hframes f hf _ (List.getElem_mem hlt)

theorem isRectangular_of_concat (hframes : ∀ f ∈ frames, f.IsRectangular)
    (h : concat frames = .ok g) : g.IsRectangular := by
  cases concatenated frames with
  | uneven _ hconcat => cases hconcat.symm.trans h
  | even heven hconcat =>
    cases hconcat.symm.trans h
    exact isRectangular_joined hframes heven

theorem namesAcross_of_uneven {height : Nat} {other : Frame}
    (hfind : frames.find? (·.height ≠ height) = some other) :
    namesAcross height frames = .error (.error (.unequalHeights height other.height)) := by
  induction frames with
  | nil => cases hfind
  | cons f rest ih =>
    rw [namesAcross]
    by_cases hheight : f.height = height
    · rw [List.find?_cons_of_neg (by simpa using hheight)] at hfind
      rw [if_pos hheight, ih hfind]
      rfl
    · rw [List.find?_cons_of_pos (by simpa using hheight)] at hfind
      cases hfind
      exact if_neg hheight

theorem namesAcross_of_even {height : Nat} (heven : ∀ f ∈ frames, f.height = height) :
    namesAcross height frames = .ok (frames.flatMap Frame.columns) := by
  induction frames with
  | nil => rfl
  | cons f rest ih =>
    rw [namesAcross, if_pos (heven f List.mem_cons_self),
      ih fun other hother ↦ heven other (List.mem_cons_of_mem _ hother)]
    rfl

theorem rowAcross_eq_ok {number : Nat} (h : ∀ f ∈ frames, number < f.height) :
    rowAcross number frames = .ok (frames.flatMap fun f ↦ f.rows.getD number []) := by
  induction frames with
  | nil => rfl
  | cons f rest ih =>
    have hlt : number < f.rows.length := h f List.mem_cons_self
    rw [rowAcross, List.getElem?_eq_getElem hlt,
      ih fun other hother ↦ h other (List.mem_cons_of_mem _ hother), List.flatMap_cons,
      List.getD_eq_getElem _ _ hlt]
    rfl

/-- Reading frames row by row, side by side, meets every row it asks for. -/
theorem assemble_eq_lift (frames : List Frame) : assemble frames = Halt.lift (concat frames) := by
  change (do
    let columns ← namesAcross (leadingHeight frames) frames
    let rows ← (List.range (leadingHeight frames)).mapM (rowAcross · frames)
    return (⟨columns, rows⟩ : Frame)) = _
  cases concatenated frames with
  | uneven hfind hconcat =>
    rw [namesAcross_of_uneven hfind, hconcat]
    rfl
  | even heven hconcat =>
    have hrows : (List.range (leadingHeight frames)).mapM (rowAcross · frames) =
        .ok (joined frames).rows :=
      mapM_eq_pure fun number hnumber ↦ rowAcross_eq_ok fun f hf ↦ by
        rw [heven f hf]
        exact List.mem_range.mp hnumber
    rw [namesAcross_of_even heven, hrows, hconcat]
    rfl

/-! ### Frames that are made -/

/-- The frames that can be made by calls, also by calls that are refused. A row is pushed onto the
frame at hand; all other calls take frames and give a new one. -/
inductive Made : Frame → Prop
  | empty (columns : List String) : Made (empty columns)
  | ofRows {columns : List String} {rows : List (List Json)} {f : Frame}
    (h : ofRows columns rows = .ok f) : Made f
  | push {f : Frame} (hf : Made f) (row : List Json) : Made ((push row).run f).2
  | withColumn {f g : Frame} (hf : Made f) {name : String} {values : List Json}
    (h : f.withColumn name values = .ok g) : Made g
  | withoutColumn {f g : Frame} (hf : Made f) {name : String} (h : f.withoutColumn name = .ok g) :
    Made g
  | takeRows {f : Frame} (hf : Made f) (positions : List Nat) : Made (f.takeRows positions)
  | concat {frames : List Frame} {g : Frame} (hframes : ∀ f ∈ frames, Made f)
    (h : concat frames = .ok g) : Made g

theorem Made.isRectangular (h : f.Made) : f.IsRectangular := by
  induction h with
  | empty columns => exact isRectangular_empty columns
  | ofRows h => exact isRectangular_of_ofRows h
  | push _ row ih => exact ih.push row
  | withColumn _ h ih => exact ih.of_withColumn h
  | withoutColumn _ h ih => exact ih.of_withoutColumn h
  | takeRows _ positions ih => exact ih.takeRows positions
  | concat _ h ih => exact isRectangular_of_concat ih h

/-- A frame that is made by calls is rectangular, and no call on it crashes. A row is refused
exactly if its width is not that of the frame, which then stays as it was; a column exactly if its
height is not. Writing a column gives the name the cells it is given, keeps the height, and leaves
every column at another position alone; it goes where the first column of the name stands, or to the
end. Taking a column away removes the first of its name and keeps the others, in order. -/
theorem Made.stays_rectangular (h : f.Made) :
    f.IsRectangular ∧
    (∀ row, (Frame.push row).run f =
      if row.length = f.columns.length then (.ok (), { f with rows := f.rows ++ [row] })
      else (.error (.rowWidth row.length f.columns.length), f)) ∧
    (∀ name, ∃ cells, f.column? name = .ok cells) ∧
    (∀ name values, values.length ≠ f.height →
      f.withColumn name values = .error (.error (.columnHeight name values.length f.height))) ∧
    (∀ name values, values.length = f.height → ∃ g index, f.withColumn name values = .ok g ∧
      (f.FirstAt name index ∨ name ∉ f.columns ∧ index = f.columns.length) ∧
      g.column? name = .ok (some values) ∧ g.height = f.height ∧
      ∀ k, k ≠ index → g.listed[k]? = f.listed[k]?) ∧
    (∀ name, name ∈ f.columns → ∃ g index, f.withoutColumn name = .ok g ∧ f.FirstAt name index ∧
      g.height = f.height ∧ g.listed = f.listed.eraseIdx index) ∧
    (∀ name, name ∉ f.columns → f.withoutColumn name = .ok f) ∧
    ∀ frames, assemble frames = Halt.lift (Frame.concat frames) := by
  have hf := h.isRectangular
  refine ⟨hf, fun row ↦ run_push row f, fun name ↦ ?_,
    fun name values ↦ withColumn_of_height_ne, fun name values ↦ exists_withColumn hf name,
    fun name hname ↦ ?_, fun name hname ↦ ?_, assemble_eq_lift⟩
  · cases f.named hf name with
    | absent _ hcolumn _ => exact ⟨none, hcolumn⟩
    | @found index _ hcolumn _ => exact ⟨some (f.cells index), hcolumn⟩
  · cases f.named hf name with
    | absent hnone _ _ => exact absurd hname hnone
    | @found index hfirst _ hwithout =>
      exact ⟨f.eraseColumn index, index, hwithout, hfirst, f.height_eraseColumn index,
        f.listed_eraseColumn index⟩
  · cases f.named hf name with
    | absent _ _ hwithout => exact hwithout
    | found hfirst _ _ => exact absurd (List.mem_of_getElem? hfirst.here) hname

/-- A frame with two columns of one name, onto which a row that is too short was pushed in vain. -/
theorem Made.stays_rectangular_repeated :
    let start : Frame := ⟨["a", "b", "a"], [[.int 1, .int 2, .int 3]]⟩
    let f := ((Frame.push [.int 4]).run start).2
    f.Made ∧ f.IsRectangular ∧ f = start ∧
      (∃ g index, f.withColumn "a" [.int 5] = .ok g ∧ f.FirstAt "a" index ∧
        g.column? "a" = .ok (some [.int 5]) ∧ ∀ k, k ≠ index → g.listed[k]? = f.listed[k]?) ∧
      f.withColumn "b" [] = .error (.error (.columnHeight "b" 0 1)) := by
  intro start f
  have hstart : start.Made := .ofRows (rfl : Frame.ofRows start.columns start.rows = .ok start)
  obtain ⟨hf, -, -, hrefused, hwritten, -⟩ := Made.stays_rectangular (hstart.push [.int 4])
  obtain ⟨g, index, hwith, hplace, hcolumn, -, hothers⟩ := hwritten "a" [.int 5] rfl
  refine ⟨hstart.push [.int 4], hf, rfl, ⟨g, index, hwith, ?_, hcolumn, hothers⟩,
    hrefused "b" [] (by decide)⟩
  exact hplace.resolve_right fun hnone ↦ hnone.1 (by decide)

end Dataflow.Frame
