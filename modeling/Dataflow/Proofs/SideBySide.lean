import Dataflow.Proofs.Rectangles

/-!
# Frames side by side

Frames of one height can be put side by side, and only those (`Frame.concat_eq_ok_iff`). Nothing of
them is lost in the frame that results (`Frame.SideBySide`): it has the columns of all of them in
order, each of its rows is made of their rows of the same number, and so each of them is found again
in the range of its columns (`Frame.columnRange_joined`).

It does not matter in which groups frames are put together, as long as no group is empty
(`Frame.mapM_concat_bind`): an empty group has no rows, whatever the height of the others is. The
actor that joins branches does the same with the frames at its inputs (`Builtin.apply_concat`).
-/

set_option autoImplicit false
set_option relaxedAutoImplicit false

namespace Dataflow

namespace Frame

variable {f g : Frame} {frames : List Frame} {groups : List (List Frame)}

/-! ### Which frames go together -/

theorem concat_eq_ok_iff :
    concat frames = .ok g ↔
      (∀ f ∈ frames, f.height = leadingHeight frames) ∧ joined frames = g := by
  cases concatenated frames with
  | uneven hfind hconcat =>
    refine iff_of_false (fun h ↦ ?_) fun h ↦ ?_
    · cases hconcat.symm.trans h
    · have hother := List.find?_some hfind
      simp [h.1 _ (List.mem_of_find?_eq_some hfind)] at hother
  | even heven hconcat =>
    rw [hconcat, Except.ok.injEq]
    exact (and_iff_right heven).symm

/-- Frames have the height of the first of them exactly if they have all the same height. -/
theorem even_iff :
    (∀ f ∈ frames, f.height = leadingHeight frames) ↔
      ∀ f ∈ frames, ∀ other ∈ frames, f.height = other.height := by
  refine ⟨fun h f hf other hother ↦ (h f hf).trans (h other hother).symm, fun h ↦ ?_⟩
  cases frames with
  | nil => exact fun f hf ↦ absurd hf List.not_mem_nil
  | cons first rest => exact fun f hf ↦ h f hf first List.mem_cons_self

/-! ### What is found in them again -/

/-- The columns of a frame from a position on, as many as there are in a width. -/
def columnRange (f : Frame) (start width : Nat) : Frame :=
  ⟨(f.columns.drop start).take width, f.rows.map fun row ↦ (row.drop start).take width⟩

/-- One frame is made of others side by side. -/
structure SideBySide (frames : List Frame) (g : Frame) : Prop where
  columns_eq : g.columns = frames.flatMap Frame.columns
  height_eq : g.height = leadingHeight frames
  even : ∀ f ∈ frames, f.height = g.height
  row : ∀ number < g.height, ∃ parts, frames.mapM (·.rows[number]?) = some parts ∧
    g.rows[number]? = some parts.flatten
  readBack : ∀ (place : Nat) (f : Frame), frames[place]? = some f →
    g.columnRange ((frames.take place).flatMap Frame.columns).length f.columns.length = f

theorem height_joined (frames : List Frame) : (joined frames).height = leadingHeight frames := by
  change ((List.range _).map _).length = _
  rw [List.length_map, List.length_range]

theorem getElem?_joined {number : Nat} (h : number < leadingHeight frames) :
    (joined frames).rows[number]? = some (frames.flatMap fun f ↦ f.rows.getD number []) := by
  change ((List.range _).map _)[number]? = _
  rw [List.getElem?_map, List.getElem?_range h, Option.map_some]

/-- Pieces laid end to end: a piece is found again behind those in front of it. -/
theorem take_drop_flatMap {α β : Type} (piece : α → List β) (front back : List α) (a : α) :
    (((front ++ a :: back).flatMap piece).drop (front.flatMap piece).length).take
      (piece a).length = piece a := by
  rw [List.flatMap_append, List.flatMap_cons, List.drop_left, List.take_left]

/-- Rows of rectangular frames are as wide as the columns of these. -/
theorem length_flatMap_rows (hframes : ∀ f ∈ frames, f.IsRectangular) {number : Nat}
    (hnumber : ∀ f ∈ frames, number < f.height) :
    (frames.flatMap fun f ↦ f.rows.getD number []).length =
      (frames.flatMap Frame.columns).length := by
  rw [List.length_flatMap, List.length_flatMap]
  refine congrArg List.sum (List.map_congr_left fun f hf ↦ ?_)
  have hlt : number < f.rows.length := hnumber f hf
  rw [List.getD_eq_getElem _ _ hlt]
  exact hframes f hf _ (List.getElem_mem hlt)

theorem columnRange_joined {front back : List Frame}
    (hframes : ∀ other ∈ front ++ f :: back, other.IsRectangular)
    (heven : ∀ other ∈ front ++ f :: back, other.height = leadingHeight (front ++ f :: back)) :
    (joined (front ++ f :: back)).columnRange (front.flatMap Frame.columns).length
      f.columns.length = f := by
  have hhere : f ∈ front ++ f :: back := List.mem_append_right _ List.mem_cons_self
  refine congrArg₂ Frame.mk (take_drop_flatMap Frame.columns front back f)
    (List.ext_getElem? fun number ↦ ?_)
  rw [List.getElem?_map]
  by_cases hnumber : number < leadingHeight (front ++ f :: back)
  · have hrow : ∀ other ∈ front ++ f :: back, number < other.height := fun other hother ↦ by
      rw [heven other hother]
      exact hnumber
    have hlt : number < f.rows.length := hrow f hhere
    have hstart := length_flatMap_rows
      (fun other hother ↦ hframes other (List.mem_append_left _ hother))
      fun other hother ↦ hrow other (List.mem_append_left _ hother)
    have hwidth : (f.rows.getD number []).length = f.columns.length := by
      rw [List.getD_eq_getElem _ _ hlt]
      exact hframes f hhere _ (List.getElem_mem hlt)
    rw [getElem?_joined hnumber, Option.map_some, ← hstart, ← hwidth,
      take_drop_flatMap (fun f : Frame ↦ f.rows.getD number []), List.getElem?_eq_getElem hlt,
      List.getD_eq_getElem _ _ hlt]
  · have hheight : (joined (front ++ f :: back)).rows.length ≤ number :=
      Nat.le_trans (Nat.le_of_eq (height_joined _)) (Nat.le_of_not_lt hnumber)
    have hshort : f.rows.length ≤ number :=
      Nat.le_trans (Nat.le_of_eq (heven f hhere)) (Nat.le_of_not_lt hnumber)
    rw [List.getElem?_eq_none hheight, List.getElem?_eq_none hshort, Option.map_none]

theorem sideBySide_joined (hframes : ∀ f ∈ frames, f.IsRectangular)
    (heven : ∀ f ∈ frames, f.height = leadingHeight frames) :
    SideBySide frames (joined frames) where
  columns_eq := rfl
  height_eq := height_joined frames
  even f hf := (heven f hf).trans (height_joined frames).symm
  row number hnumber := by
    rw [height_joined] at hnumber
    refine ⟨frames.map fun f ↦ f.rows.getD number [], ?_, ?_⟩
    · refine mapM_eq_pure fun f hf ↦ ?_
      have hlt : number < f.height := by
        rw [heven f hf]
        exact hnumber
      rw [List.getElem?_eq_getElem hlt, List.getD_eq_getElem _ _ hlt]
      rfl
    · rw [getElem?_joined hnumber, List.flatMap_def]
  readBack place f hplace := by
    obtain ⟨hlt, rfl⟩ := List.getElem?_eq_some_iff.mp hplace
    have hsplit : frames.take place ++ frames[place] :: frames.drop (place + 1) = frames := by
      rw [← List.drop_eq_getElem_cons hlt, List.take_append_drop]
    have h := @columnRange_joined frames[place] (frames.take place) (frames.drop (place + 1))
    rw [hsplit] at h
    exact h hframes heven

/-! ### In groups -/

theorem leadingHeight_flatten (hgroups : ∀ group ∈ groups, group ≠ []) :
    leadingHeight (groups.map joined) = leadingHeight groups.flatten := by
  cases groups with
  | nil => rfl
  | cons group rest =>
    obtain ⟨first, others, rfl⟩ := List.exists_cons_of_ne_nil (hgroups group List.mem_cons_self)
    exact height_joined (first :: others)

theorem mapM_concat_eq_ok_iff {parts : List Frame} :
    groups.mapM concat = .ok parts ↔
      (∀ group ∈ groups, ∀ f ∈ group, f.height = leadingHeight group) ∧
        groups.map joined = parts := by
  simp only [mapM_eq_ok_iff, concat_eq_ok_iff]
  rw [List.forall₂_and_left, ← List.forall₂_map_left_iff, List.forall₂_eq_eq_eq]

/-- Frames that go together in their groups go together at once, and the other way round. -/
theorem even_flatten_iff (hgroups : ∀ group ∈ groups, group ≠ []) :
    ((∀ group ∈ groups, ∀ f ∈ group, f.height = leadingHeight group) ∧
      ∀ part ∈ groups.map joined, part.height = leadingHeight (groups.map joined)) ↔
    ∀ f ∈ groups.flatten, f.height = leadingHeight groups.flatten := by
  simp only [List.forall_mem_map, height_joined, leadingHeight_flatten hgroups, List.mem_flatten]
  constructor
  · rintro ⟨hwithin, hbetween⟩ f ⟨group, hgroup, hf⟩
    exact (hwithin group hgroup f hf).trans (hbetween group hgroup)
  · intro h
    have hbetween : ∀ group ∈ groups, leadingHeight group = leadingHeight groups.flatten := by
      intro group hgroup
      obtain ⟨first, others, rfl⟩ := List.exists_cons_of_ne_nil (hgroups group hgroup)
      exact h first ⟨_, hgroup, List.mem_cons_self⟩
    exact ⟨fun group hgroup f hf ↦ (h f ⟨group, hgroup, hf⟩).trans (hbetween group hgroup).symm,
      hbetween⟩

theorem joined_map_joined (hgroups : ∀ group ∈ groups, group ≠ [])
    (hbetween : ∀ part ∈ groups.map joined, part.height = leadingHeight (groups.map joined)) :
    joined (groups.map joined) = joined groups.flatten := by
  have hregroup {β : Type} (piece : Frame → List β) :
      groups.flatten.flatMap piece = groups.flatMap fun group ↦ group.flatMap piece := by
    rw [← List.flatMap_id, List.flatMap_assoc]
    rfl
  simp only [List.forall_mem_map, height_joined, leadingHeight_flatten hgroups] at hbetween
  refine congrArg₂ Frame.mk ?_ ?_
  · rw [List.flatMap_map, hregroup]
    rfl
  · rw [leadingHeight_flatten hgroups]
    refine List.map_congr_left fun number hnumber ↦ ?_
    rw [List.flatMap_map, hregroup]
    refine List.flatMap_congr fun group hgroup ↦ ?_
    rw [List.mem_range, ← hbetween group hgroup] at hnumber
    rw [List.getD_eq_getElem?_getD, getElem?_joined hnumber, Option.getD_some]

/-- It does not matter in which groups frames are put side by side. -/
theorem mapM_concat_bind (hgroups : ∀ group ∈ groups, group ≠ []) :
    groups.mapM concat >>= concat = .ok g ↔ concat groups.flatten = .ok g := by
  have hbind : groups.mapM concat >>= concat = .ok g ↔
      ∃ parts, groups.mapM concat = .ok parts ∧ concat parts = .ok g := by
    cases groups.mapM concat <;> simp [bind, Except.bind]
  rw [hbind]
  simp only [mapM_concat_eq_ok_iff, concat_eq_ok_iff]
  constructor
  · rintro ⟨_, ⟨hwithin, rfl⟩, hbetween, rfl⟩
    exact ⟨(even_flatten_iff hgroups).mp ⟨hwithin, hbetween⟩,
      (joined_map_joined hgroups hbetween).symm⟩
  · rintro ⟨heven, rfl⟩
    obtain ⟨hwithin, hbetween⟩ := (even_flatten_iff hgroups).mpr heven
    exact ⟨_, ⟨hwithin, rfl⟩, hbetween, joined_map_joined hgroups hbetween⟩

/-! ### The actor that joins branches -/

theorem mapM_frameInput (frames : List Frame) :
    (List.range (frames.map Payload.frame).length).mapM (frameInput (frames.map Payload.frame)) =
      .ok frames := by
  have hread : (List.range (frames.map Payload.frame).length).mapM
      (frameInput (frames.map Payload.frame)) =
        .ok ((List.range (frames.map Payload.frame).length).map (frames.getD · ⟨[], []⟩)) :=
    mapM_eq_pure fun index hindex ↦ by
      rw [List.mem_range, List.length_map] at hindex
      rw [frameInput, inputAt, List.getElem?_map, List.getElem?_eq_getElem hindex,
        List.getD_eq_getElem _ _ hindex]
      rfl
  rw [hread, List.length_map]
  refine congrArg Except.ok (List.ext_getElem (by simp) fun index hindex hlt ↦ ?_)
  rw [List.getElem_map, List.getElem_range, List.getD_eq_getElem _ _ hlt]

variable {ε σ : Type} [Inhabited σ]

/-- The actor that joins branches puts the frames at its inputs side by side. -/
theorem apply_concat (frames : List Frame) (width : Nat) (fit : σ) (env : Environment ε) :
    (Builtin.concat width : Spec ε σ).behavior.apply (frames.map .frame) fit env =
      (Halt.mapError (fun e ↦ .invalidInput e.message) ((assemble frames).map .frame), env) := by
  change (Halt.lift (Builtin.concatFrames (frames.map .frame)), env) = _
  rw [Builtin.concatFrames, mapM_frameInput, assemble_eq_lift]
  simp only [bind, Except.bind]
  cases concat frames <;> rfl

/-- Rectangular frames can be put side by side exactly if they have all the same height. The frame
that results has their columns and their rows end to end, so that each of them is found in it again.
It is the same in whatever groups they are put together, as long as no group is empty. Neither
reading them row by row nor the actor that joins branches does anything else, or crashes. -/
theorem concat_sideBySide (frames : List Frame) (hframes : ∀ f ∈ frames, f.IsRectangular) :
    ((∃ g, concat frames = .ok g) ↔
      ∀ f ∈ frames, ∀ other ∈ frames, f.height = other.height) ∧
    (∀ g, concat frames = .ok g → SideBySide frames g) ∧
    (∀ groups : List (List Frame), groups.flatten = frames → (∀ group ∈ groups, group ≠ []) →
      ∀ g, groups.mapM concat >>= concat = .ok g ↔ concat frames = .ok g) ∧
    assemble frames = Halt.lift (concat frames) ∧
    ∀ (width : Nat) (fit : σ) (env : Environment ε),
      (Builtin.concat width : Spec ε σ).behavior.apply (frames.map .frame) fit env =
        (Halt.mapError (fun e ↦ .invalidInput e.message) ((assemble frames).map .frame), env) := by
  refine ⟨?_, fun g hg ↦ ?_, ?_, assemble_eq_lift frames, apply_concat frames⟩
  · rw [← even_iff]
    simp only [concat_eq_ok_iff, exists_and_left, exists_eq', and_true]
  · obtain ⟨heven, rfl⟩ := concat_eq_ok_iff.mp hg
    exact sideBySide_joined hframes heven
  · rintro groups rfl hgroups g
    exact mapM_concat_bind hgroups

/-- Of three frames one has no columns, and two have a column of one name. -/
theorem concat_sideBySide_nested :
    let first : Frame := ⟨["a"], [[.int 1], [.int 2]]⟩
    let bare : Frame := ⟨[], [[], []]⟩
    let last : Frame := ⟨["b", "a"], [[.int 3, .int 4], [.int 5, .int 6]]⟩
    (∀ f ∈ [first, bare, last], f.IsRectangular) ∧
      ∃ g, concat [first, bare, last] = .ok g ∧ SideBySide [first, bare, last] g ∧
        [[first], [bare, last]].mapM concat >>= concat = .ok g := by
  intro first bare last
  have hframes : ∀ f ∈ [first, bare, last], f.IsRectangular := by decide
  obtain ⟨hsucceeds, hfaithful, hregroup, -⟩ :=
    concat_sideBySide (ε := Unit) (σ := Unit) [first, bare, last] hframes
  obtain ⟨g, hg⟩ := hsucceeds.mpr (by decide)
  exact ⟨hframes, g, hg, hfaithful g hg,
    (hregroup [[first], [bare, last]] rfl (by simp) g).mpr hg⟩

end Frame

end Dataflow
