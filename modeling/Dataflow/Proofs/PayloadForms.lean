import Dataflow.Proofs.Labels

/-!
# Payloads read back from JSON

A path leads through nested tuples to a part of a payload (`Payload.part?`), and in the same way to
a part of its form (`Payload.partForm?`), and what stands there in the form is the form of the part
(`Payload.partForm?_toJson`). In particular a number that is not finite is a `null` there, at any
depth.

A payload is read back from its form if all numbers in it are finite (`Payload.read?_of_allFinite`),
and otherwise nothing is read (`Payload.read?_eq_none`): one part that cannot be read is enough
for that. The widths of the rows of a frame have no part in it.
-/

set_option autoImplicit false
set_option relaxedAutoImplicit false

namespace Dataflow

/-! ### Going through a list -/

/-- Where one step gives nothing, neither does going through the list. -/
theorem mapM_eq_none_of_mem {α β : Type} {step : α → Option β} {l : List α} {a : α} (ha : a ∈ l)
    (h : step a = none) : l.mapM step = none := by
  induction l with
  | nil => exact absurd ha List.not_mem_nil
  | cons first rest ih =>
    rw [List.mapM_cons]
    rcases List.mem_cons.mp ha with rfl | ha
    · rw [h]
      rfl
    · rw [ih ha]
      cases step first <;> rfl

/-- An item lies no deeper than the items together. -/
theorem Json.depth_le_depthItems {items : List Json} {item : Json} (h : item ∈ items) :
    item.depth ≤ depthItems items := by
  induction items with
  | nil => exact absurd h List.not_mem_nil
  | cons first rest ih =>
    rw [depthItems]
    rcases List.mem_cons.mp h with rfl | h
    · exact Nat.le_max_left _ _
    · exact Nat.le_trans (ih h) (Nat.le_max_right _ _)

/-! ### Frames -/

/-- A frame is read back from its form, whatever the widths of its rows. -/
theorem Frame.ofJson?_toJson (f : Frame) : Frame.ofJson? f.toJson = some f := by
  have hcolumns : (f.columns.map Json.text).mapM Json.text? = some f.columns := by
    rw [List.mapM_map]
    exact (mapM_eq_pure fun _ _ ↦ rfl).trans (congrArg some (List.map_id _))
  have hrows : (f.rows.map Json.list).mapM Json.items? = some f.rows := by
    rw [List.mapM_map]
    exact (mapM_eq_pure fun _ _ ↦ rfl).trans (congrArg some (List.map_id _))
  have hread : Frame.ofJson? f.toJson = do
      let columns ← (f.columns.map Json.text).mapM Json.text?
      let rows ← (f.rows.map Json.list).mapM Json.items?
      return ⟨columns, rows⟩ := rfl
  rw [hread, hcolumns, hrows]
  rfl

namespace Payload

/-! ### Parts of a payload -/

/-- To prove a fact of every payload, prove it of those that are no tuples, and of a tuple from its
parts. -/
@[elab_as_elim]
theorem induction {motive : Payload → Prop} (frame : ∀ f, motive (.frame f))
    (column : ∀ cells, motive (.column cells)) (scalar : ∀ x, motive (.scalar x))
    (tuple : ∀ parts, (∀ part ∈ parts, motive part) → motive (.tuple parts))
    (unit : motive .unit) (p : Payload) : motive p := by
  refine @Payload.rec motive (fun parts ↦ ∀ part ∈ parts, motive part)
    frame column scalar tuple unit ?_ ?_ p
  · simp
  · intro head tail hhead htail part hpart
    rcases List.mem_cons.mp hpart with rfl | hpart
    · exact hhead
    · exact htail part hpart

/-- The part of a payload at the end of a path, which gives a place in each of the tuples on the
way. -/
def part? : List Nat → Payload → Option Payload
  | [], p => some p
  | place :: path, .tuple parts => parts[place]?.bind (part? path)
  | _ :: _, _ => none

/-- What stands in a form at the end of a path. -/
def partForm? : List Nat → Json → Option Json
  | [], j => some j
  | place :: path, j => do
    let parts ← (← j.member? "data").items?
    partForm? path (← parts[place]?)

/-- All numbers in a payload are finite, at any depth. -/
def AllFinite (p : Payload) : Prop :=
  ∀ path x, p.part? path = some (.scalar x) → x.isFinite = true

theorem partsToJson_eq_map (parts : List Payload) : partsToJson parts = parts.map toJson := by
  induction parts with
  | nil => rfl
  | cons part rest ih => rw [partsToJson, ih, List.map_cons]

/-- What stands at a path in the form of a payload is the form of the part there. -/
theorem partForm?_toJson {path : List Nat} {p part : Payload} (h : p.part? path = some part) :
    partForm? path p.toJson = some part.toJson := by
  induction path generalizing p with
  | nil =>
    obtain rfl := Option.some.inj h
    rfl
  | cons place path ih =>
    cases p with
    | tuple parts =>
      obtain ⟨inner, hinner, hpart⟩ := Option.bind_eq_some_iff.mp h
      have hform : partForm? (place :: path) (tuple parts).toJson =
          (partsToJson parts)[place]?.bind (partForm? path) := rfl
      rw [hform, partsToJson_eq_map, List.getElem?_map, hinner]
      exact ih hpart
    | _ => exact absurd h nofun

@[simp] theorem allFinite_frame (f : Frame) : (frame f).AllFinite := by
  rintro (_ | _) x hx <;> exact absurd hx nofun

@[simp] theorem allFinite_column (cells : List Json) : (column cells).AllFinite := by
  rintro (_ | _) x hx <;> exact absurd hx nofun

@[simp] theorem allFinite_unit : AllFinite unit := by
  rintro (_ | _) x hx <;> exact absurd hx nofun

@[simp] theorem allFinite_scalar_iff {x : Float} : (scalar x).AllFinite ↔ x.isFinite = true := by
  refine ⟨fun h ↦ h [] x rfl, fun hx path y hy ↦ ?_⟩
  cases path with
  | nil =>
    obtain rfl := Payload.scalar.inj (Option.some.inj hy)
    exact hx
  | cons place path => exact absurd hy nofun

@[simp] theorem allFinite_tuple_iff {parts : List Payload} :
    (tuple parts).AllFinite ↔ ∀ part ∈ parts, part.AllFinite := by
  constructor
  · intro h part hpart path x hx
    obtain ⟨place, hplace⟩ := List.mem_iff_getElem?.mp hpart
    exact h (place :: path) x (by rw [part?, hplace, Option.bind_some, hx])
  · intro h path x hx
    cases path with
    | nil => exact absurd hx nofun
    | cons place path =>
      obtain ⟨part, hpart, hx⟩ := Option.bind_eq_some_iff.mp hx
      exact h part (List.mem_of_getElem? hpart) path x hx

/-! ### Reading forms -/

theorem read?_frame (nested : Bool) (fuel : Nat) (f : Frame) :
    read? nested (fuel + 1) (frame f).toJson = some (.frame f) := by
  have hread : read? nested (fuel + 1) (frame f).toJson =
      (Frame.ofJson? f.toJson).map .frame := rfl
  rw [hread, Frame.ofJson?_toJson, Option.map_some]

theorem read?_scalar (nested : Bool) (fuel : Nat) (x : Float) :
    read? nested (fuel + 1) (scalar x).toJson =
      if x.isFinite then some (.scalar x) else none := by
  have hread : read? nested (fuel + 1) (scalar x).toJson =
      (Json.ofFloat x).number?.map .scalar := rfl
  rw [hread, Json.ofFloat]
  split <;> rfl

theorem read?_tuple (nested : Bool) (fuel : Nat) (parts : List Payload) :
    read? nested (fuel + 1) (tuple parts).toJson =
      (parts.mapM fun part ↦ read? true fuel part.toJson).map .tuple := by
  have hread : read? nested (fuel + 1) (tuple parts).toJson = do
      return .tuple (← (partsToJson parts).mapM (read? true fuel)) := rfl
  rw [hread, partsToJson_eq_map, List.mapM_map, bind_pure_comp]
  rfl

/-- A part lies less deep than the tuple. -/
theorem depth_lt_of_mem {parts : List Payload} {part : Payload} (h : part ∈ parts) :
    part.toJson.depth < (tuple parts).toJson.depth := by
  have hdepth : (tuple parts).toJson.depth = Json.depthItems (partsToJson parts) + 2 := rfl
  have hpart : part.toJson.depth ≤ Json.depthItems (partsToJson parts) := by
    rw [partsToJson_eq_map]
    exact Json.depth_le_depthItems (List.mem_map_of_mem h)
  omega

/-- A payload of finite numbers is read back from its form. -/
theorem read?_of_allFinite {p : Payload} (hp : p.AllFinite) :
    ∀ nested fuel, p.toJson.depth ≤ fuel → read? nested (fuel + 1) p.toJson = some p := by
  induction p using Payload.induction with
  | frame f => exact fun nested fuel _ ↦ read?_frame nested fuel f
  | column cells => exact fun _ _ _ ↦ rfl
  | scalar x =>
    intro nested fuel _
    rw [read?_scalar, if_pos (allFinite_scalar_iff.mp hp)]
  | tuple parts ih =>
    intro nested fuel hfuel
    have hparts : (parts.mapM fun part ↦ read? true fuel part.toJson) = some parts := by
      refine (mapM_eq_pure fun part hpart ↦ ?_).trans (congrArg some (List.map_id _))
      have hdepth : part.toJson.depth < fuel := Nat.lt_of_lt_of_le (depth_lt_of_mem hpart) hfuel
      obtain ⟨fuel', rfl⟩ := Nat.exists_eq_add_one_of_ne_zero (Nat.ne_zero_of_lt hdepth)
      exact ih part hpart (allFinite_tuple_iff.mp hp part hpart) true fuel'
        (Nat.le_of_lt_succ hdepth)
    rw [read?_tuple, hparts, Option.map_some]
  | unit => exact fun _ _ _ ↦ rfl

/-- Nothing is read from the form of a payload with a number that is not finite. -/
theorem read?_eq_none {path : List Nat} {p : Payload} {x : Float}
    (h : p.part? path = some (.scalar x)) (hx : x.isFinite = false) (nested : Bool) (fuel : Nat) :
    read? nested fuel p.toJson = none := by
  induction path generalizing p nested fuel with
  | nil =>
    obtain rfl := Option.some.inj h
    cases fuel with
    | zero => rfl
    | succ fuel => rw [read?_scalar, hx, if_neg Bool.false_ne_true]
  | cons place path ih =>
    cases p with
    | tuple parts =>
      obtain ⟨part, hplace, hpart⟩ := Option.bind_eq_some_iff.mp h
      cases fuel with
      | zero => rfl
      | succ fuel =>
        rw [read?_tuple, mapM_eq_none_of_mem (List.mem_of_getElem? hplace) (ih hpart true fuel),
          Option.map_none]
    | _ => exact absurd h nofun

/-- A payload is read back from its form exactly if all numbers in it are finite, however deep its
tuples nest and whatever the widths of the rows of its frames are. A number that is not finite is
written as `null` where it stands, and then nothing is read. -/
theorem reads_back_iff_finite (p : Payload) :
    (ofJson? p.toJson = some p ↔ p.AllFinite) ∧
      ∀ path x, p.part? path = some (.scalar x) → x.isFinite = false →
        partForm? path p.toJson = some (tagged "scalar" .null) ∧ ofJson? p.toJson = none := by
  refine ⟨⟨fun h path x hx ↦ ?_, fun hp ↦ read?_of_allFinite hp false _ (Nat.le_refl _)⟩, ?_⟩
  · by_contra hfinite
    have hnone := read?_eq_none hx (Bool.not_eq_true _ ▸ hfinite) false (p.toJson.depth + 1)
    exact absurd (h.symm.trans hnone) nofun
  · intro path x hx hfinite
    refine ⟨?_, read?_eq_none hx hfinite false _⟩
    rw [partForm?_toJson hx, toJson, Json.ofFloat, hfinite, if_neg Bool.false_ne_true]

/-- A row too short and one too long, beside what a tuple within a tuple holds. -/
def bundle (x : Float) : Payload :=
  .tuple [.frame ⟨["a", "a"], [[.int 1], [.null, .text "b", .float 0.5]]⟩, .unit,
    .tuple [.column [.object []], .scalar x]]

theorem reads_back_iff_finite_bundle :
    ofJson? (bundle 1.5).toJson = some (bundle 1.5) ∧
      partForm? [2, 1] (bundle (0 / 0)).toJson = some (tagged "scalar" .null) ∧
      ofJson? (bundle (0 / 0)).toJson = none := by
  have hfinite : (bundle 1.5).AllFinite := by
    have hnumber : (1.5 : Float).isFinite = true := by decide +kernel
    simp [bundle, hnumber]
  exact ⟨(reads_back_iff_finite _).1.mpr hfinite,
    (reads_back_iff_finite (bundle (0 / 0))).2 [2, 1] _ rfl (by decide +kernel)⟩

end Payload

end Dataflow
