import Dataflow.Evaluation
import Dataflow.Proofs.FloatCounts

/-!
# Accuracy over probabilities

The most probable class of a row is found in one pass over its named cells, which holds the first
cell with the greatest number seen so far (`Metric.Leads`). One more cell keeps this, be it no
number (`Leads.skip`) or one (`Leads.step`), and so does the whole row (`leads_foldl`): numbers
compare, so of two one is at most the other, and what is at most a lesser number is at most a
greater one.

So a frame of class probabilities scores as the column that names the most probable class of each
row (`Metric.accuracy_frame_eq_column`), although the one is compared by the class and the other by
the key of a cell.
-/

set_option autoImplicit false
set_option relaxedAutoImplicit false

namespace Dataflow.Metric

open FloatOrder FloatRounding

/-! ### The greatest number of a row -/

/-- The number at a place of a row, if there is a cell and it is a number. -/
def numberAt (row : List Json) (place : ℕ) : Option Float :=
  row[place]?.bind Json.number?

/-- A name is the first of the classes whose number is the greatest in a row. -/
def FirstGreatest (classes : List String) (row : List Json) (name : String) : Prop :=
  ∃ place x, classes[place]? = some name ∧ numberAt row place = some x ∧
    (∀ other < classes.length, ∀ y ∈ numberAt row other, y ≤ x) ∧
    ∀ earlier < place, ∀ y ∈ numberAt row earlier, ¬ x ≤ y

theorem FirstGreatest.unique {classes : List String} {row : List Json} {name name' : String}
    (h : FirstGreatest classes row name) (h' : FirstGreatest classes row name') : name = name' := by
  obtain ⟨place, x, hname, hx, hgreatest, hfirst⟩ := h
  obtain ⟨place', x', hname', hx', hgreatest', hfirst'⟩ := h'
  obtain ⟨hlt, -⟩ := List.getElem?_eq_some_iff.mp hname
  obtain ⟨hlt', -⟩ := List.getElem?_eq_some_iff.mp hname'
  rcases Nat.lt_trichotomy place place' with hp | rfl | hp
  · exact absurd (hgreatest place' hlt' x' hx') (hfirst' place hp x hx)
  · exact Option.some.inj (hname.symm.trans hname')
  · exact absurd (hgreatest' place hlt x hx) (hfirst place' hp x' hx')

/-- The numbers among named cells compare. -/
def Comparable (cells : List (String × Json)) : Prop :=
  ∀ p ∈ cells, ∀ x, p.2.number? = some x → IsNumber x

theorem comparable_of_floats (classes : List String) {row : List Json}
    (h : ∀ x, Json.float x ∈ row → x.isNaN = false) : Comparable (classes.zip row) := by
  rintro ⟨name, cell⟩ hp x hx
  have hcell : cell ∈ row := (List.of_mem_zip hp).2
  cases cell with
  | int n =>
    obtain rfl : Float.ofInt n = x := Option.some.inj hx
    exact isNumber_ofInt n
  | float y =>
    obtain rfl : y = x := Option.some.inj hx
    exact h y hcell
  | _ => exact absurd hx nofun

/-! ### The fold -/

/-- What the fold holds after some named cells: nothing as long as no cell was a number, then the
first cell with the greatest number. -/
inductive Leads (seen : List (String × Json)) : Option (String × Float) → Prop
  | nobody (h : ∀ p ∈ seen, p.2.number? = none) : Leads seen none
  | leader (before after : List (String × Json)) (name : String) (cell : Json) (x : Float)
    (hsplit : seen = before ++ (name, cell) :: after) (hx : cell.number? = some x)
    (hbefore : ∀ p ∈ before, ∀ y, p.2.number? = some y → ¬ x ≤ y)
    (hafter : ∀ p ∈ after, ∀ y, p.2.number? = some y → y ≤ x) : Leads seen (some (name, x))

theorem Leads.skip {seen : List (String × Json)} {best : Option (String × Float)}
    (h : Leads seen best) {p : String × Json} (hp : p.2.number? = none) :
    Leads (seen ++ [p]) best := by
  cases h with
  | nobody h =>
    refine .nobody fun q hq ↦ ?_
    rcases List.mem_append.mp hq with hq | hq
    · exact h q hq
    · rw [List.mem_singleton.mp hq, hp]
  | leader before after name cell x hsplit hx hbefore hafter =>
    refine .leader before (after ++ [p]) name cell x (by simp [hsplit]) hx hbefore ?_
    intro q hq y hy
    rcases List.mem_append.mp hq with hq | hq
    · exact hafter q hq y hy
    · rw [List.mem_singleton.mp hq, hp] at hy
      exact absurd hy nofun

/-- No number seen so far is greater than the one that leads. -/
theorem Leads.greatest {seen : List (String × Json)} {name : String} {x : Float}
    (h : Leads seen (some (name, x))) (hseen : Comparable seen) :
    IsNumber x ∧ ∀ p ∈ seen, ∀ y, p.2.number? = some y → y ≤ x := by
  cases h with
  | leader before after name cell x hsplit hx hbefore hafter =>
    have hnumber : IsNumber x := hseen (name, cell) (by simp [hsplit]) x hx
    refine ⟨hnumber, ?_⟩
    intro p hp y hy
    have hy' : IsNumber y := hseen p hp y hy
    rw [hsplit] at hp
    rcases List.mem_append.mp hp with hp | hp
    · exact (hnumber.le_total hy').resolve_left (hbefore p hp y hy)
    · rcases List.mem_cons.mp hp with rfl | hp
      · obtain rfl : x = y := Option.some.inj (hx.symm.trans hy)
        exact (hnumber.le_total hnumber).elim id id
      · exact hafter p hp y hy

/-- One more number: it leads if it is greater than the one that led. -/
theorem Leads.step {seen : List (String × Json)} {best : Option (String × Float)}
    (h : Leads seen best) {name : String} {cell : Json} {x : Float} (hx : cell.number? = some x)
    (hseen : Comparable (seen ++ [(name, cell)])) :
    Leads (seen ++ [(name, cell)]) (better best (name, x)) := by
  have hold : Comparable seen := fun p hp ↦ hseen p (List.mem_append_left _ hp)
  have hnumber : IsNumber x := hseen (name, cell) (by simp) x hx
  cases h with
  | nobody h =>
    exact .leader seen [] name cell x rfl hx (fun p hp y hy ↦ by simp [h p hp] at hy) nofun
  | leader before after champion held top hsplit htop hbefore hafter =>
    have hleads : Leads seen (some (champion, top)) :=
      .leader before after champion held top hsplit htop hbefore hafter
    obtain ⟨htopNumber, hgreatest⟩ := hleads.greatest hold
    simp only [better]
    split_ifs with hge
    · refine .leader before (after ++ [(name, cell)]) champion held top (by simp [hsplit]) htop
        hbefore ?_
      intro p hp y hy
      rcases List.mem_append.mp hp with hp | hp
      · exact hafter p hp y hy
      · rw [List.mem_singleton.mp hp, hx] at hy
        exact Option.some.inj hy ▸ hge
    · refine .leader seen [] name cell x rfl hx ?_ nofun
      intro p hp y hy hle
      exact hge (hnumber.le_trans (hold p hp y hy) htopNumber hle (hgreatest p hp y hy))

theorem leads_foldl (rest : List (String × Json)) {seen : List (String × Json)}
    {best : Option (String × Float)} (h : Leads seen best)
    (hcells : Comparable (seen ++ rest)) :
    Leads (seen ++ rest)
      ((rest.filterMap fun p ↦ p.2.number?.map (p.1, ·)).foldl better best) := by
  induction rest generalizing seen best with
  | nil => simpa using h
  | cons p rest ih =>
    have happend : seen ++ p :: rest = seen ++ [p] ++ rest := by simp
    rw [happend] at hcells ⊢
    cases hp : p.2.number? with
    | none =>
      rw [List.filterMap_cons_none (by simp [hp])]
      exact ih (h.skip hp) hcells
    | some x =>
      rw [List.filterMap_cons_some (b := (p.1, x)) (by simp [hp]), List.foldl_cons]
      exact ih (h.step hp fun q hq ↦ hcells q (List.mem_append_left _ hq)) hcells

/-- A number under a class is in one of the cells that are compared. -/
theorem exists_cell {classes : List String} {row : List Json} {place : ℕ} {y : Float}
    (hplace : place < classes.length) (hy : numberAt row place = some y) :
    ∃ p, (classes.zip row)[place]? = some p ∧ p.2.number? = some y := by
  obtain ⟨cell, hcell, hy⟩ := Option.bind_eq_some_iff.mp hy
  exact ⟨(classes[place], cell),
    List.getElem?_zip_eq_some.mpr ⟨List.getElem?_eq_getElem hplace, hcell⟩, hy⟩

/-- What leads among the cells of a row belongs to the first class with the greatest number. -/
theorem Leads.firstGreatest {classes : List String} {row : List Json} {name : String} {x : Float}
    (h : Leads (classes.zip row) (some (name, x))) (hcells : Comparable (classes.zip row)) :
    FirstGreatest classes row name := by
  have hgreatest := (h.greatest hcells).2
  cases h with
  | leader before after name cell x hsplit hx hbefore hafter =>
    have hhere : (classes.zip row)[before.length]? = some (name, cell) := by simp [hsplit]
    obtain ⟨hname, hrow⟩ := List.getElem?_zip_eq_some.mp hhere
    obtain ⟨hlt, -⟩ := List.getElem?_eq_some_iff.mp hname
    refine ⟨before.length, x, hname, Option.bind_eq_some_iff.mpr ⟨cell, hrow, hx⟩, ?_, ?_⟩
    · intro other hother y hy
      obtain ⟨p, hp, hpy⟩ := exists_cell hother hy
      exact hgreatest p (List.mem_of_getElem? hp) y hpy
    · intro earlier hearlier y hy
      obtain ⟨p, hp, hpy⟩ := exists_cell (hearlier.trans hlt) hy
      rw [hsplit, List.getElem?_append_left hearlier] at hp
      exact hbefore p (List.mem_of_getElem? hp) y hpy

/-- The most probable class of a row is the first with the greatest number, if there is a number. -/
theorem mostProbable_firstGreatest {classes : List String} {row : List Json}
    (hfloats : ∀ x, Json.float x ∈ row → x.isNaN = false)
    (hsome : ∃ place < classes.length, (numberAt row place).isSome) :
    ∃ name, mostProbable classes row = some name ∧ FirstGreatest classes row name := by
  have hcells := comparable_of_floats classes hfloats
  have hstart : Leads [] none := .nobody fun p hp ↦ absurd hp List.not_mem_nil
  have hleads := leads_foldl (classes.zip row) hstart hcells
  rw [List.nil_append] at hleads
  cases hbest : ((classes.zip row).filterMap
    fun p ↦ p.2.number?.map (p.1, ·)).foldl better none with
  | none =>
    obtain ⟨place, hplace, hnumber⟩ := hsome
    obtain ⟨y, hy⟩ := Option.isSome_iff_exists.mp hnumber
    obtain ⟨p, hp, hpy⟩ := exists_cell hplace hy
    rw [hbest] at hleads
    cases hleads with
    | nobody h => exact absurd ((h p (List.mem_of_getElem? hp)).symm.trans hpy) nofun
  | some best =>
    rw [hbest] at hleads
    refine ⟨best.1, ?_, hleads.firstGreatest hcells⟩
    exact congrArg (Option.map fun p : String × Float ↦ p.1) hbest

/-! ### The score -/

/-- The share of hits among as many predictions as there are labels. -/
theorem share_zip {α : Type} (hit : α × Json → Bool) {predicted : List α} {truth : List Json}
    (hrows : predicted.length = truth.length) :
    share ((predicted.zip truth).map hit) =
      Float.ofNat ((predicted.zip truth).countP hit) / Float.ofNat truth.length := by
  have hcount : ((predicted.zip truth).map hit).count true = (predicted.zip truth).countP hit := by
    rw [List.count, List.countP_map]
    exact List.countP_congr fun p _ ↦ by simp
  rw [share, hcount, List.length_map, List.length_zip, hrows, min_self]

theorem score_accuracy_frame {f : Frame} {truth : List Json} (htruth : truth ≠ [])
    (hrows : f.height = truth.length) :
    score .accuracy (.frame f) truth = .ok (Float.ofNat ((f.rows.zip truth).countP
      fun p ↦ mostProbable f.columns p.1 == some p.2.key) / Float.ofNat truth.length) := by
  rw [← share_zip _ hrows]
  simp [score, htruth, checkRows, hrows]

theorem score_accuracy_column {predicted truth : List Json} (htruth : truth ≠ [])
    (hrows : predicted.length = truth.length) :
    score .accuracy (.column predicted) truth = .ok (Float.ofNat ((predicted.zip truth).countP
      fun p ↦ p.1.key == p.2.key) / Float.ofNat truth.length) := by
  rw [← share_zip _ hrows]
  simp [score, htruth, checkRows, hrows]

theorem score_accuracy_ne_crash (predictions : Payload) (truth : List Json) :
    score .accuracy predictions truth ≠ .error .crash := by
  rcases eq_or_ne truth [] with rfl | htruth
  · exact nofun
  · cases predictions with
    | frame f =>
      rcases eq_or_ne f.height truth.length with hrows | hrows
      · rw [score_accuracy_frame htruth hrows]
        exact nofun
      · simp [score, htruth, checkRows, hrows, bind, Except.bind]
    | column predicted =>
      rcases eq_or_ne predicted.length truth.length with hrows | hrows
      · rw [score_accuracy_column htruth hrows]
        exact nofun
      · simp [score, htruth, checkRows, hrows, bind, Except.bind]
    | _ => simp [score, htruth, throw, throwThe, MonadExceptOf.throw]

/-- The share of the labels whose key is the name beside them. -/
def shareNamed (names : List String) (truth : List Json) : Float :=
  Float.ofNat ((names.zip truth).countP fun p ↦ p.1 == p.2.key) / Float.ofNat truth.length

theorem shareNamed_between (names : List String) {truth : List Json} (htruth : truth ≠ [])
    (hlength : truth.length < 2 ^ 64) :
    0 ≤ shareNamed names truth ∧ shareNamed names truth ≤ 1 := by
  refine share_between ?_ (List.length_pos_of_ne_nil htruth) hlength
  refine List.countP_le_length.trans ?_
  rw [List.length_zip]
  exact min_le_right _ _

theorem forall₂_mostProbable_iff {classes : List String} {rows : List (List Json)}
    {names : List String} :
    List.Forall₂ (fun row name ↦ mostProbable classes row = some name) rows names ↔
      rows.map (mostProbable classes) = names.map some := by
  rw [← List.forall₂_eq_eq_eq, List.forall₂_map_left_iff, List.forall₂_map_right_iff]

/-- The hits of a frame are those of the names that are most probable in its rows. -/
theorem countP_mostProbable {classes : List String} {rows : List (List Json)} {names : List String}
    (h : rows.map (mostProbable classes) = names.map some) (truth : List Json) :
    (rows.zip truth).countP (fun p ↦ mostProbable classes p.1 == some p.2.key) =
      (names.zip truth).countP fun p ↦ p.1 == p.2.key := by
  calc (rows.zip truth).countP (fun p ↦ mostProbable classes p.1 == some p.2.key)
      = ((rows.map (mostProbable classes)).zip truth).countP fun p ↦ p.1 == some p.2.key := by
        rw [List.zip_map_left, List.countP_map]
        rfl
    _ = ((names.map some).zip truth).countP fun p ↦ p.1 == some p.2.key := by rw [h]
    _ = (names.zip truth).countP fun p ↦ p.1 == p.2.key := by
        rw [List.zip_map_left, List.countP_map]
        rfl

theorem countP_text (names : List String) (truth : List Json) :
    ((names.map Json.text).zip truth).countP (fun p ↦ p.1.key == p.2.key) =
      (names.zip truth).countP fun p ↦ p.1 == p.2.key := by
  rw [List.zip_map_left, List.countP_map]
  rfl

/-- Accuracy is the same for probabilities as for the column of the most probable classes.

No predictions make it crash. For a frame of class probabilities with as many rows as there are true
labels, each with a number under some class, exactly one list of names gives the first class with
the greatest number of each row. The frame and the column of these names then have the same score,
the share of the rows whose name is the key of the true label, which lies between zero and one. -/
theorem accuracy_frame_eq_column :
    (∀ predictions truth, score .accuracy predictions truth ≠ .error .crash) ∧
      ∀ (f : Frame) (truth : List Json), truth ≠ [] → f.height = truth.length →
        (∀ row ∈ f.rows, ∀ x, Json.float x ∈ row → x.isNaN = false) →
        (∀ row ∈ f.rows, ∃ place < f.columns.length, (numberAt row place).isSome) →
        (∃! names, List.Forall₂ (FirstGreatest f.columns) f.rows names) ∧
          ∀ names, List.Forall₂ (FirstGreatest f.columns) f.rows names →
            score .accuracy (.frame f) truth = .ok (shareNamed names truth) ∧
              score .accuracy (.column (names.map .text)) truth = .ok (shareNamed names truth) ∧
              (truth.length < 2 ^ 64 →
                0 ≤ shareNamed names truth ∧ shareNamed names truth ≤ 1) := by
  refine ⟨score_accuracy_ne_crash, ?_⟩
  intro f truth htruth hrows hfloats hsome
  have hbest (row : List Json) (hrow : row ∈ f.rows) :=
    mostProbable_firstGreatest (hfloats row hrow) (hsome row hrow)
  have hnamed {names : List String} (hnames : List.Forall₂ (FirstGreatest f.columns) f.rows names) :
      f.rows.map (mostProbable f.columns) = names.map some := by
    refine forall₂_mostProbable_iff.mp
      (((List.forall₂_and_left _ _).mpr ⟨hbest, hnames⟩).imp ?_)
    rintro row name ⟨⟨best, hprobable, hfirst⟩, hname⟩
    rw [hprobable, hfirst.unique hname]
  refine ⟨?_, fun names hnames ↦ ⟨?_, ?_, shareNamed_between names htruth⟩⟩
  · have hexists : List.Forall₂ (FirstGreatest f.columns) f.rows
        (f.rows.map fun row ↦ (mostProbable f.columns row).getD "") := by
      refine List.forall₂_map_right_iff.mpr (List.forall₂_same.mpr ?_)
      intro row hrow
      obtain ⟨name, hprobable, hfirst⟩ := hbest row hrow
      rwa [hprobable]
    refine ⟨_, hexists, fun names hnames ↦ ?_⟩
    exact List.map_injective_iff.mpr (Option.some_injective _)
      ((hnamed hnames).symm.trans (hnamed hexists))
  · rw [score_accuracy_frame htruth hrows, countP_mostProbable (hnamed hnames)]
    rfl
  · have hlength : (names.map Json.text).length = truth.length := by
      rw [List.length_map, ← hnames.length_eq]
      exact hrows
    rw [score_accuracy_column htruth hlength, countP_text]
    rfl

/-- A tie, a text where a number should be, a cell too many and cells too few. -/
def raggedFrame : Frame where
  columns := ["no", "yes", "maybe"]
  rows := [[.float 0.5, .float 0.5, .text "?"], [.null, .int 1, .int 2, .int 9], [.int 3]]

theorem accuracy_frame_eq_column_ragged :
    let truth : List Json := [.text "no", .text "maybe", .text "yes"]
    let names := ["no", "maybe", "no"]
    List.Forall₂ (FirstGreatest raggedFrame.columns) raggedFrame.rows names ∧
      score .accuracy (.frame raggedFrame) truth = .ok (Float.ofNat 2 / Float.ofNat 3) ∧
      score .accuracy (.column (names.map .text)) truth = .ok (Float.ofNat 2 / Float.ofNat 3) ∧
      0 ≤ Float.ofNat 2 / Float.ofNat 3 ∧ Float.ofNat 2 / Float.ofNat 3 ≤ 1 := by
  intro truth names
  have hfloats : ∀ row ∈ raggedFrame.rows, ∀ x, Json.float x ∈ row → x.isNaN = false := by
    simp [raggedFrame]
    decide +kernel
  have hsome : ∀ row ∈ raggedFrame.rows,
      ∃ place < raggedFrame.columns.length, (numberAt row place).isSome := by
    decide +kernel
  have hnames : List.Forall₂ (FirstGreatest raggedFrame.columns) raggedFrame.rows names :=
    .cons ⟨0, 0.5, rfl, rfl, by decide +kernel, nofun⟩
      (.cons ⟨2, Float.ofInt 2, rfl, rfl, by decide +kernel, by decide +kernel⟩
        (.cons ⟨0, Float.ofInt 3, rfl, rfl, by decide +kernel, nofun⟩ .nil))
  have hscore :=
    (accuracy_frame_eq_column.2 raggedFrame truth nofun rfl hfloats hsome).2 names hnames
  exact ⟨hnames, hscore.1, hscore.2.1, hscore.2.2 (by decide)⟩

end Dataflow.Metric
