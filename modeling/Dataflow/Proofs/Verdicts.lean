import Dataflow.Scenario
import Mathlib.Data.List.Infix

/-!
# What a scenario that passes shows

A scenario is tried on a fresh instance, and it passes if what was observed of the instance is what
was expected (`Scenario.check_returns_iff`, `Scenario.check_raises_iff`). What its outcome names is
a behaviour of the instance (`Scenario.Shows`): which of training and applying succeed, what is
returned, and what the failure mentions.

A scenario that trains, applies and expects a failure takes the failure of its training for that of
the application (`Scenario.Miscredited`). That is the one way to pass without showing what the
outcome names, and everything that shows it passes
(`Scenario.passes_iff_shows_or_miscredited`).
-/

set_option autoImplicit false
set_option relaxedAutoImplicit false

namespace Dataflow

variable {ε σ : Type}

/-! ### Scenarios that can be built -/

/-- The steps of a scenario as they can be put together. -/
inductive Trial.Built : Trial → Prop
  | applying (inputs : List Payload) : Built (.applying inputs)
  | training (features : List Payload) (label : Payload) : Built (.training features label)
  | thenApply {t : Trial} (h : t.Built) (inputs : List Payload) : Built (t.thenApply inputs)

/-- There is a step: an application, a training, or a training with an application after it. -/
theorem Trial.Built.cases_steps {t : Trial} (h : t.Built) :
    (∃ inputs, t = ⟨none, some inputs⟩) ∨ (∃ lesson, t = ⟨some lesson, none⟩) ∨
      ∃ lesson inputs, t = ⟨some lesson, some inputs⟩ := by
  induction h with
  | applying inputs => exact .inl ⟨inputs, rfl⟩
  | training features label => exact .inr (.inl ⟨⟨features, label⟩, rfl⟩)
  | thenApply _ inputs ih =>
    rcases ih with ⟨_, rfl⟩ | ⟨lesson, rfl⟩ | ⟨lesson, _, rfl⟩
    · exact .inl ⟨inputs, rfl⟩
    · exact .inr (.inr ⟨lesson, inputs, rfl⟩)
    · exact .inr (.inr ⟨lesson, inputs, rfl⟩)

/-- The scenarios that can be built: some steps, and an expectation. -/
inductive Scenario.Built : Scenario → Prop
  | returns {t : Trial} (h : t.Built) (output : Payload) : Built (t.returns output)
  | trains {t : Trial} (h : t.Built) : Built t.trains
  | raises {t : Trial} (h : t.Built) (mention : Option String) : Built (t.raises mention)

/-- A scenario that can be built is about steps, and expects an output only of an application. -/
theorem Scenario.Built.cases_steps {s : Scenario} (h : s.Built) :
    (∃ inputs expected, s = ⟨⟨none, some inputs⟩, expected⟩) ∨
      (∃ lesson expected, s = ⟨⟨some lesson, none⟩, expected⟩ ∧
        ∀ output, expected ≠ .returns (some output)) ∨
      ∃ lesson inputs expected, s = ⟨⟨some lesson, some inputs⟩, expected⟩ := by
  have hsteps : s.toTrial.Built ∧
      (s.apply = none → ∀ output, s.expected ≠ .returns (some output)) := by
    cases h with
    | @returns t ht output =>
      refine ⟨ht, fun hnone output' ↦ ?_⟩
      have happly : t.apply = none := hnone
      simp [Trial.returns, happly]
    | trains ht => exact ⟨ht, nofun⟩
    | raises ht mention => exact ⟨ht, nofun⟩
  obtain ⟨steps, expected⟩ := s
  rcases hsteps.1.cases_steps with ⟨inputs, rfl⟩ | ⟨lesson, rfl⟩ | ⟨lesson, inputs, rfl⟩
  · exact .inl ⟨inputs, expected, rfl⟩
  · exact .inr (.inl ⟨lesson, expected, rfl, hsteps.2 rfl⟩)
  · exact .inr (.inr ⟨lesson, inputs, expected, rfl⟩)

/-! ### What is expected -/

theorem mentions_iff_isInfix {part cs : List Char} : mentions part cs = true ↔ part <:+: cs := by
  induction cs with
  | nil => rw [mentions, List.isEmpty_iff, List.infix_nil]
  | cons c rest ih =>
    rw [mentions, Bool.or_eq_true, ih, List.isPrefixOf_iff_prefix, List.infix_cons_iff]

/-- The wording of an error contains the text that it has to mention, if there is one. -/
def ActorError.Mentions (e : ActorError) (mention : Option String) : Prop :=
  ∀ text, mention = some text → text.toList <:+: e.message.toList

namespace Expectation

theorem mismatch?_returns_iff {wanted : Option Payload}
    {observed : Except ActorError (Option Payload)} :
    (returns wanted).mismatch? observed = none ↔
      ∃ actual, observed = .ok actual ∧ sameOutput wanted actual = true := by
  cases observed with
  | error e => simp [mismatch?]
  | ok actual => cases hsame : sameOutput wanted actual <;> simp [mismatch?, hsame]

theorem mismatch?_raises_iff {mention : Option String}
    {observed : Except ActorError (Option Payload)} :
    (raises mention).mismatch? observed = none ↔
      ∃ e, observed = .error e ∧ e.Mentions mention := by
  cases observed with
  | ok actual => cases mention <;> simp [mismatch?]
  | error e =>
    cases mention with
    | none => simp [mismatch?, ActorError.Mentions]
    | some text =>
      simp only [mismatch?, ← mentions_iff_isInfix, ActorError.Mentions, Except.error.injEq,
        Option.some.injEq, forall_eq', exists_eq_left']
      split <;> simp_all

end Expectation

theorem Halt.lift_injective {δ α : Type} :
    Function.Injective (Halt.lift : Except δ α → Except (Halt δ) α) := by
  intro x y h
  cases x <;> cases y <;> simp_all [Halt.lift]

namespace Scenario

/-! ### What passes -/

/-- A scenario passes if nothing is wrong with what was observed. A crash is no observation. -/
theorem check_eq_ok_iff {s : Scenario} {spec : Spec ε σ} {env : Environment ε} :
    s.check spec env = .ok () ↔ ∃ observed, (s.observe spec.behavior env).1 = Halt.lift observed ∧
      s.expected.mismatch? observed = none := by
  rw [check]
  cases hobserved : (s.observe spec.behavior env).1 with
  | ok output =>
    cases hmismatch : s.expected.mismatch? (.ok output) with
    | none => exact iff_of_true (by simp only [hmismatch]) ⟨.ok output, rfl, hmismatch⟩
    | some message =>
      refine iff_of_false (by simp [hmismatch]) ?_
      rintro ⟨observed, hlifted, hnone⟩
      obtain rfl := @Halt.lift_injective _ _ (.ok output) observed hlifted
      simp [hmismatch] at hnone
  | error h =>
    cases h with
    | error e =>
      cases hmismatch : s.expected.mismatch? (.error e) with
      | none => exact iff_of_true (by simp only [hmismatch]) ⟨.error e, rfl, hmismatch⟩
      | some message =>
        refine iff_of_false (by simp [hmismatch]) ?_
        rintro ⟨observed, hlifted, hnone⟩
        obtain rfl := @Halt.lift_injective _ _ (.error e) observed hlifted
        simp [hmismatch] at hnone
    | crash =>
      refine iff_of_false (by simp) ?_
      rintro ⟨_ | _, hcrash, -⟩ <;> simp [Halt.lift] at hcrash

variable {steps : Trial} {spec : Spec ε σ} {env : Environment ε}

/-- A scenario that expects an output passes if this is what was observed. -/
theorem check_returns_iff {wanted : Option Payload} :
    (⟨steps, .returns wanted⟩ : Scenario).check spec env = .ok () ↔
      ∃ actual, ((⟨steps, .returns wanted⟩ : Scenario).observe spec.behavior env).1 = .ok actual ∧
        sameOutput wanted actual = true := by
  rw [check_eq_ok_iff]
  constructor
  · rintro ⟨observed, hobserved, hmismatch⟩
    obtain ⟨actual, rfl, hsame⟩ := Expectation.mismatch?_returns_iff.mp hmismatch
    exact ⟨actual, hobserved, hsame⟩
  · rintro ⟨actual, hobserved, hsame⟩
    exact ⟨.ok actual, hobserved, Expectation.mismatch?_returns_iff.mpr ⟨actual, rfl, hsame⟩⟩

/-- A scenario that expects a failure passes if one was observed that mentions what it should. -/
theorem check_raises_iff {mention : Option String} :
    (⟨steps, .raises mention⟩ : Scenario).check spec env = .ok () ↔
      ∃ e, ((⟨steps, .raises mention⟩ : Scenario).observe spec.behavior env).1 =
        .error (.error e) ∧ e.Mentions mention := by
  rw [check_eq_ok_iff]
  constructor
  · rintro ⟨observed, hobserved, hmismatch⟩
    obtain ⟨e, rfl, hmentions⟩ := Expectation.mismatch?_raises_iff.mp hmismatch
    exact ⟨e, hobserved, hmentions⟩
  · rintro ⟨e, hobserved, hmentions⟩
    exact ⟨.error e, hobserved, Expectation.mismatch?_raises_iff.mpr ⟨e, rfl, hmentions⟩⟩

/-! ### What is observed -/

theorem map_eq_ok_iff {δ α β : Type} {f : α → β} {x : Except δ α} {b : β} :
    x.map f = .ok b ↔ ∃ a, x = .ok a ∧ f a = b := by
  cases x <;> simp [Except.map]

theorem map_eq_error_iff {δ α β : Type} {f : α → β} {x : Except δ α} {e : δ} :
    x.map f = .error e ↔ x = .error e := by
  cases x <;> simp [Except.map]

variable {lesson : Lesson} {inputs : List Payload} {expected : Expectation}
  {behavior : Behavior ε σ}

theorem observe_applying :
    ((⟨⟨none, some inputs⟩, expected⟩ : Scenario).observe behavior env).1 =
      (behavior.apply inputs behavior.fresh env).1.map some := rfl

theorem observe_training :
    ((⟨⟨some lesson, none⟩, expected⟩ : Scenario).observe behavior env).1 =
      (behavior.train lesson.features lesson.label behavior.fresh env).1.map fun _ ↦ none := by
  simp only [observe]
  cases (behavior.train lesson.features lesson.label behavior.fresh env).1 <;> rfl

theorem observe_untrained {h : Halt ActorError}
    (htrain : (behavior.train lesson.features lesson.label behavior.fresh env).1 = .error h) :
    ((⟨⟨some lesson, some inputs⟩, expected⟩ : Scenario).observe behavior env).1 = .error h := by
  simp only [observe, htrain]

theorem observe_trained {fit : σ} {env' : Environment ε}
    (htrain : behavior.train lesson.features lesson.label behavior.fresh env =
      (.ok (), fit, env')) :
    ((⟨⟨some lesson, some inputs⟩, expected⟩ : Scenario).observe behavior env).1 =
      (behavior.apply inputs fit env').1.map some := by
  simp only [observe, htrain]

/-! ### What an instance shows -/

/-- A fresh instance shows the behaviour that an outcome names, on the steps of a scenario and as it
is expected there. -/
inductive Shows (behavior : Behavior ε σ) (env : Environment ε) : Scenario → Outcome → Prop
  | plainApplyReturns {inputs : List Payload} {output actual : Payload}
      (happly : (behavior.apply inputs behavior.fresh env).1 = .ok actual)
      (houtput : (output == actual) = true) :
      Shows behavior env ⟨⟨none, some inputs⟩, .returns (some output)⟩ .plainApplyReturns
  | plainApplyRaises {inputs : List Payload} {mention : Option String} {e : ActorError}
      (happly : (behavior.apply inputs behavior.fresh env).1 = .error (.error e))
      (hmentions : e.Mentions mention) :
      Shows behavior env ⟨⟨none, some inputs⟩, .raises mention⟩ .plainApplyRaises
  | stateTrainReturns {lesson : Lesson}
      (htrain : (behavior.train lesson.features lesson.label behavior.fresh env).1 = .ok ()) :
      Shows behavior env ⟨⟨some lesson, none⟩, .returns none⟩ .stateTrainReturns
  | stateTrainRaises {lesson : Lesson} {mention : Option String} {e : ActorError}
      (htrain : (behavior.train lesson.features lesson.label behavior.fresh env).1 =
        .error (.error e))
      (hmentions : e.Mentions mention) :
      Shows behavior env ⟨⟨some lesson, none⟩, .raises mention⟩ .stateTrainRaises
  | stateApplyReturns {lesson : Lesson} {inputs : List Payload} {output actual : Payload} {fit : σ}
      {env' : Environment ε}
      (htrain : behavior.train lesson.features lesson.label behavior.fresh env =
        (.ok (), fit, env'))
      (happly : (behavior.apply inputs fit env').1 = .ok actual)
      (houtput : (output == actual) = true) :
      Shows behavior env ⟨⟨some lesson, some inputs⟩, .returns (some output)⟩ .stateApplyReturns
  | stateApplyRaises {lesson : Lesson} {inputs : List Payload} {mention : Option String}
      {e : ActorError} {fit : σ} {env' : Environment ε}
      (htrain : behavior.train lesson.features lesson.label behavior.fresh env =
        (.ok (), fit, env'))
      (happly : (behavior.apply inputs fit env').1 = .error (.error e))
      (hmentions : e.Mentions mention) :
      Shows behavior env ⟨⟨some lesson, some inputs⟩, .raises mention⟩ .stateApplyRaises

/-- The failure of a training is taken for that of the application that was to follow. -/
inductive Miscredited (behavior : Behavior ε σ) (env : Environment ε) : Scenario → Prop
  | intro {lesson : Lesson} {inputs : List Payload} {mention : Option String} {e : ActorError}
      (htrain : (behavior.train lesson.features lesson.label behavior.fresh env).1 =
        .error (.error e))
      (hmentions : e.Mentions mention) :
      Miscredited behavior env ⟨⟨some lesson, some inputs⟩, .raises mention⟩

/-- A scenario without a training passes exactly if the instance shows what the outcome names. -/
theorem check_applying_iff :
    (⟨⟨none, some inputs⟩, expected⟩ : Scenario).check spec env = .ok () ↔
      Shows spec.behavior env ⟨⟨none, some inputs⟩, expected⟩
        (⟨⟨none, some inputs⟩, expected⟩ : Scenario).outcome := by
  cases expected with
  | returns wanted =>
    rw [check_returns_iff, observe_applying]
    constructor
    · rintro ⟨_, hobserved, hsame⟩
      obtain ⟨actual, happly, rfl⟩ := map_eq_ok_iff.mp hobserved
      cases wanted with
      | none => exact absurd hsame Bool.false_ne_true
      | some output => exact .plainApplyReturns happly hsame
    · intro hshows
      cases hshows with
      | plainApplyReturns happly houtput =>
        exact ⟨_, map_eq_ok_iff.mpr ⟨_, happly, rfl⟩, houtput⟩
  | raises mention =>
    rw [check_raises_iff, observe_applying]
    constructor
    · rintro ⟨e, hobserved, hmentions⟩
      exact .plainApplyRaises (map_eq_error_iff.mp hobserved) hmentions
    · intro hshows
      cases hshows with
      | plainApplyRaises happly hmentions =>
        exact ⟨_, map_eq_error_iff.mpr happly, hmentions⟩

/-- A scenario without an application, which can expect no output, passes exactly if the instance
shows what the outcome names. -/
theorem check_training_iff (hexpected : ∀ output, expected ≠ .returns (some output)) :
    (⟨⟨some lesson, none⟩, expected⟩ : Scenario).check spec env = .ok () ↔
      Shows spec.behavior env ⟨⟨some lesson, none⟩, expected⟩
        (⟨⟨some lesson, none⟩, expected⟩ : Scenario).outcome := by
  cases expected with
  | returns wanted =>
    obtain rfl : wanted = none := by
      cases wanted with
      | none => rfl
      | some output => exact absurd rfl (hexpected output)
    rw [check_returns_iff, observe_training]
    constructor
    · rintro ⟨_, hobserved, -⟩
      obtain ⟨_, htrain, -⟩ := map_eq_ok_iff.mp hobserved
      exact .stateTrainReturns htrain
    · intro hshows
      cases hshows with
      | stateTrainReturns htrain => exact ⟨none, map_eq_ok_iff.mpr ⟨(), htrain, rfl⟩, rfl⟩
  | raises mention =>
    rw [check_raises_iff, observe_training]
    constructor
    · rintro ⟨e, hobserved, hmentions⟩
      exact .stateTrainRaises (map_eq_error_iff.mp hobserved) hmentions
    · intro hshows
      cases hshows with
      | stateTrainRaises htrain hmentions =>
        exact ⟨_, map_eq_error_iff.mpr htrain, hmentions⟩

/-- A scenario with both steps also passes if a failure is expected and the training fails so. -/
theorem check_both_iff :
    (⟨⟨some lesson, some inputs⟩, expected⟩ : Scenario).check spec env = .ok () ↔
      Shows spec.behavior env ⟨⟨some lesson, some inputs⟩, expected⟩
          (⟨⟨some lesson, some inputs⟩, expected⟩ : Scenario).outcome ∨
        Miscredited spec.behavior env ⟨⟨some lesson, some inputs⟩, expected⟩ := by
  obtain ⟨trained, fit, env', htrain⟩ : ∃ trained fit env',
      spec.behavior.train lesson.features lesson.label spec.behavior.fresh env =
        (trained, fit, env') := ⟨_, _, _, rfl⟩
  cases expected with
  | returns wanted =>
    rw [check_returns_iff]
    constructor
    · rintro ⟨_, hobserved, hsame⟩
      cases trained with
      | error h => simp [observe_untrained (congrArg Prod.fst htrain)] at hobserved
      | ok _ =>
        rw [observe_trained htrain] at hobserved
        obtain ⟨actual, happly, rfl⟩ := map_eq_ok_iff.mp hobserved
        cases wanted with
        | none => exact absurd hsame Bool.false_ne_true
        | some output => exact .inl (.stateApplyReturns htrain happly hsame)
    · rintro (hshows | hmiscredited)
      · cases hshows with
        | stateApplyReturns htrain happly houtput =>
          refine ⟨some _, ?_, houtput⟩
          rw [observe_trained htrain]
          exact map_eq_ok_iff.mpr ⟨_, happly, rfl⟩
      · nomatch hmiscredited
  | raises mention =>
    rw [check_raises_iff]
    constructor
    · rintro ⟨e, hobserved, hmentions⟩
      cases trained with
      | error h =>
        rw [observe_untrained (congrArg Prod.fst htrain)] at hobserved
        obtain rfl := Except.error.inj hobserved
        exact .inr ⟨congrArg Prod.fst htrain, hmentions⟩
      | ok _ =>
        rw [observe_trained htrain] at hobserved
        exact .inl (.stateApplyRaises htrain (map_eq_error_iff.mp hobserved) hmentions)
    · rintro (hshows | ⟨htrain, hmentions⟩)
      · cases hshows with
        | stateApplyRaises htrain happly hmentions =>
          refine ⟨_, ?_, hmentions⟩
          rw [observe_trained htrain]
          exact map_eq_error_iff.mpr happly
      · exact ⟨_, observe_untrained htrain, hmentions⟩

/-- A failing training shows nothing of an application after it. -/
theorem Miscredited.not_shows {s : Scenario} (h : Miscredited behavior env s) :
    s.outcome = .stateApplyRaises ∧ ¬ Shows behavior env s s.outcome := by
  obtain ⟨htrain, hmentions⟩ := h
  refine ⟨rfl, fun hshows ↦ ?_⟩
  cases hshows with
  | stateApplyRaises htrained => exact absurd (htrain.symm.trans (congrArg Prod.fst htrained)) nofun

/-- A scenario that can be built passes exactly if a fresh instance shows what its outcome names, or
if a failure of its training is taken for that of its application. Only a scenario that is about a
failing application after a training passes in the second way, and then it does not show what its
outcome names. -/
theorem passes_iff_shows_or_miscredited {s : Scenario} (hs : s.Built) (spec : Spec ε σ)
    (env : Environment ε) :
    (s.check spec env = .ok () ↔
      Shows spec.behavior env s s.outcome ∨ Miscredited spec.behavior env s) ∧
      (Miscredited spec.behavior env s →
        s.outcome = .stateApplyRaises ∧ ¬ Shows spec.behavior env s s.outcome) := by
  refine ⟨?_, Miscredited.not_shows⟩
  rcases hs.cases_steps with ⟨inputs, expected, rfl⟩ | ⟨lesson, expected, rfl, hexpected⟩ |
    ⟨lesson, inputs, expected, rfl⟩
  · rw [check_applying_iff, or_iff_left]
    nofun
  · rw [check_training_iff hexpected, or_iff_left]
    nofun
  · exact check_both_iff

/-- An actor that needs features to be trained on, and counts them. -/
def countingFeatures : Spec Unit Nat where
  name := "count"
  stateful := true
  behavior :=
    { fresh := 0
      apply := fun _ n env ↦ (.ok (.column [.int n]), env)
      train := fun features _ n env ↦
        if features.isEmpty then (.error (.error (.invalidInput "no features")), n, env)
        else (.ok (), features.length, env)
      exportState := fun _ ↦ .ok none
      loadState := fun _ n ↦ (.ok (), n) }

/-- Passing a scenario about a failing application shows nothing of the application: here it would
succeed, and only the training fails. -/
theorem passing_not_certifying :
    ¬ ∀ (s : Scenario) (spec : Spec Unit Nat) (env : Environment Unit), s.Built →
      s.check spec env = .ok () → Shows spec.behavior env s s.outcome := by
  intro h
  have hshows := h _ countingFeatures ⟨[], ()⟩
    (.raises (.thenApply (.training [] .unit) []) (some "no features")) (by decide)
  cases hshows with
  | stateApplyRaises htrain => exact absurd (congrArg Prod.fst htrain) nofun

/-- Trained on a feature the actor passes since it shows the output; trained on none it passes
though it does not fail to be applied. -/
theorem passes_iff_shows_or_miscredited_counting :
    let env : Environment Unit := ⟨[], ()⟩
    let seen := ((Trial.training [.unit] .unit).thenApply []).returns (.column [.int 1])
    let unseen := ((Trial.training [] .unit).thenApply []).raises (some "no features")
    seen.Built ∧ unseen.Built ∧
      Shows countingFeatures.behavior env seen .stateApplyReturns ∧
      unseen.check countingFeatures env = .ok () ∧
      ¬ Shows countingFeatures.behavior env unseen .stateApplyRaises := by
  intro env seen unseen
  have hseen : seen.Built := .returns (.thenApply (.training [.unit] .unit) []) _
  have hunseen : unseen.Built := .raises (.thenApply (.training [] .unit) []) _
  have hmiscredited : Miscredited countingFeatures.behavior env unseen :=
    ⟨rfl, by rintro text ⟨⟩; decide⟩
  obtain ⟨hpasses, hother⟩ := passes_iff_shows_or_miscredited hseen countingFeatures env
  obtain ⟨hpassesUnseen, hnot⟩ := passes_iff_shows_or_miscredited hunseen countingFeatures env
  exact ⟨hseen, hunseen, (hpasses.mp (by decide)).resolve_right fun h ↦ absurd (hother h).1 (by decide),
    hpassesUnseen.mpr (.inr hmiscredited), (hnot hmiscredited).2⟩

end Scenario

end Dataflow
