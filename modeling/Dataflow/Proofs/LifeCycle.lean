import Dataflow.Proofs.Retained

/-!
# The life of a wrapped object

An instance is called in any order, in whatever environments, and its calls may fail
(`Behavior.Lives`). Of a wrapped object with a train mapping the flag says exactly whether a
training or a loading has succeeded so far (`Mapping.trained_iff`): each call sets it if it is one
of these and succeeds, and otherwise keeps it (`Mapping.trained_perform_iff`). Without a train
mapping no such call succeeds, and the flag is never set.

So the object is refused to whoever applies or exports it until it has been fitted, and is used from
then on, and a loading that is refused has not happened (`WrappedDraft.life_cycle`).
-/

set_option autoImplicit false
set_option relaxedAutoImplicit false

namespace Dataflow

variable {ε σ τ : Type}

namespace Behavior

/-! ### Calls -/

/-- A call of an instance. -/
inductive Call
  | apply (inputs : List Payload)
  | train (inputs : List Payload) (label : Payload)
  | exportState
  | loadState (bytes : Bytes)

/-- What a call has come to. -/
inductive Answer
  | applied (result : Except (Halt ActorError) Payload)
  | trained (result : Except (Halt ActorError) Unit)
  | exported (result : Except ActorError (Option Bytes))
  | loaded (result : Except ActorError Unit)

/-- A training or a loading has succeeded. -/
def Answer.Fits : Answer → Prop
  | applied _ => False
  | trained result => result = .ok ()
  | exported _ => False
  | loaded result => result = .ok ()

/-- Makes a call: what it comes to, and the fit state afterwards. -/
def perform (b : Behavior ε σ) (fit : σ) (env : Environment ε) : Call → Answer × σ
  | .apply inputs => (.applied (b.apply inputs fit env).1, fit)
  | .train inputs label =>
    (.trained (b.train inputs label fit env).1, (b.train inputs label fit env).2.1)
  | .exportState => (.exported (b.exportState fit), fit)
  | .loadState bytes => (.loaded (b.loadState bytes fit).1, (b.loadState bytes fit).2)

/-- The fit states an instance can come to, with what its calls have come to. The environment is
another one at each call, since others use it in between. -/
inductive Lives (b : Behavior ε σ) : List Answer → σ → Prop
  | fresh : b.Lives [] b.fresh
  | call {past : List Answer} {fit : σ} (h : b.Lives past fit) (env : Environment ε) (c : Call) :
      b.Lives (past ++ [(b.perform fit env c).1]) (b.perform fit env c).2

/-- Some training or loading has succeeded. -/
def HasFitted (past : List Answer) : Prop :=
  ∃ answer ∈ past, answer.Fits

theorem hasFitted_snoc {past : List Answer} {answer : Answer} :
    HasFitted (past ++ [answer]) ↔ HasFitted past ∨ answer.Fits := by
  simp [HasFitted, or_and_right, exists_or]

end Behavior

open Behavior

namespace Mapping

variable {m : Mapping ε τ} {initial : τ} {wrapped : Wrapped τ}

/-- What exporting an object gives. -/
def exported (m : Mapping ε τ) (object : τ) : Except ActorError (Option Bytes) :=
  match m.exportState with
  | none => .ok none
  | some exportState =>
    match exportState object with
    | .ok bytes => .ok (some bytes)
    | .error text => .error (.state text)

/-! ### One call -/

section Train

variable (inputs : List Payload) (label : Payload) (env : Environment ε)

theorem train_of_untrainable (h : m.train = none) :
    (m.behavior initial).train inputs label wrapped env =
      (.error (.error .notStateful), wrapped, env) := by
  simp only [behavior, h]

/-- Training sets the flag if it succeeds, and otherwise keeps it. -/
theorem trained_train_iff :
    ((m.behavior initial).train inputs label wrapped env).2.1.trained = true ↔
      wrapped.trained = true ∨
        ((m.behavior initial).train inputs label wrapped env).1 = .ok () := by
  simp only [behavior]
  split
  · simp
  · split
    · simp
    · simp

end Train

section Load

variable (bytes : Bytes)

theorem load_of_untrainable (h : m.train = none) :
    (m.behavior initial).loadState bytes wrapped = (.error .notStateful, wrapped) := by
  simp only [behavior, h]

/-- Loading puts the decoded object in the place of the old one, or is refused and changes
nothing. -/
theorem load_cases :
    (∃ e, (m.behavior initial).loadState bytes wrapped = (.error e, wrapped)) ∨
      ∃ loadState object, m.loadState = some loadState ∧ loadState bytes = .ok object ∧
        (m.behavior initial).loadState bytes wrapped = (.ok (), ⟨object, true⟩) := by
  simp only [behavior]
  split
  · exact .inl ⟨_, rfl⟩
  · exact .inl ⟨_, rfl⟩
  · rename_i loadState _ hload
    cases hdecoded : loadState bytes with
    | ok object => exact .inr ⟨loadState, object, hload, hdecoded, rfl⟩
    | error text => exact .inl ⟨_, rfl⟩

end Load

/-- A call sets the flag if it is a training or a loading that succeeds, and otherwise keeps it. -/
theorem trained_perform_iff (env : Environment ε) (c : Call) :
    ((m.behavior initial).perform wrapped env c).2.trained = true ↔
      wrapped.trained = true ∨ ((m.behavior initial).perform wrapped env c).1.Fits := by
  cases c with
  | apply inputs => exact (or_iff_left id).symm
  | train inputs label => exact trained_train_iff inputs label env
  | exportState => exact (or_iff_left id).symm
  | loadState bytes =>
    change ((m.behavior initial).loadState bytes wrapped).2.trained = true ↔
      wrapped.trained = true ∨ ((m.behavior initial).loadState bytes wrapped).1 = .ok ()
    obtain ⟨e, hrefused⟩ | ⟨loadState, object, -, -, hloaded⟩ :=
      @load_cases ε τ m initial wrapped bytes
    · simp [hrefused]
    · simp [hloaded]

theorem not_fits_perform (h : m.train = none) (env : Environment ε) (c : Call) :
    ¬ ((m.behavior initial).perform wrapped env c).1.Fits := by
  cases c with
  | apply inputs => exact id
  | train inputs label =>
    change ¬ ((m.behavior initial).train inputs label wrapped env).1 = .ok ()
    rw [train_of_untrainable inputs label env h]
    nofun
  | exportState => exact id
  | loadState bytes =>
    change ¬ ((m.behavior initial).loadState bytes wrapped).1 = .ok ()
    rw [load_of_untrainable bytes h]
    nofun

/-! ### Any calls -/

variable {past : List Answer}

/-- The flag says whether a training or a loading has succeeded. -/
theorem trained_iff (h : (m.behavior initial).Lives past wrapped) :
    wrapped.trained = true ↔ HasFitted past := by
  induction h with
  | fresh => simp [behavior, HasFitted]
  | call _ env c ih => rw [trained_perform_iff, hasFitted_snoc, ih]

theorem not_hasFitted (htrain : m.train = none) (h : (m.behavior initial).Lives past wrapped) :
    ¬ HasFitted past := by
  induction h with
  | fresh => simp [HasFitted]
  | call _ env c ih =>
    rw [hasFitted_snoc]
    exact not_or_intro ih (not_fits_perform htrain env c)

/-! ### What an instance shows -/

theorem apply_of_not_trained (htrain : m.train.isSome = true) (h : wrapped.trained = false)
    (inputs : List Payload) (env : Environment ε) :
    (m.behavior initial).apply inputs wrapped env = (.error (.error .notTrained), env) := by
  simp [behavior, htrain, h]

theorem apply_of_ready (h : m.train = none ∨ wrapped.trained = true) (inputs : List Payload)
    (env : Environment ε) :
    (m.behavior initial).apply inputs wrapped env =
      (Halt.mapError .failed (m.apply inputs wrapped.inner env).1,
        (m.apply inputs wrapped.inner env).2) := by
  have hready : ¬ (m.train.isSome = true ∧ ¬ wrapped.trained = true) := by
    rcases h with h | h <;> simp [h]
  simp only [behavior, if_neg hready]

theorem exportState_of_not_trained (h : wrapped.trained = false) :
    (m.behavior initial).exportState wrapped = .ok none := by
  simp only [behavior, h]
  split <;> rfl

theorem exportState_of_trained (h : wrapped.trained = true) :
    (m.behavior initial).exportState wrapped = m.exported wrapped.inner := by
  simp only [behavior, exported, h]
  cases m.exportState with
  | none => rfl
  | some exportState => cases exportState wrapped.inner <;> rfl

/-- What an instance with a train mapping shows after some calls. It is refused until it has been
fitted, and exports nothing until then. A training that fails leaves the flag, and a loading that
fails leaves the object as well. After a loading that succeeds the instance is used as the decoded
object, whatever its calls have come to. -/
structure Fittable (m : Mapping ε τ) (b : Behavior ε (Wrapped τ)) (past : List Answer)
    (wrapped : Wrapped τ) : Prop where
  refused_iff : ∀ inputs env,
    (b.apply inputs wrapped env).1 = .error (.error .notTrained) ↔ ¬ HasFitted past
  unexported : ¬ HasFitted past → b.exportState wrapped = .ok none
  exported : HasFitted past → b.exportState wrapped = m.exported wrapped.inner
  train_failed : ∀ inputs label env, (b.train inputs label wrapped env).1 ≠ .ok () →
    (b.train inputs label wrapped env).2.1.trained = wrapped.trained
  load_failed : ∀ bytes, (b.loadState bytes wrapped).1 ≠ .ok () →
    (b.loadState bytes wrapped).2 = wrapped
  loaded : ∀ bytes after, b.loadState bytes wrapped = (.ok (), after) →
    ∃ loadState object, m.loadState = some loadState ∧ loadState bytes = .ok object ∧
      (∀ inputs env, b.apply inputs after env =
        (Halt.mapError .failed (m.apply inputs object env).1, (m.apply inputs object env).2)) ∧
      b.exportState after = m.exported object

/-- What an instance without a train mapping shows: it cannot be fitted, and need not be. -/
structure Unfittable (b : Behavior ε (Wrapped τ)) (wrapped : Wrapped τ) : Prop where
  train : ∀ inputs label env,
    b.train inputs label wrapped env = (.error (.error .notStateful), wrapped, env)
  loadState : ∀ bytes, b.loadState bytes wrapped = (.error .notStateful, wrapped)
  exportState : b.exportState wrapped = .ok none
  not_refused : ∀ inputs env, (b.apply inputs wrapped env).1 ≠ .error (.error .notTrained)

theorem fittable (htrain : m.train.isSome = true) (h : (m.behavior initial).Lives past wrapped) :
    m.Fittable (m.behavior initial) past wrapped where
  refused_iff inputs env := by
    rw [← trained_iff h]
    refine ⟨fun hrefused htrained ↦ m.apply_ne_notTrained initial htrained inputs env hrefused,
      fun hnot ↦ ?_⟩
    rw [apply_of_not_trained htrain (Bool.eq_false_iff.mpr hnot)]
  unexported hnot := by
    rw [← trained_iff h] at hnot
    exact exportState_of_not_trained (Bool.eq_false_iff.mpr hnot)
  exported hfitted := exportState_of_trained ((trained_iff h).mpr hfitted)
  train_failed inputs label env hfailed := by
    rw [Bool.eq_iff_iff, trained_train_iff]
    exact or_iff_left hfailed
  load_failed bytes hfailed := by
    rcases load_cases bytes with ⟨e, hrefused⟩ | ⟨_, _, -, -, hloaded⟩
    · rw [hrefused]
    · exact absurd (congrArg Prod.fst hloaded) hfailed
  loaded bytes after hafter := by
    rcases load_cases bytes with ⟨e, hrefused⟩ | ⟨loadState, object, hload, hdecoded, hloaded⟩
    · cases hrefused.symm.trans hafter
    · cases hloaded.symm.trans hafter
      exact ⟨loadState, object, hload, hdecoded, apply_of_ready (.inr rfl),
        exportState_of_trained rfl⟩

theorem unfittable (htrain : m.train = none) (h : (m.behavior initial).Lives past wrapped) :
    Unfittable (m.behavior initial) wrapped where
  train inputs label env := train_of_untrainable inputs label env htrain
  loadState bytes := load_of_untrainable bytes htrain
  exportState := by
    refine exportState_of_not_trained (Bool.eq_false_iff.mpr fun htrained ↦ ?_)
    exact not_hasFitted htrain h ((trained_iff h).mp htrained)
  not_refused inputs env := by
    rw [apply_of_ready (.inl htrain)]
    exact mapError_failed_ne_notTrained _

end Mapping

/-! ### Wrapped objects -/

/-- What a description with an apply mapping asks of its object. -/
def WrappedDraft.mapping (d : WrappedDraft ε τ)
    (apply : List Payload → τ → Environment ε → Except (Halt String) Payload × Environment ε) :
    Mapping ε τ :=
  ⟨apply, d.train, d.exportState, d.loadState⟩

/-- A wrapped object with an apply mapping is an actor, stateful exactly if it has a train mapping.
After any calls of an instance, successful or not, it shows whether it has been fitted: with a train
mapping as `Mapping.Fittable` says, and without one as `Mapping.Unfittable` says. -/
theorem WrappedDraft.life_cycle (d : WrappedDraft ε τ)
    {apply : List Payload → τ → Environment ε → Except (Halt String) Payload × Environment ε}
    (happly : d.apply = some apply) :
    ∃ spec, d.spec = .ok spec ∧ spec.stateful = d.train.isSome ∧
      ∀ past wrapped, spec.behavior.Lives past wrapped →
        (d.train.isSome = true → (d.mapping apply).Fittable spec.behavior past wrapped) ∧
        (d.train = none → Mapping.Unfittable spec.behavior wrapped) := by
  refine ⟨{ name := d.name, behavior := (d.mapping apply).behavior d.initial,
            stateful := d.train.isSome, arity := d.arity }, ?_, rfl, fun past wrapped h ↦ ?_⟩
  · rw [WrappedDraft.spec, happly]
    rfl
  · exact ⟨fun htrain ↦ Mapping.fittable htrain h, fun htrain ↦ Mapping.unfittable htrain h⟩

/-- A number that grows with each training, though it fails, and that is given by the length of what
is loaded, if that is not empty. -/
def WrappedDraft.stubborn : WrappedDraft Unit Nat where
  name := "stubborn"
  initial := 0
  apply := some fun _ n env ↦ (.ok (.column [.int n]), env)
  train := some fun _ _ n env ↦ (.error (.error "not today"), n + 1, env)
  exportState := some fun n ↦ .ok (List.replicate n 0)
  loadState := some fun bytes ↦ if bytes.isEmpty then .error "nothing" else .ok bytes.length

/-- Until it has been loaded it counts as not trained, though a training has changed it. -/
theorem WrappedDraft.life_cycle_stubborn :
    ∃ spec, stubborn.spec = .ok spec ∧ spec.stateful = true ∧
      (∃ past wrapped, spec.behavior.Lives past wrapped ∧ wrapped.inner = 1 ∧
        ∀ inputs env, (spec.behavior.apply inputs wrapped env).1 = .error (.error .notTrained)) ∧
      ∃ past wrapped, spec.behavior.Lives past wrapped ∧
        spec.behavior.exportState wrapped = .ok (some [0, 0]) := by
  obtain ⟨spec, hspec, hstateful, hlife⟩ := life_cycle stubborn rfl
  let env : Environment Unit := ⟨[], ()⟩
  have htrained := (Lives.fresh (b := spec.behavior)).call env (.train [] .unit)
  have hrefused := htrained.call env (.loadState [])
  have hloaded := hrefused.call env (.loadState [7, 7])
  have hearly := (hlife _ _ hrefused).1 rfl
  have hlate := (hlife _ _ hloaded).1 rfl
  cases hspec
  refine ⟨_, rfl, hstateful, ⟨_, _, hrefused, rfl, fun inputs env ↦ ?_⟩,
    ⟨_, _, hloaded, hlate.exported ?_⟩⟩
  · refine (hearly.refused_iff inputs env).mpr ?_
    change ¬ HasFitted [.trained (.error (.error (.failed "not today"))),
      .loaded (.error (.state "nothing"))]
    simp [HasFitted, Answer.Fits]
  · exact ⟨.loaded (.ok ()), List.mem_append_right _ (List.mem_singleton_self _), rfl⟩

end Dataflow
