import Dataflow.Proofs.InterruptedRuns
import Dataflow.Proofs.Invocations

/-!
# Cancelling a run

A session that is cancelled while it runs a graph stops, but it does not always say so. A runner
*overlooks* a cancellation in three ways (`Staging.Overlooked`). A node had failed before, so that the
run was ending already. Or the runner takes what the node gave during which it was cancelled before it
looks, and the node has failed, or no node is left after it. The sequential runner takes first and
looks later always, the distributed runner when the schedule has it miss the cancellation.

`Session.cancelled_iff_not_overlooked` says so of every invocation during which the session is
cancelled, for arbitrary actors and schedules. There is a node while which it came. After that node
has ended, tasks in flight end; nodes start only if the distributed runner has missed the
cancellation, and then not more than idle workers begin with at once (`Runner.WindsUp`). The
invocation reports the cancellation unless the runner overlooks it; otherwise it reports the first
failure, or succeeds. A training that does not succeed leaves roster and instances as they were.
`Session.cancellation_not_always_reported` is a training that is cancelled by its last node and
succeeds.
-/

set_option autoImplicit false
set_option relaxedAutoImplicit false

namespace Dataflow

variable {ε σ : Type}

namespace Staging

/-- A runner overlooks that it was cancelled while a node worked, after these events and with this
outcome of the node. -/
inductive Overlooked (r : Staging ε σ) (front : List Event) :
    Except (Halt FlowError) (List Payload) → Prop
  /-- Another node had failed before. -/
  | late {outcome : Except (Halt FlowError) (List Payload)} {halt : Halt FlowError}
      (hfailed : Event.firstFailure? front = some halt) : Overlooked r front outcome
  /-- The node fails, and the runner takes that before it looks. -/
  | failing {halt : Halt FlowError} (hblind : r.runner.blind r.context.schedule front = true) :
      Overlooked r front (.error halt)
  /-- The node is the last to end, and the runner takes what it gave before it looks. -/
  | ending {outputs : List Payload} (hblind : r.runner.blind r.context.schedule front = true)
      (hlast : Event.endings front + 1 = r.graph.nodes.length) : Overlooked r front (.ok outputs)

variable {r : Staging ε σ} {front back : List Event} {id : NodeId}
  {outcome : Except (Halt FlowError) (List Payload)} {last : World ε σ}

/-- A run that was cancelled while a node worked says so, unless its runner overlooks it. Then it is
stopped by the first failure, if there is one. -/
theorem noticed_or_overlooked {halt? : Option (Halt FlowError)}
    (h : r.runner.Settled r.context.schedule r.graph.nodes.length front outcome back halt?)
    (id : NodeId) :
    (¬ r.Overlooked front outcome ∧ halt? = some (.error .cancelled)) ∨
      (r.Overlooked front outcome ∧
        halt? = (Event.firstFailure? (front ++ [.ended id outcome])).map r.runner.reported) := by
  rw [Event.firstFailure?_append]
  cases h with
  | noticed hsound hlooks hback =>
    refine .inl ⟨fun hoverlooked ↦ ?_, rfl⟩
    cases hoverlooked with
    | late hfailed => cases hsound.symm.trans hfailed
    | failing hblind => cases hlooks.symm.trans hblind
    | ending hblind hlast => cases hlooks.symm.trans hblind
  | belated hsound hmore hback =>
    refine .inl ⟨fun hoverlooked ↦ ?_, rfl⟩
    cases hoverlooked with
    | late hfailed => cases hsound.symm.trans hfailed
    | ending hblind hlast => exact hmore hlast
  | ending hsound hblind hlast =>
    rw [hsound]
    exact .inr ⟨.ending hblind hlast, rfl⟩
  | failing hsound hblind hback =>
    rw [hsound]
    exact .inr ⟨.failing hblind, rfl⟩
  | late hfailed hback =>
    rw [hfailed]
    exact .inr ⟨.late hfailed, rfl⟩

end Staging

namespace Session

variable {s t : Session ε σ} {mode : Mode} {runner : Option String} {schedule : Schedule}
  {w last : World ε σ} {result : Except (Halt FlowError) Report}

/-- An executed graph has an instance for each node. -/
theorem staging_fits (hsound : s.roster.Sound w) (mode : Mode) (g : Graph ε σ) (found : Runner)
    (schedule : Schedule) (hexecutes : found.executes = true) :
    ∀ id < g.nodes.length,
      ∃ actor, (s.staging mode g found schedule w).context.binding[id]? = some actor := by
  intro id hid
  rcases Roster.engaged (s.sound_base hsound mode) found g with ⟨-, hbound⟩ | ⟨hdraws, -⟩
  · exact ⟨_, List.getElem?_eq_getElem (hbound.length ▸ hid)⟩
  · rw [hdraws] at hexecutes
    cases hexecutes

/-- A session that is cancelled while it is invoked was cancelled while a node of the run worked,
after which the run winds up. It reports the cancellation, unless the runner overlooks it; then it
reports the first failure, or succeeds. A training that does not succeed leaves roster and instances
as they were. -/
theorem cancelled_iff_not_overlooked [Inhabited σ] (hs : s.Reachable w)
    (hinvoke : Action.result (s.invoke mode runner schedule) w = ((result, t), last))
    (hcancel : w.environment.cancellations s.number < last.environment.cancellations s.number) :
    ∃ r front id outcome back, s.staging? mode runner schedule w = some r ∧
      r.events = front ++ .ended id outcome :: back ∧
      CancelledDuring r.graph r.context r.world last front id outcome back ∧
      r.runner.WindsUp schedule front back ∧
      (result = .error (.error .cancelled) ↔ ¬ r.Overlooked front outcome) ∧
      (r.Overlooked front outcome → Halt.of? result =
        (Event.firstFailure? (front ++ [.ended id outcome])).map r.runner.reported) ∧
      (mode = .train → (∀ report, result ≠ .ok report) → t.roster = s.roster ∧ w.Kept last) := by
  obtain ⟨hsound, hfaithful⟩ := hs.invariant
  cases invoked hfaithful mode runner schedule w with
  | refused hstaging hresult hquiet hreason =>
    obtain ⟨-, rfl⟩ := Prod.mk.inj (hresult.symm.trans hinvoke)
    rw [hquiet.environment] at hcancel
    exact absurd hcancel (Nat.lt_irrefl _)
  | @ran r graphs start hstaging hresult hrunner hbuild hquiet hr hready =>
    obtain ⟨hreported, rfl⟩ := Prod.mk.inj (hresult.symm.trans hinvoke)
    obtain ⟨rfl, rfl⟩ := Prod.mk.inj hreported
    have hsound' : s.roster.Sound start :=
      hsound.grow (Nat.le_of_eq (congrArg Array.size hquiet.instances.symm))
    have henvironment := environment_staging hsound' mode r.graph r.runner schedule
    have hbinding := staging_fits hsound' mode r.graph r.runner schedule
    rw [← hr] at henvironment hbinding
    have hcancelled : ∀ env, r.context.cancelled env =
        decide (w.environment.cancellations s.number < env.cancellations s.number) := by
      intro env
      rw [← hquiet.environment, ← henvironment, hr]
      rfl
    obtain ⟨front, id, outcome, back, hevents, hduring, hsettled⟩ :=
      Runner.settled (sound_of_build hbuild) hbinding
        (by rw [hcancelled, henvironment, hquiet.environment]; simp) (rfl : _ = (r.ended.1, r.ended.2))
        (by rw [hcancelled]; exact decide_eq_true hcancel)
    have hwinds := hsettled.windsUp
    have hschedule : r.context.schedule = schedule := hr ▸ rfl
    rw [hschedule] at hwinds
    have hreport := r.runner.reported_failure_ne hduring
    refine ⟨r, front, id, outcome, back, hstaging, hevents, hduring, hwinds, ?_, ?_, ?_⟩
    · rw [Halt.eq_error_iff]
      rcases r.noticed_or_overlooked hsettled id with ⟨hnot, hhalt⟩ | ⟨hoverlooked, hhalt⟩
      · exact iff_of_true hhalt hnot
      · exact iff_of_false (hhalt ▸ hreport) (not_not_intro hoverlooked)
    · exact fun hoverlooked ↦ (r.noticed_or_overlooked hsettled id).elim
        (fun h ↦ absurd hoverlooked h.1) And.right
    · rintro rfl hfails
      have hkept := kept_ended hsound' hbuild r.runner schedule
      rw [← hr] at hkept
      refine ⟨?_, (World.Quiet.kept hquiet).trans hkept⟩
      cases hended : r.ended.1 with
      | error halt => exact s.keeping_train_of_error hended
      | ok report => exact absurd hended (hfails report)

/-- An actor that cancels session 0 and gives this. -/
def quitter (inputs : Nat) (given : Payload) : Spec Unit Payload where
  name := "quitter"
  behavior := .stateless fun _ env ↦ (.ok given, env.cancel 0)
  arity := ⟨inputs, 1⟩

/-- A session that trains a keeper on a runner, with these actors at its ends. -/
def ending (runner : Runner) (producer receiver : Spec Unit Payload) : Session Unit Payload :=
  Runtime.launch ⟨{ runners := [runner] }, fun _ ↦ .ok producer, fun _ ↦ receiver⟩ 0
    ⟨⟨"rows", some "y"⟩, ⟨0, .mapper Distributed.keeper⟩, none⟩

/-- The frame of one row that the keeper is trained on. -/
def trainingFrame : Payload :=
  .frame ⟨["x", "y"], [[.int 1, .text "a"]]⟩

/-- A session whose receiver cancels it. -/
def cancelledAtEnd (runner : Runner) : Session Unit Payload :=
  ending runner { name := "rows", behavior := .pure fun _ ↦ .ok trainingFrame, arity := ⟨0, 1⟩ }
    (quitter 1 trainingFrame)

/-- A session whose producer cancels it. -/
def cancelledAtStart : Session Unit Payload :=
  ending .sequential (quitter 0 trainingFrame) Builtin.collector

/-- How the training of a session ends. -/
def trainedOnce (s : Session Unit Payload) :
    (Except (Halt FlowError) Report × Session Unit Payload) × World Unit Payload :=
  Action.result (s.invoke .train none .inOrder) (World.new ())

theorem result_trainedOnce (s : Session Unit Payload) :
    Action.result (s.invoke .train none .inOrder) (World.new ()) =
      (((trainedOnce s).1.1, (trainedOnce s).1.2), (trainedOnce s).2) := rfl

/-- How often session 0 is cancelled while it is trained. -/
def cancellationsOnce (s : Session Unit Payload) : Nat :=
  (trainedOnce s).2.environment.cancellations 0

/-- The run says that it was cancelled. -/
def reportsCancellation (result : Except (Halt FlowError) Report) : Bool :=
  match result with
  | .error (.error .cancelled) => true
  | _ => false

theorem reportsCancellation_iff {result : Except (Halt FlowError) Report} :
    reportsCancellation result = true ↔ result = .error (.error .cancelled) := by
  unfold reportsCancellation
  split <;> simp_all

/-- A cancellation is not always reported: the last node cancels the session, and the training
succeeds. -/
theorem cancellation_not_always_reported :
    ¬ ∀ (s t : Session Unit Payload) (w last : World Unit Payload) (mode : Mode)
        (runner : Option String) (schedule : Schedule) (result : Except (Halt FlowError) Report),
      s.Reachable w → Action.result (s.invoke mode runner schedule) w = ((result, t), last) →
      w.environment.cancellations s.number < last.environment.cancellations s.number →
      result = .error (.error .cancelled) ∧ (mode = .train → t.roster = s.roster) := by
  intro halways
  have hcancel : 0 < cancellationsOnce (cancelledAtEnd .sequential) := by decide +kernel
  obtain ⟨hreported, -⟩ := halways _ _ _ _ _ _ _ _ (.launch _ _ _ _)
    (result_trainedOnce (cancelledAtEnd .sequential)) hcancel
  have hsucceeds : (trainedOnce (cancelledAtEnd .sequential)).1.1.isOk = true := by decide +kernel
  rw [hreported] at hsucceeds
  cases hsucceeds

/-- On the distributed runner the same training reports the cancellation, unless it is missed. -/
example :
    reportsCancellation (trainedOnce (cancelledAtEnd (.distributed 1))).1.1 = true ∧
      reportsCancellation (Action.result ((cancelledAtEnd (.distributed 1)).invoke .train none
        { Schedule.inOrder with missed := fun _ ↦ true }) (World.new ())).1.1 = false := by
  decide +kernel

/-- When the source cancels the session, the training reports it: the source is neither the last
node nor does it fail. -/
theorem cancelled_iff_not_overlooked_source :
    0 < cancellationsOnce cancelledAtStart ∧
      (trainedOnce cancelledAtStart).1.1 = .error (.error .cancelled) ∧
      ∃ r front id outcome back,
        cancelledAtStart.staging? .train none .inOrder (World.new ()) = some r ∧
        r.events = front ++ .ended id outcome :: back ∧
        ¬ r.Overlooked front outcome := by
  have hcancel : 0 < cancellationsOnce cancelledAtStart := by decide +kernel
  have hcancelled := reportsCancellation_iff.mp
    (by decide +kernel : reportsCancellation (trainedOnce cancelledAtStart).1.1 = true)
  obtain ⟨r, front, id, outcome, back, hstaging, hevents, -, -, hiff, -⟩ :=
    cancelled_iff_not_overlooked (.launch _ _ _ _) (result_trainedOnce cancelledAtStart) hcancel
  exact ⟨hcancel, hcancelled, r, front, id, outcome, back, hstaging, hevents, hiff.mp hcancelled⟩

end Session

end Dataflow
