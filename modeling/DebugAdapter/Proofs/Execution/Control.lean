import DebugAdapter.Execution.Operation

/-! Coherence of execution control: the state, the stopper, the step and the published summary
always fit together, and each operation says what it changes. -/
namespace DebugAdapter.Execution

/-- The lines that a step passes by: those in deeper calls, and for a step out also those in the same
one. -/
theorem StepKind.reached_eq_false (kind : StepKind) (origin depth : Nat) :
    kind.reached origin depth = false ↔
      (kind = .over ∧ origin < depth) ∨ (kind = .out ∧ origin ≤ depth) := by
  cases kind <;> simp [reached]

namespace Control

/-- The state names the stopper and the step, a step out has a caller to reach, only what the
client may ask for is pending, and the summary is that of the state. -/
structure Valid (control : Control) : Prop where
  stopped : (∃ reason, control.state = .stopped reason) ↔ control.stopper.isSome
  stepping : ∀ kind, control.state = .stepping kind ↔ control.step.map (·.kind) = some kind
  caller : ∀ target, control.step = some target → target.kind = .out → 1 ≤ target.depth
  asked : ∀ reason, control.pending = some reason → reason = .entry ∨ reason = .pause
  ends : control.state = .terminated → control.pending = none
  published : control.quick = control.brief

variable {control next : Control} {thread depth : Nat} {reason : StopReason}

@[simp] theorem publish_state (control : Control) : control.publish.state = control.state := rfl
@[simp] theorem publish_step (control : Control) : control.publish.step = control.step := rfl
@[simp] theorem publish_pending (control : Control) :
    control.publish.pending = control.pending := rfl
@[simp] theorem publish_stopper (control : Control) :
    control.publish.stopper = control.stopper := rfl
@[simp] theorem publish_quick (control : Control) : control.publish.quick = control.brief := rfl

namespace Valid

theorem stopper_none (valid : control.Valid) (free : ∀ reason, control.state ≠ .stopped reason) :
    control.stopper = none := by
  rw [← Option.not_isSome_iff_eq_none, ← valid.stopped]
  rintro ⟨reason, stopped⟩
  exact free reason stopped

theorem step_none (valid : control.Valid) (still : ∀ kind, control.state ≠ .stepping kind) :
    control.step = none := by
  cases armed : control.step with
  | none => rfl
  | some target =>
    have stepping := (valid.stepping target.kind).mpr (by simp [armed])
    exact absurd stepping (still target.kind)

theorem terminated_iff (valid : control.Valid) :
    control.isTerminated = true ↔ control.state = .terminated := by
  simp only [isTerminated, valid.published, brief, decide_eq_true_eq]
  split
  · simp_all
  · simp_all
  · split <;> simp_all
  · simp_all

end Valid

theorem valid_new : ({} : Control).Valid where
  stopped := by simp
  stepping := by simp
  caller := by simp
  asked := by simp
  ends := by simp
  published := rfl

theorem configurationDone_eq_some {stopOnEntry : Bool} :
    control.configurationDone stopOnEntry = some next ↔
      control.state = .initializing ∧ next = publish { control with
        state := .running
        pending := if stopOnEntry then some .entry else control.pending } := by
  simp only [configurationDone]
  split
  · rename_i initializing
    simp [initializing, eq_comm]
  · rename_i started
    simp [started]

theorem valid_configurationDone {stopOnEntry : Bool} (valid : control.Valid)
    (done : control.configurationDone stopOnEntry = some next) : next.Valid := by
  obtain ⟨initializing, rfl⟩ := configurationDone_eq_some.mp done
  have free := valid.stopper_none (by simp [initializing])
  have still := valid.step_none (by simp [initializing])
  refine ⟨by simp [free], by simp [still], by simp [still], ?_, by simp, rfl⟩
  intro reason pending
  simp only [publish_pending] at pending
  split at pending
  · exact Or.inl (Option.some.inj pending).symm
  · exact valid.asked reason pending

theorem requestPause_eq_some :
    control.requestPause = some next ↔
      (∀ reason, control.state ≠ .stopped reason) ∧ control.state ≠ .terminated ∧
        next = publish { control with pending := some .pause } := by
  simp only [requestPause]
  cases control.state <;> simp [eq_comm]

theorem requestPause_keeps (paused : control.requestPause = some next) :
    next.state = control.state ∧ next.stopper = control.stopper := by
  obtain ⟨_, _, rfl⟩ := requestPause_eq_some.mp paused
  exact ⟨rfl, rfl⟩

theorem valid_requestPause (valid : control.Valid) (paused : control.requestPause = some next) :
    next.Valid := by
  obtain ⟨_, live, rfl⟩ := requestPause_eq_some.mp paused
  exact ⟨valid.stopped, valid.stepping, valid.caller, by simp, fun ends => absurd ends live, rfl⟩

theorem valid_enterStop {pending : Option StopReason} (thread : Nat) (reason : StopReason)
    (asked : ∀ reason, pending = some reason → reason = .entry ∨ reason = .pause) :
    ({ control with pending }.enterStop thread reason).Valid := by
  refine ⟨by simp [enterStop], by simp [enterStop], by simp [enterStop], ?_, by simp [enterStop], rfl⟩
  intro other held
  simp only [enterStop, publish_pending] at held
  split at held
  · contradiction
  · exact asked other held

theorem resume_eq_some {step : Option StepKind} :
    control.resume thread step depth = some next ↔
      control.stopper = some thread ∧ next = publish
        (if control.state = .terminated then { control with stopper := none }
          else { control with stopper := none }.arm thread depth step) := by
  simp only [resume]
  split
  · rename_i held
    simp [held, eq_comm]
  · rename_i free
    simp [free]

theorem arm_runs (control : Control) (thread depth : Nat) (step : Option StepKind) :
    (control.arm thread depth step).state = .running ∨
      ∃ kind, step = some kind ∧ (control.arm thread depth step).state = .stepping kind := by
  cases step with
  | none => exact Or.inl rfl
  | some kind =>
    simp only [arm]
    split
    · exact Or.inl rfl
    · exact Or.inr ⟨kind, rfl, rfl⟩

theorem arm_stopper (control : Control) (thread depth : Nat) (step : Option StepKind) :
    (control.arm thread depth step).stopper = control.stopper := by
  cases step with
  | none => rfl
  | some kind =>
    simp only [arm]
    split <;> rfl

theorem arm_pending (control : Control) (thread depth : Nat) (step : Option StepKind) :
    (control.arm thread depth step).pending = control.pending := by
  cases step with
  | none => rfl
  | some kind =>
    simp only [arm]
    split <;> rfl

/-- A thread that is let go runs or steps, and nobody is stopped. -/
theorem resume_runs {step : Option StepKind} (stopped : control.state = .stopped reason)
    (resumed : control.resume thread step depth = some next) :
    next.state ≠ .initializing ∧ next.state ≠ .terminated ∧
      (∀ reason, next.state ≠ .stopped reason) ∧ next.stopper = none := by
  obtain ⟨_, rfl⟩ := resume_eq_some.mp resumed
  rw [if_neg (by simp [stopped])]
  have free := arm_stopper { control with stopper := none } thread depth step
  rcases arm_runs { control with stopper := none } thread depth step with runs | ⟨kind, _, runs⟩
  all_goals exact ⟨by simp [runs], by simp [runs], by simp [runs], free⟩

/-- A step that is granted has a target, unless it leads out of the outermost call. -/
theorem resume_arms {kind : StepKind} (stopped : control.state = .stopped reason)
    (inner : ¬(kind = .out ∧ depth = 0))
    (resumed : control.resume thread (some kind) depth = some next) :
    next.state = .stepping kind ∧ next.step = some ⟨kind, thread, depth⟩ ∧
      next.pending = control.pending := by
  obtain ⟨_, rfl⟩ := resume_eq_some.mp resumed
  rw [if_neg (by simp [stopped]), arm, if_neg inner]
  exact ⟨rfl, rfl, rfl⟩

/-- Stepping out of the outermost call is running on. -/
theorem resume_outermost (control : Control) (thread : Nat) :
    control.resume thread (some .out) 0 = control.resume thread none 0 := by
  simp [resume, arm]

theorem valid_arm (step : Option StepKind) (free : control.stopper = none)
    (still : control.step = none)
    (asked : ∀ reason, control.pending = some reason → reason = .entry ∨ reason = .pause) :
    (control.arm thread depth step).publish.Valid := by
  have plain : ({ control with state := .running } : Control).publish.Valid :=
    ⟨by simp [free], by simp [still], by simp [still], asked, by simp, rfl⟩
  cases step with
  | none => exact plain
  | some kind =>
    simp only [arm]
    split
    · exact plain
    · rename_i reachable
      refine ⟨by simp [free], by simp, ?_, asked, by simp, rfl⟩
      intro target armed out
      simp only [publish_step, Option.some.injEq] at armed
      subst target
      have deep : depth ≠ 0 := fun outermost => reachable ⟨out, outermost⟩
      exact Nat.one_le_iff_ne_zero.mpr deep

theorem valid_resume {step : Option StepKind} (valid : control.Valid)
    (resumed : control.resume thread step depth = some next) : next.Valid := by
  obtain ⟨held, rfl⟩ := resume_eq_some.mp resumed
  obtain ⟨reason, stopped⟩ := valid.stopped.mpr (by simp [held])
  have still := valid.step_none (by simp [stopped])
  rw [if_neg (by simp [stopped])]
  exact valid_arm step rfl still valid.asked

theorem abandonStep_eq_none :
    control.abandonStep thread = none ↔
      ∀ target, control.step = some target → target.thread ≠ thread := by
  simp only [abandonStep]
  cases control.step <;> simp

/-- A step that is armed is the one under way, so without it the program runs. -/
theorem abandonStep_spec (valid : control.Valid)
    (abandoned : control.abandonStep thread = some next) :
    (∃ target, control.step = some target ∧ target.thread = thread) ∧
      next = publish { control with state := .running, step := none } := by
  simp only [abandonStep] at abandoned
  split at abandoned
  · rename_i own
    cases armed : control.step with
    | none => simp [armed] at own
    | some target =>
      have state := (valid.stepping target.kind).mpr (by simp [armed])
      refine ⟨⟨target, rfl, by simpa [armed] using own⟩, ?_⟩
      simpa [state] using abandoned.symm
  · contradiction

theorem valid_abandonStep (valid : control.Valid)
    (abandoned : control.abandonStep thread = some next) : next.Valid := by
  obtain ⟨⟨target, armed, _⟩, rfl⟩ := abandonStep_spec valid abandoned
  have state := (valid.stepping target.kind).mpr (by simp [armed])
  have free := valid.stopper_none (by simp [state])
  exact ⟨by simp [free], by simp, by simp, valid.asked, by simp, rfl⟩

theorem terminate_eq_some :
    control.terminate = some next ↔ control.state ≠ .terminated ∧ next = publish { control with
      state := .terminated, step := none, pending := none, stopper := none } := by
  simp only [terminate]
  split
  · rename_i ends
    simp [ends]
  · rename_i live
    simp [live, eq_comm]

theorem valid_terminate (ended : control.terminate = some next) : next.Valid := by
  obtain ⟨_, rfl⟩ := terminate_eq_some.mp ended
  exact ⟨by simp, by simp, by simp, by simp, by simp, rfl⟩

/-- The ways in which a thread that may run becomes the stopper: it takes up the pending stop, it
completes its step, or it stops for a reason of its own. -/
inductive Enters (control : Control) (thread : Nat) : StopReason → Control → Prop where
  | pending (held : StopReason) : control.pending = some held →
      Enters control thread held ({ control with pending := none }.enterStop thread held)
  | step (target : StepTarget) : control.step = some target → target.thread = thread →
      Enters control thread .step (control.enterStop thread .step)
  | own (cause : StopReason) : Enters control thread cause (control.enterStop thread cause)

namespace Enters

theorem state (enters : control.Enters thread reason next) : next.state = .stopped reason := by
  cases enters <;> rfl

theorem stopper (enters : control.Enters thread reason next) : next.stopper = some thread := by
  cases enters <;> rfl

theorem still (enters : control.Enters thread reason next) : next.step = none := by
  cases enters <;> rfl

theorem valid (enters : control.Enters thread reason next) (valid : control.Valid) :
    next.Valid := by
  cases enters with
  | pending _ held => exact valid_enterStop thread reason (by simp)
  | step => exact valid_enterStop thread .step valid.asked
  | own => exact valid_enterStop thread reason valid.asked

end Enters

theorem waitUntilRunnable_eq_true :
    control.waitUntilRunnable thread = some true ↔
      control.state ≠ .terminated ∧ control.blocks thread = false := by
  simp only [waitUntilRunnable]
  split <;> simp_all

/-- What becomes of the control at a line that its thread may run. -/
def Answers (control : Control) (thread : Nat) (next : Control) : LineGate → Prop
  | .stop reason =>
    control.Enters thread reason next ∧ (control.pending = some reason ∨ reason = .step)
  | .breakpoints | .suppressed => next = control
  | .terminated => False

theorem passLine_spec {skipped : Bool} {gate : LineGate}
    (passed : control.passLine thread depth skipped = (next, gate)) :
    control.Answers thread next gate := by
  unfold passLine at passed
  split at passed
  · cases passed
    rfl
  · split at passed
    · rename_i reason held
      cases passed
      exact ⟨.pending reason held, Or.inl held⟩
    · split at passed
      · rename_i target own
        obtain ⟨armed, same⟩ := Option.filter_eq_some_iff.mp own
        split at passed
        · cases passed
          exact ⟨.step target armed (by simpa using same), Or.inr rfl⟩
        · cases passed
          rfl
      · cases passed
        rfl

/-- A line that needs not wait finds the session over, or does what its gate says. -/
theorem lineGate_spec {skipped : Bool} {gate : LineGate}
    (passed : control.lineGate thread depth skipped = some (next, gate)) :
    (control.state = .terminated ∧ gate = .terminated ∧ next = control) ∨
      (control.waitUntilRunnable thread = some true ∧ control.Answers thread next gate) := by
  simp only [lineGate] at passed
  split at passed
  · rename_i ends
    cases passed
    exact Or.inl ⟨ends, rfl, rfl⟩
  · rename_i live
    split at passed
    · contradiction
    · rename_i free
      exact Or.inr ⟨waitUntilRunnable_eq_true.mpr ⟨live, by simpa using free⟩,
        passLine_spec (Option.some.inj passed)⟩

theorem beginStop_eq_true :
    control.beginStop thread reason = some (next, true) ↔ control.state ≠ .terminated ∧
      control.heldByOther thread = false ∧ next = control.enterStop thread reason := by
  simp only [beginStop]
  split
  · rename_i ends
    simp [ends]
  · rename_i live
    split
    · rename_i held
      simp [held]
    · rename_i free
      simp [live, free, eq_comm]

theorem beginStop_eq_false :
    control.beginStop thread reason = some (next, false) ↔
      control.state = .terminated ∧ next = control := by
  simp only [beginStop]
  split
  · rename_i ends
    simp [ends, eq_comm]
  · rename_i live
    split <;> simp [live]

/-- On the lines of its own thread a step ends or suppresses what else could stop there. -/
theorem passLine_own {target : StepTarget} (unasked : control.pending = none)
    (armed : control.step = some target) (depth : Nat) (skipped : Bool) :
    control.passLine target.thread depth skipped =
      if skipped = true ∨ target.kind.reached target.depth depth = false then
        (control, .suppressed)
      else (control.enterStop target.thread .step, .stop .step) := by
  cases skipped with
  | true => simp [passLine]
  | false =>
    simp only [passLine, unasked, armed, Bool.false_eq_true, if_false, false_or,
      Option.filter_some, decide_true, if_true]
    cases target.kind.reached target.depth depth <;> simp

/-- No thread but this one can complete a step, and nothing else is asked for. -/
structure Reserves (control : Control) (thread : Nat) : Prop where
  unasked : control.pending = none
  owner : ∀ target, control.step = some target → target.thread = thread
  incomplete : control.state ≠ .stopped .step

theorem Reserves.passLine (reserves : control.Reserves thread) {other : Nat}
    (different : other ≠ thread) (depth : Nat) (skipped : Bool) :
    control.passLine other depth skipped =
      (control, if skipped then .suppressed else .breakpoints) := by
  cases skipped with
  | true => simp [Control.passLine]
  | false =>
    have elsewhere : control.step.filter (·.thread = other) = none := by
      refine Option.filter_eq_none_iff.mpr fun target armed => ?_
      simpa [reserves.owner target armed] using different.symm
    simp [Control.passLine, reserves.unasked, elsewhere]

theorem Reserves.enterStop (reserves : control.Reserves thread) (other : Nat)
    (cause : reason ≠ .step) : (control.enterStop other reason).Reserves thread := by
  refine ⟨?_, fun _ armed => by simp [Control.enterStop] at armed, ?_⟩
  · simp [Control.enterStop, reserves.unasked]
  · simpa [Control.enterStop] using cause

/-- A step that is granted is on the thread that is let go. -/
theorem resume_owner {step : Option StepKind} (valid : control.Valid)
    (stopped : control.state = .stopped reason)
    (resumed : control.resume thread step depth = some next) :
    ∀ target, next.step = some target → target.thread = thread := by
  obtain ⟨_, rfl⟩ := resume_eq_some.mp resumed
  have still := valid.step_none (by simp [stopped])
  rw [if_neg (by simp [stopped])]
  intro target armed
  cases step with
  | none => simp [arm, still] at armed
  | some kind =>
    simp only [arm, publish_step] at armed
    split at armed
    · simp [still] at armed
    · cases armed
      rfl

/-- Whatever a thread is let go with, nobody else steps. -/
theorem resume_reserves {step : Option StepKind} (valid : control.Valid)
    (stopped : control.state = .stopped reason)
    (unasked : control.pending = none)
    (resumed : control.resume thread step depth = some next) : next.Reserves thread := by
  refine ⟨?_, resume_owner valid stopped resumed, (resume_runs stopped resumed).2.2.1 .step⟩
  obtain ⟨_, rfl⟩ := resume_eq_some.mp resumed
  rw [if_neg (by simp [stopped]), publish_pending, arm_pending, unasked]

end Control
end DebugAdapter.Execution
