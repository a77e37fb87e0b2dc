import DebugAdapter.Proofs.Execution.Control

/-! Histories of execution control in which any number of calls wait, and each goes on once it may,
in any order. No such history breaks the coherence of the control. -/
namespace DebugAdapter.Execution

namespace Control
variable {control next : Control} {operation : Operation} {outcome : Outcome}

/-- Initialization is left for good, and so is everything else when the session ends. -/
structure Onward (control next : Control) : Prop where
  started : next.state = .initializing → control.state = .initializing
  ends : control.state = .terminated → next.state = .terminated

theorem Onward.refl (control : Control) : control.Onward control := ⟨id, id⟩

theorem Onward.trans {middle : Control} (first : control.Onward middle)
    (second : middle.Onward next) : control.Onward next :=
  ⟨first.started ∘ second.started, second.ends ∘ first.ends⟩

theorem Enters.onward {thread : Nat} {reason : StopReason}
    (enters : control.Enters thread reason next) (live : control.state ≠ .terminated) :
    control.Onward next :=
  ⟨by simp [enters.state], fun ends => absurd ends live⟩

theorem onward_resume {thread depth : Nat} {step : Option StepKind} (valid : control.Valid)
    (resumed : control.resume thread step depth = some next) : control.Onward next := by
  have held := (resume_eq_some.mp resumed).1
  obtain ⟨reason, stopped⟩ := valid.stopped.mpr (by simp [held])
  have begun := (resume_runs stopped resumed).1
  exact ⟨fun initializing => absurd initializing begun, by simp [stopped]⟩

theorem onward_abandonStep {thread : Nat} (valid : control.Valid)
    (abandoned : control.abandonStep thread = some next) : control.Onward next := by
  obtain ⟨⟨target, armed, _⟩, rfl⟩ := abandonStep_spec valid abandoned
  have stepping := (valid.stepping target.kind).mpr (by simp [armed])
  exact ⟨by simp, by simp [stepping]⟩

theorem attempt_spec {P : Control → Prop} {attempted : Option Control} (callback : Callback)
    (kept : P control) (changed : ∀ next, attempted = some next → P next) :
    P (control.attempt attempted callback).control := by
  cases attempted with
  | none => exact kept
  | some next => exact changed next rfl

/-- What an operation preserves: coherence, and the order in which a session goes on. -/
theorem perform_spec (valid : control.Valid) (performed : control.perform operation = some outcome) :
    outcome.control.Valid ∧ control.Onward outcome.control := by
  have same : control.Valid ∧ control.Onward control := ⟨valid, .refl control⟩
  cases operation with
  | configurationDone stopOnEntry =>
    cases performed
    refine attempt_spec (P := fun next => next.Valid ∧ control.Onward next) _ same ?_
    intro next done
    obtain ⟨initializing, rfl⟩ := configurationDone_eq_some.mp done
    exact ⟨valid_configurationDone valid done, by simp, by simp [initializing]⟩
  | requestPause =>
    cases performed
    refine attempt_spec (P := fun next => next.Valid ∧ control.Onward next) _ same ?_
    intro next paused
    obtain ⟨_, _, rfl⟩ := requestPause_eq_some.mp paused
    exact ⟨valid_requestPause valid paused, id, id⟩
  | waitUntilRunnable thread =>
    obtain ⟨value, _, rfl⟩ := Option.map_eq_some_iff.mp performed
    exact same
  | lineGate thread depth skipped =>
    obtain ⟨⟨next, gate⟩, passed, rfl⟩ := Option.map_eq_some_iff.mp performed
    rcases lineGate_spec passed with ⟨_, _, rfl⟩ | ⟨runnable, answers⟩
    · exact same
    · cases gate with
      | stop reason =>
        exact ⟨answers.1.valid valid, answers.1.onward (waitUntilRunnable_eq_true.mp runnable).1⟩
      | breakpoints | suppressed =>
        cases answers
        exact same
      | terminated => exact answers.elim
  | beginStop thread reason =>
    obtain ⟨⟨next, value⟩, begun, rfl⟩ := Option.map_eq_some_iff.mp performed
    cases value with
    | false =>
      obtain ⟨_, rfl⟩ := beginStop_eq_false.mp begun
      exact same
    | true =>
      obtain ⟨live, _, rfl⟩ := beginStop_eq_true.mp begun
      exact ⟨(Enters.own reason).valid valid, (Enters.own reason).onward live⟩
  | forwardIfStopped thread =>
    simp only [perform] at performed
    split at performed <;> cases performed <;> exact same
  | resume thread step depth =>
    cases performed
    refine attempt_spec (P := fun next => next.Valid ∧ control.Onward next) _ same ?_
    intro next resumed
    exact ⟨valid_resume valid resumed, onward_resume valid resumed⟩
  | abandonStep thread =>
    cases performed
    refine attempt_spec (P := fun next => next.Valid ∧ control.Onward next) _ same ?_
    intro next abandoned
    exact ⟨valid_abandonStep valid abandoned, onward_abandonStep valid abandoned⟩
  | terminate =>
    cases performed
    refine attempt_spec (P := fun next => next.Valid ∧ control.Onward next) _ same ?_
    intro next ended
    obtain ⟨live, rfl⟩ := terminate_eq_some.mp ended
    exact ⟨valid_terminate ended, by simp, by simp⟩

end Control

/-- Execution control with every call that has to wait. -/
structure Contention where
  control : Control := {}
  waiting : List Operation := []

namespace Contention

inductive Event where
  | call (operation : Operation)
  | retry (position : Nat)

/-- A call is completed if it may proceed, and else kept as it is. -/
def step (contention : Contention) : Event → Contention
  | .call operation =>
    match contention.control.perform operation with
    | some outcome => { contention with control := outcome.control }
    | none => { contention with waiting := contention.waiting ++ [operation] }
  | .retry position =>
    match contention.waiting[position]?.bind contention.control.perform with
    | some outcome => ⟨outcome.control, contention.waiting.eraseIdx position⟩
    | none => contention

def run (contention : Contention) (events : List Event) : Contention :=
  events.foldl step contention

variable {contention : Contention}

theorem step_spec (valid : contention.control.Valid) (event : Event) :
    (contention.step event).control.Valid ∧
      contention.control.Onward (contention.step event).control := by
  have same : contention.control.Valid ∧ contention.control.Onward contention.control :=
    ⟨valid, .refl _⟩
  cases event with
  | call operation =>
    simp only [step]
    split
    · rename_i outcome performed
      exact Control.perform_spec valid performed
    · exact same
  | retry position =>
    simp only [step]
    split
    · rename_i outcome performed
      obtain ⟨operation, _, performed⟩ := Option.bind_eq_some_iff.mp performed
      exact Control.perform_spec valid performed
    · exact same

theorem run_spec (valid : contention.control.Valid) (events : List Event) :
    (contention.run events).control.Valid ∧
      contention.control.Onward (contention.run events).control := by
  induction events generalizing contention with
  | nil => exact ⟨valid, .refl _⟩
  | cons event rest ih =>
    obtain ⟨stepValid, first⟩ := step_spec valid event
    obtain ⟨restValid, second⟩ := ih stepValid
    exact ⟨restValid, first.trans second⟩

end Contention

namespace Monitor
variable {monitor : Monitor}

theorem release_spec (valid : monitor.control.Valid) :
    monitor.release.1.control.Valid ∧ monitor.control.Onward monitor.release.1.control := by
  simp only [release]
  split
  · rename_i outcome performed
    obtain ⟨operation, _, performed⟩ := Option.bind_eq_some_iff.mp performed
    exact Control.perform_spec valid performed
  · exact ⟨valid, .refl _⟩

/-- A history in which one call at a time may wait is no different. -/
theorem step_coherent (valid : monitor.control.Valid) (operation : Operation) :
    (monitor.step operation).1.control.Valid ∧
      monitor.control.Onward (monitor.step operation).1.control := by
  simp only [step]
  split
  · rename_i outcome performed
    obtain ⟨nextValid, first⟩ := Control.perform_spec valid performed
    have freed : ({ monitor with control := outcome.control } : Monitor).control.Valid := nextValid
    obtain ⟨releasedValid, second⟩ := release_spec freed
    exact ⟨releasedValid, first.trans second⟩
  · exact release_spec valid

end Monitor

namespace Control
variable {control : Control}

theorem Valid.idle (valid : control.Valid) (running : control.quick = .running) :
    control.state = .running ∧ control.step = none ∧ control.pending = none ∧
      control.stopper = none := by
  have summary := valid.published.symm.trans running
  unfold brief at summary
  split at summary
  · contradiction
  · contradiction
  · rename_i state
    split at summary
    · rename_i idle
      simp only [Bool.and_eq_true, Option.isNone_iff_eq_none] at idle
      exact ⟨state, idle.1.1, idle.1.2, idle.2⟩
    · contradiction
  · contradiction

theorem Valid.unhindered (valid : control.Valid) (running : control.quick = .running)
    (thread : Nat) :
    control.waitUntilRunnable thread = some true ∧
      (∀ reason, ∃ next, control.beginStop thread reason = some (next, true)) ∧
      ∀ depth, control.lineGate thread depth false = some (control, .breakpoints) := by
  obtain ⟨state, step, pending, stopper⟩ := valid.idle running
  have free : control.blocks thread = false := by simp [blocks, heldByOther, state, stopper]
  refine ⟨waitUntilRunnable_eq_true.mpr ⟨by simp [state], free⟩, ?_, ?_⟩
  · intro reason
    exact ⟨_, beginStop_eq_true.mpr ⟨by simp [state], by simp [heldByOther, stopper], rfl⟩⟩
  · intro depth
    simp [lineGate, state, free, passLine, pending, step]

end Control

/-- Whatever is called in whatever order, the stopper is there exactly in a stop and a step exactly
while stepping, the session only goes forward, and the published summary can be relied on. -/
theorem Contention.control_coherent (events : List Contention.Event) :
    let control := (Contention.run {} events).control
    ((∃ reason, control.state = .stopped reason) ↔ control.stopper.isSome) ∧
    (∀ kind, control.state = .stepping kind ↔
      ∃ target, control.step = some target ∧ target.kind = kind) ∧
    (∀ target, control.step = some target → target.kind = .out → 1 ≤ target.depth) ∧
    (control.state = .initializing ∨ control.state = .terminated →
      control.stopper = none ∧ control.step = none) ∧
    (control.state = .terminated → control.pending = none) ∧
    (∀ further, let later := (Contention.run {} (events ++ further)).control
      (later.state = .initializing → control.state = .initializing) ∧
      (control.state = .terminated → later.state = .terminated)) ∧
    control.quick = control.brief ∧
    (control.quick = .running → ∀ thread,
      control.waitUntilRunnable thread = some true ∧
      (∀ reason, ∃ next, control.beginStop thread reason = some (next, true)) ∧
      ∀ depth, control.lineGate thread depth false = some (control, .breakpoints)) := by
  intro control
  have valid : control.Valid := (Contention.run_spec Control.valid_new events).1
  refine ⟨valid.stopped, ?_, valid.caller, ?_, valid.ends, ?_, valid.published, ?_⟩
  · intro kind
    rw [valid.stepping kind, Option.map_eq_some_iff]
  · rintro (initializing | terminated)
    · exact ⟨valid.stopper_none (by simp [initializing]), valid.step_none (by simp [initializing])⟩
    · exact ⟨valid.stopper_none (by simp [terminated]), valid.step_none (by simp [terminated])⟩
  · intro further
    have onward : control.Onward ((Contention.run {} events).run further).control :=
      (Contention.run_spec valid further).2
    simp only [Contention.run, List.foldl_append]
    exact ⟨onward.started, onward.ends⟩
  · exact fun running thread => valid.unhindered running thread

end DebugAdapter.Execution
