import DebugAdapter.Proofs.Session.Calling

/-! What becomes of a call that goes on: it waits behind the thread that is stopped, it returns, or
its own thread stops. -/
namespace DebugAdapter.Session

open Execution (StopReason)

/-- A line was looked at: the interpreter may have been asked, the client told, and a breakpoint
hit. -/
def Looked (session next : Session) : Prop :=
  ∃ breakpoints callbacks outbox, next = { session with
    debugger := { session.debugger with breakpoints }, callbacks, outbox }

inductive Goes (session : Session) (call : Call) : Session → Prop where
  | waits : session.debugger.control.heldByOther call.thread = true →
      Goes session call (session.block call)
  | returns {middle : Session} : Looked session middle →
      (∃ line source, call.errand = .line line source) →
      Goes session call (middle.finish call.handle none)
  | stops {middle : Session} (reason : StopReason) (exception : Option ExceptionRecord)
      (control : Execution.Control) : Looked session middle →
      session.debugger.control.Enters call.thread reason control →
      Goes session call ((middle.modifyDebugger fun debugger => { debugger with control }).stop
        call reason exception)

variable {session middle next : Session} {call : Call}

theorem Looked.refl (session : Session) : Looked session session :=
  ⟨session.debugger.breakpoints, session.callbacks, session.outbox, rfl⟩

theorem Looked.trans (first : Looked session middle) (last : Looked middle next) :
    Looked session next := by
  obtain ⟨_, _, _, rfl⟩ := first
  obtain ⟨breakpoints, callbacks, outbox, rfl⟩ := last
  exact ⟨breakpoints, callbacks, outbox, rfl⟩

theorem Looked.control (looked : Looked session next) :
    next.debugger.control = session.debugger.control := by
  obtain ⟨_, _, _, rfl⟩ := looked
  rfl

theorem leave_line {line : Nat} {source : Source.Resolved} (errand : call.errand = .line line source) :
    session.leave call = session.finish call.handle none := by
  simp only [leave, errand]

theorem checkCondition_looked (session : Session) (interpreter : Interpreter)
    (condition : Option String) :
    Looked session (session.checkCondition interpreter condition).1 := by
  cases condition with
  | none => exact .refl session
  | some expression =>
    simp only [checkCondition]
    split
    · exact ⟨_, _, _, rfl⟩
    · exact ⟨_, _, _, rfl⟩

theorem beginStop_free (live : session.debugger.control.state ≠ .terminated)
    (unheld : session.debugger.control.heldByOther call.thread = false) (reason : StopReason)
    (exception : Option ExceptionRecord) :
    session.beginStop call reason exception = (session.modifyDebugger fun debugger =>
      { debugger with control := debugger.control.enterStop call.thread reason }).stop call reason
        exception := by
  have enters := Execution.Control.beginStop_eq_true.mpr
    ⟨live, unheld, (rfl : session.debugger.control.enterStop call.thread reason = _)⟩
  simp only [beginStop, enters, modifyDebugger]

/-- A visit to a line ends with its return, or with a stop at a breakpoint. -/
theorem visit_spec (live : session.debugger.control.state ≠ .terminated)
    (unheld : session.debugger.control.heldByOther call.thread = false) {line : Nat}
    {source : Source.Resolved} (errand : call.errand = .line line source) :
    ∃ middle, Looked session middle ∧
      (session.visit call line source = middle.finish call.handle none ∨
        session.visit call line source = (middle.modifyDebugger fun debugger => { debugger with
          control := session.debugger.control.enterStop call.thread .breakpoint }).stop call
            .breakpoint none) := by
  unfold visit
  split
  · exact ⟨session, .refl session, Or.inl (leave_line errand)⟩
  · rename_i breakpoint _
    have asked := checkCondition_looked session call.interpreter breakpoint.action.condition
    generalize session.checkCondition call.interpreter breakpoint.action.condition = checked
      at asked ⊢
    obtain ⟨asking, holds⟩ := checked
    dsimp only at asked ⊢
    split
    · exact ⟨asking, asked, Or.inl (leave_line errand)⟩
    · have counted : Looked asking (asking.modifyDebugger fun debugger => { debugger with
          breakpoints := (asking.debugger.breakpoints.recordHit source.key line).1 }) :=
        ⟨_, _, _, rfl⟩
      have hit := asked.trans counted
      split
      · exact ⟨_, hit, Or.inl (leave_line errand)⟩
      · split
        · exact ⟨_, hit.trans ⟨_, _, _, rfl⟩, Or.inl (leave_line errand)⟩
        · refine ⟨_, hit, Or.inr ?_⟩
          have same := hit.control
          rw [beginStop_free (same ▸ live) (same ▸ unheld)]
          simp only [modifyDebugger] at same ⊢
          rw [same]

theorem beginStop_goes (live : session.debugger.control.state ≠ .terminated) (reason : StopReason)
    (exception : Option ExceptionRecord) :
    Goes session call (session.beginStop call reason exception) := by
  cases held : session.debugger.control.heldByOther call.thread with
  | true =>
    have waits : session.debugger.control.beginStop call.thread reason = none := by
      simp [Execution.Control.beginStop, live, held]
    simp only [beginStop, waits]
    exact .waits held
  | false =>
    rw [beginStop_free live held]
    exact .stops reason exception _ (.refl session) (.own reason)

/-- Once the program runs, every call that goes on waits, returns or stops. -/
theorem proceed_goes (begun : session.debugger.control.state ≠ .initializing)
    (live : session.debugger.control.state ≠ .terminated) :
    Goes session call (session.proceed call) := by
  unfold proceed
  split
  · exact beginStop_goes live .exception _
  · rename_i line source errand
    dsimp only
    split
    · rename_i waits
      refine .waits ?_
      simpa [Execution.Control.lineGate, live, Execution.Control.blocks, begun] using waits
    · rename_i control gate passed
      rcases Execution.Control.lineGate_spec passed with ⟨ends, _, _⟩ | ⟨free, answers⟩
      · exact absurd ends live
      · have unheld : session.debugger.control.heldByOther call.thread = false := by
          have unblocked := (Execution.Control.waitUntilRunnable_eq_true.mp free).2
          exact (Bool.or_eq_false_iff.mp unblocked).2
        cases gate with
        | stop reason => exact .stops reason none control (.refl session) answers.1
        | breakpoints =>
          cases answers
          obtain ⟨middle, looked, same | same⟩ := visit_spec live unheld errand
          · exact same ▸ .returns looked ⟨line, source, errand⟩
          · exact same ▸ .stops .breakpoint none _ looked (.own .breakpoint)
        | suppressed =>
          cases answers
          exact (leave_line errand : session.leave call = _) ▸
            .returns (.refl session) ⟨line, source, errand⟩
        | terminated => exact answers.elim

namespace Goes

theorem live (goes : Goes session call next)
    (live : session.debugger.control.state ≠ .terminated) :
    next.debugger.control.state ≠ .terminated := by
  cases goes with
  | waits => exact live
  | returns looked =>
    obtain ⟨_, _, _, rfl⟩ := looked
    exact live
  | stops reason exception control looked enters =>
    change control.state ≠ _
    simp [enters.state]

theorem begun (goes : Goes session call next)
    (begun : session.debugger.control.state ≠ .initializing) :
    next.debugger.control.state ≠ .initializing := by
  cases goes with
  | waits => exact begun
  | returns looked =>
    obtain ⟨_, _, _, rfl⟩ := looked
    exact begun
  | stops reason exception control looked enters =>
    change control.state ≠ _
    simp [enters.state]

theorem held (goes : Goes session call next)
    (held : session.debugger.control.stopper.isSome) : next.debugger.control.stopper.isSome := by
  cases goes with
  | waits => exact held
  | returns looked =>
    obtain ⟨_, _, _, rfl⟩ := looked
    exact held
  | stops reason exception control looked enters =>
    change control.stopper.isSome
    simp [enters.stopper]

theorem blocked (goes : Goes session call next)
    (unheld : session.debugger.control.heldByOther call.thread = false) :
    next.blocked = session.blocked := by
  cases goes with
  | waits held => simp [held] at unheld
  | returns looked | stops _ _ _ looked =>
    obtain ⟨_, _, _, rfl⟩ := looked
    rfl

/-- If nobody is stopped afterwards, the call was on a line and has returned. -/
theorem unheld (goes : Goes session call next) (free : next.debugger.control.stopper = none) :
    (∃ line source, call.errand = .line line source) ∧
      ∃ middle, Looked session middle ∧ next = middle.finish call.handle none := by
  cases goes with
  | waits held =>
    change session.debugger.control.stopper = none at free
    simp [Execution.Control.heldByOther, free] at held
  | returns looked line => exact ⟨line, _, looked, rfl⟩
  | stops reason exception control looked enters =>
    change control.stopper = none at free
    simp [enters.stopper] at free

end Goes

end DebugAdapter.Session
