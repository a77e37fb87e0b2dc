import DebugAdapter.Proofs.Execution.Contention
import DebugAdapter.Proofs.Session.Ending

/-! Lines that are passed by at once could as well be looked at: as long as the session lasts,
nobody can tell the difference. -/
namespace DebugAdapter

def Interpreter.blank (chunk : List UInt8) (depth : Nat) : Interpreter where
  chunk
  depth
  stackFrames := []
  scopes := fun _ => .ok []
  children := fun _ => .ok []
  evaluate := fun _ _ => .ok { value := "nil", type? := none, reference := 0 }

namespace Session

/-- A line without the check in passing: its thread is attached, and the line is looked at. -/
def attendLine (session : Session) (handle : Nat) (interpreter : Interpreter) (line : Nat) : Session :=
  let (session, thread) := session.findOrAttach handle
  session.visitLine handle thread.id interpreter line

variable {session : Session} {call : Call}

theorem resolve_known {interpreter : Interpreter} {source : Source.Resolved}
    (known : session.debugger.sources.find? interpreter.chunk = some source) :
    session.resolve interpreter = (session, source) := by
  simp only [resolve, Debugger.resolve, known, note, emit, send, List.map_nil, List.append_nil]

theorem wake_awake {debugger : Debugger}
    (awake : ∀ thread ∈ debugger.registry.threads, thread.phase ≠ .suspended) :
    wake debugger call = debugger := by
  unfold wake
  split
  · rfl
  · rw [Debugger.modifyThread, Registry.modify, Registry.update_eq_self]
    intro thread member
    simp [awake thread member]

theorem Rested.unsuspended (rested : session.Rested) (valid : session.debugger.control.Valid)
    (running : session.debugger.control.quick = .running) :
    ∀ thread ∈ session.debugger.registry.threads, thread.phase ≠ .suspended := by
  obtain ⟨state, _, _, free⟩ := valid.idle running
  intro thread member suspended
  obtain ⟨call, waits, _⟩ := rested.awake (by simp [state]) free thread member suspended
  rcases rested.held (List.ne_nil_of_mem waits) with held | held
  · simp [free] at held
  · simp [state] at held

theorem enter_free (free : session.Free call)
    (awake : ∀ thread ∈ session.debugger.registry.threads, thread.phase ≠ .suspended) :
    session.enter call = session.proceed call := by
  have runs : session.debugger.control.waitUntilRunnable call.thread = some true := free
  simp only [enter, runs, wake_awake awake, modifyDebugger]

theorem enter_passes (valid : session.debugger.control.Valid)
    (running : session.debugger.control.quick = .running)
    (awake : ∀ thread ∈ session.debugger.registry.threads, thread.phase ≠ .suspended)
    {line : Nat} {source : Source.Resolved} (errand : call.errand = .line line source)
    (pass : source.skipped = true ∨ session.debugger.breakpoints.get? source.key line = none) :
    session.enter call = session.finish call.handle none := by
  obtain ⟨free, _, open_⟩ := valid.unhindered running call.thread
  obtain ⟨live, unblocked⟩ := Execution.Control.waitUntilRunnable_eq_true.mp free
  rw [enter_free free awake]
  simp only [proceed, errand, modifyDebugger]
  cases skipped : source.skipped with
  | true =>
    have gate : session.debugger.control.lineGate call.thread call.interpreter.depth true =
        some (session.debugger.control, .suppressed) := by
      simp [Execution.Control.lineGate, live, unblocked, Execution.Control.passLine]
    simp only [gate]
    exact leave_line errand
  | false =>
    have unset := pass.resolve_left (by simp [skipped])
    simp only [open_, visit, unset]
    exact leave_line errand

theorem findOrAttach_rested (rested : session.Rested) (handle : Nat) :
    (session.findOrAttach handle).1.Rested ∧
      (session.findOrAttach handle).1.debugger.control = session.debugger.control := by
  obtain ⟨awake, control⟩ := findOrAttach_awake rested.awake handle
  refine ⟨rested.still awake ?_ (by rw [control]) (by rw [control]; exact id), control⟩
  unfold findOrAttach
  split <;> rfl

theorem hook_attends (valid : session.debugger.control.Valid) (rested : session.Rested)
    (live : session.debugger.control.state ≠ .terminated) (handle : Nat)
    (interpreter : Interpreter) (line : Nat) :
    session.hook handle interpreter (.line line) = session.attendLine handle interpreter line := by
  have lasts : session.debugger.control.quick ≠ .terminated := by
    simpa [Execution.Control.isTerminated] using valid.terminated_iff.not.mpr live
  obtain ⟨attached, control⟩ := findOrAttach_rested rested handle
  simp only [hook, attendLine, lasts, if_false]
  generalize session.findOrAttach handle = known at attached control ⊢
  obtain ⟨attaching, thread⟩ := known
  dsimp only at attached control ⊢
  split
  · rename_i passes
    simp only [passesBy, Bool.and_eq_true, decide_eq_true_eq] at passes
    obtain ⟨running, unstopping⟩ := passes
    rw [← control] at running
    split at unstopping
    · rename_i source known
      have pass : source.skipped = true ∨
          attaching.debugger.breakpoints.get? source.key line = none := by
        simpa [Breakpoint.Table.contains] using unstopping
      simp only [visitLine, resolve_known known]
      symm
      exact enter_passes (control ▸ valid) running
        (attached.unsuspended (control ▸ valid) running) rfl pass
    · contradiction
  · rfl

/-- While a session lasts, a line comes to the same as one without the check in passing: the same
messages, the same state and the same answer to its call. Once the session is over, a line returns
at once, and its thread is not attached. -/
theorem fast_path_invisible (steps : List Step) (handle : Nat) (interpreter : Interpreter)
    (line : Nat) :
    let session := ({} : Session).run steps
    (session.debugger.control.state ≠ .terminated →
      session.hook handle interpreter (.line line) = session.attendLine handle interpreter line ∧
        session.perform (.hook handle interpreter (.line line)) =
          let (after, state) := session.call handle (·.attendLine handle interpreter line)
          (after, .call state)) ∧
      (session.debugger.control.state = .terminated →
        session.hook handle interpreter (.line line) = session.finish handle none) := by
  intro session
  have settled : session.Settled := run_settled steps
  refine ⟨fun live => ?_, fun ends => ?_⟩
  · have same := hook_attends settled.coherent.control (run_rested steps) live handle interpreter line
    refine ⟨same, ?_⟩
    simp only [perform, call, session, same]
  · exact hook_over settled ends handle interpreter (.line line)

/-- A session that is over attaches no thread, so a line is not looked at any more. -/
theorem over_line_unattended :
    ¬∀ steps handle interpreter line,
      (({} : Session).run steps).hook handle interpreter (.line line) =
        (({} : Session).run steps).attendLine handle interpreter line := by
  intro same
  have threads := congrArg (·.debugger.registry.size) (same [.shutdown] 1 (.blank [] 0) 1)
  exact absurd threads (by decide)

end Session
end DebugAdapter
