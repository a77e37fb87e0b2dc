import DebugAdapter.Proofs.Session.Alternation

/-!
What occurs in a session to a stop that the client asks for. The chronicle of a run tells in order
when a stop is asked for, and what the lines come to that get to run; whatever else happens to the
threads of the program is told of beside them.
-/
namespace DebugAdapter

open Execution (StopReason LineGate)

inductive Occurrence where
  /-- A pause is accepted, or the program is let go and is to stop on entry. -/
  | asks (reason : StopReason)
  | line (thread line : Nat) (source : Source.Resolved) (gate : LineGate)
  | frame (thread : Nat)
  | raises (thread : Nat)

namespace Occurrence

/-- What is still asked for afterwards: a line outside of skipped files takes it up. -/
def leaves (pending : Option StopReason) : Occurrence → Option StopReason
  | .asks reason => some reason
  | .line _ _ source _ => if source.skipped then pending else none
  | .frame _ | .raises _ => pending

/-- A line in a skipped file does nothing, and any other one stops for what is asked for. -/
def Due (pending : Option StopReason) : Occurrence → Prop
  | .line _ _ source gate =>
    if source.skipped then gate = .suppressed
    else match pending with
      | some reason => gate = .stop reason
      | none => ∀ reason, gate = .stop reason → reason = .step
  | _ => True

def Spares : Occurrence → Prop
  | .asks _ => False
  | .line _ _ source _ => source.skipped = true
  | .frame _ | .raises _ => True

def stop? : Occurrence → Option (Nat × StopReason)
  | .line thread _ _ (.stop reason) => some (thread, reason)
  | .raises thread => some (thread, .exception)
  | _ => none

end Occurrence

def outstanding (occurrences : List Occurrence) : Option StopReason :=
  occurrences.foldl Occurrence.leaves none

namespace Session

/-- What a call comes to that goes on, unless it has to wait. -/
def going (session : Session) (call : Call) : List Occurrence :=
  let control := session.debugger.control
  match call.errand with
  | .exception _ =>
    match control.beginStop call.thread .exception with
    | some (_, true) => [.raises call.thread]
    | _ => []
  | .line line source =>
    match control.lineGate call.thread call.interpreter.depth source.skipped with
    | none | some (_, .terminated) => []
    | some (_, gate) => [.line call.thread line source gate]

def goingAll (session : Session) : List Call → List Occurrence
  | [] => []
  | call :: rest => session.going call ++ goingAll (session.proceed call) rest

def settling (session : Session) : List Occurrence :=
  if session.isTerminated then []
  else if session.debugger.control.stopper.isSome
      ∨ session.debugger.control.state = .initializing then []
  else
    let woken := session.modifyDebugger fun debugger => session.blocked.foldl wake debugger
    { woken with blocked := [] }.goingAll session.blocked

def entering (session : Session) (call : Call) : List Occurrence :=
  match session.debugger.control.waitUntilRunnable call.thread with
  | some true => (session.modifyDebugger (wake · call)).going call
  | _ => []

/-- A line that is passed by at once gets to run as well. -/
def hooking (session : Session) (handle : Nat) (interpreter : Interpreter) (event : HookEvent) :
    List Occurrence :=
  let quick := session.debugger.control.quick
  if quick = .terminated then []
  else
    let (session, thread) := session.findOrAttach handle
    match event with
    | .call | .return_ => [.frame thread.id]
    | .line line =>
      let (resolving, source) := session.resolve interpreter
      if passesBy session.debugger quick interpreter.chunk line then
        [.line thread.id line source (if source.skipped then .suppressed else .breakpoints)]
      else
        resolving.entering { handle, thread := thread.id, interpreter, errand := .line line source }

def raising (session : Session) (handle : Nat) (interpreter : Interpreter)
    (record : ExceptionRecord) : List Occurrence :=
  let (session, thread) := session.attach handle
  session.entering { handle, thread := thread.id, interpreter, errand := .exception record }

def calling (session : Session) (handle : Nat) (run : Session → Session)
    (first : List Occurrence) : List Occurrence :=
  if session.isStoppedAt handle || session.isBlockedAt handle then []
  else first ++ (run session).settling

def lining (session : Session) (handle : Nat) : List (Interpreter × Nat) → List Occurrence
  | [] => []
  | (interpreter, line) :: rest =>
    let here := session.calling handle (·.hook handle interpreter (.line line))
      (session.hooking handle interpreter (.line line))
    match session.call handle (·.hook handle interpreter (.line line)) with
    | (session, .done) => here ++ lining session handle rest
    | _ => here

def pauses (session : Session) (request : Request) : Bool :=
  request.kind = .request && Command.ofName? request.command = some (.control .pause)
    && (Arguments.read? Arguments.thread request).isSome
    && session.debugger.control.requestPause.isSome

def asking (session : Session) (request : Request) : List Occurrence :=
  let after := (session.handle request).1.debugger
  if session.pauses request then [.asks .pause]
  else if session.debugger.control.state = .initializing ∧ after.control.state = .running
      ∧ after.stopOnEntry then [.asks .entry]
  else []

def askingAll (session : Session) : List Request → List Occurrence
  | [] => []
  | request :: rest => session.asking request ++ askingAll (session.handle request).1 rest

def batching (session : Session) (requests : List Request) : List Occurrence :=
  match requests with
  | [] => []
  | first :: rest =>
    match session.busyWith? first with
    | some stop =>
      let inspected := session.debugger.inspect stop ⟨first, .evaluate⟩
      let noted := session.note inspected.callbacks
      let answered := (noted.handleAll rest).1.answer first (inspected.outcome.map (·.body))
      noted.askingAll rest ++ answered.serve.settling
    | none => session.askingAll requests ++ (session.handleAll requests).1.serve.settling

def occurring (session : Session) : Step → List Occurrence
  | .request request => session.asking request ++ (session.handle request).1.serve.settling
  | .batch requests => session.batching requests
  | .hook handle interpreter event =>
    session.calling handle (·.hook handle interpreter event)
      (session.hooking handle interpreter event)
  | .lines handle places => session.lining handle places
  | .exception handle interpreter kind message =>
    session.calling handle (·.exception handle interpreter kind message)
      (if session.isTerminated || !session.debugger.exceptionFilters.contains kind.filter then []
        else session.raising handle interpreter {
          kind := kind.filter
          message := session.debugger.mapping.exceptionMessage message
          fatal := false })
  | .panic handle interpreter message =>
    session.calling handle (·.panic handle interpreter message)
      (if session.isTerminated then []
        else session.raising handle interpreter {
          kind := "panic"
          message := session.debugger.mapping.exceptionMessage message
          fatal := true })
  | _ => []

def chronicle (session : Session) : List Step → List Occurrence
  | [] => []
  | step :: rest => session.occurring step ++ chronicle (session.perform step).1 rest

/-- The stops that the client is told of, but for those at breakpoints. -/
def stopsTold (messages : List Message) : List (Nat × StopReason) :=
  (marks messages).filterMap fun
    | .stopped thread reason => if reason = .breakpoint then none else some (thread, reason)
    | _ => none

variable {session middle next : Session} {occurred later : List Occurrence}

/-- From one session to the next this has occurred: whatever was asked for was taken up by the first
line that could, what is still asked for is pending, and the client was told of each stop. -/
structure Tells (session next : Session) (occurred : List Occurrence) : Prop where
  due : ∀ before occurrence after, occurred = before ++ occurrence :: after →
    occurrence.Due (before.foldl Occurrence.leaves session.debugger.control.pending)
  left : next.debugger.control.state ≠ .terminated → next.debugger.control.pending =
    occurred.foldl Occurrence.leaves session.debugger.control.pending
  told : ∃ sent, next.outbox = session.outbox ++ sent ∧
    stopsTold sent = occurred.filterMap Occurrence.stop?
  live : next.debugger.control.state ≠ .terminated →
    session.debugger.control.state ≠ .terminated
  closed : session.debugger.control.state = .terminated → occurred = []

theorem stopsTold_append (messages others : List Message) :
    stopsTold (messages ++ others) = stopsTold messages ++ stopsTold others := by
  rw [stopsTold, marks_append, List.filterMap_append, stopsTold, stopsTold]

namespace Tells

theorem refl (session : Session) : Tells session session [] :=
  ⟨by simp, fun _ => rfl, ⟨[], (List.append_nil _).symm, rfl⟩, id, fun _ => rfl⟩

theorem trans (first : Tells session middle occurred) (last : Tells middle next later) :
    Tells session next (occurred ++ later) := by
  refine ⟨fun before occurrence after split => ?_, fun live => ?_, ?_, fun live => ?_,
    fun closed => ?_⟩
  · have begins (between : List Occurrence) (whole : before = occurred ++ between)
        (same : later = between ++ occurrence :: after) :
        occurrence.Due (before.foldl Occurrence.leaves session.debugger.control.pending) := by
      have running : middle.debugger.control.state ≠ .terminated := fun closed => by
        simp [last.closed closed] at same
      rw [whole, List.foldl_append, ← first.left running]
      exact last.due between occurrence after same
    rcases List.append_eq_append_iff.mp split with ⟨between, whole, same⟩ | ⟨between, whole, same⟩
    · exact begins between whole same
    · cases between with
      | nil => exact begins [] (by simp [whole]) same.symm
      | cons other between =>
        obtain ⟨rfl, -⟩ := List.cons.inj same
        exact first.due before occurrence between whole
  · rw [List.foldl_append, ← first.left (last.live live), last.left live]
  · obtain ⟨sent, outbox, told⟩ := first.told
    obtain ⟨also, outboxAfter, toldAfter⟩ := last.told
    refine ⟨sent ++ also, by rw [outboxAfter, outbox, List.append_assoc], ?_⟩
    rw [stopsTold_append, told, toldAfter, List.filterMap_append]
  · exact first.live (last.live live)
  · have ended : middle.debugger.control.state = .terminated := by_contra fun live =>
      first.live live closed
    rw [first.closed closed, last.closed ended, List.append_nil]

end Tells

end Session
end DebugAdapter
