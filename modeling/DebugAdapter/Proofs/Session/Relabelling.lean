import DebugAdapter.Proofs.Session.Raising
import DebugAdapter.Proofs.Session.Stepping

/-! Two sessions that are told the same, one by a client that counts from one and the other by a
client that counts from zero. They go on alike, step by step; lines and columns differ in what the
clients are sent, and nowhere else. -/
namespace DebugAdapter.Session

/-- The session as a client that counts from one has it. -/
def raised (session : Session) : Session :=
  { session with
    debugger := session.debugger.fromOne
    outbox := session.outbox.map .raised }

/-- What the steps of a run return. -/
def results (session : Session) : List Step → List StepResult
  | [] => []
  | step :: rest => (session.perform step).2 :: results (session.perform step).1 rest

/-- A session of a client that counts from one beside the same session of a client that counts from
zero. Calls that have not returned may still be shown, so their lines matter. -/
structure Mirrors (one zero : Session) : Prop where
  debugger : one.debugger.Mirrors zero.debugger
  outbox : one.outbox = zero.outbox.map .raised
  callbacks : one.callbacks = zero.callbacks
  finished : one.finished = zero.finished
  stopped : one.stopped = zero.stopped
  blocked : one.blocked = zero.blocked
  holds : ∀ stop ∈ zero.stopped, stop.call.FromOne
  waits : ∀ call ∈ zero.blocked, call.FromOne

/-- Sessions that mirror one another, with the same result. -/
def Alike (first second : Session × α) : Prop :=
  Mirrors first.1 second.1 ∧ first.2 = second.2

namespace Mirrors

variable {one zero : Session} {first second : Request}

theorem same (m : Mirrors one zero) : one = zero.raised := by
  obtain ⟨⟨debugger, _⟩, outbox, callbacks, finished, stopped, blocked, _, _⟩ := m
  cases one
  cases debugger
  cases outbox
  cases callbacks
  cases finished
  cases stopped
  cases blocked
  rfl

theorem isTerminated (m : Mirrors one zero) : one.isTerminated = zero.isTerminated :=
  m.debugger.reads (·.isTerminated) rfl

theorem withDebugger (m : Mirrors one zero) {debugger other : Debugger}
    (mirrors : debugger.Mirrors other) :
    Mirrors { one with debugger } { zero with debugger := other } :=
  { m with debugger := mirrors }

theorem send (m : Mirrors one zero) {messages others : List Message}
    (same : messages = others.map .raised) : Mirrors (one.send messages) (zero.send others) :=
  { m with outbox := by simp only [Session.send, List.map_append, m.outbox, same] }

theorem emit (m : Mirrors one zero) {events others : List Event}
    (same : events = others.map .raised) : Mirrors (one.emit events) (zero.emit others) :=
  m.send (by rw [same, raised_events])

theorem note (m : Mirrors one zero) {callbacks others : List Callback}
    (same : callbacks = others) : Mirrors (one.note callbacks) (zero.note others) :=
  { m with callbacks := congrArg₂ (· ++ ·) m.callbacks same }

theorem finish (m : Mirrors one zero) (handle : Nat) (value : Option Bool) :
    Mirrors (one.finish handle value) (zero.finish handle value) :=
  { m with finished := congrArg (· ++ [(handle, value)]) m.finished }

theorem answerBoth (m : Mirrors one zero) (seq : first.seq = second.seq)
    (command : first.command = second.command) {outcome other : Except Failure Body}
    (same : outcome = other.map Body.raised) :
    Mirrors (one.answer first outcome) (zero.answer second other) :=
  m.send (by simp only [List.map_cons, List.map_nil, Message.raised, seq, command, same])

theorem answer (m : Mirrors one zero) (request : Request) {outcome other : Except Failure Body}
    (same : outcome = other.map Body.raised) :
    Mirrors (one.answer request outcome) (zero.answer request other) :=
  m.answerBoth rfl rfl same

theorem shutdown (m : Mirrors one zero) : Alike one.shutdown zero.shutdown := by
  obtain ⟨ended, refused, same⟩ := m.debugger.teardown
  refine ⟨?_, same⟩
  simp only [Session.shutdown, same]
  refine ((m.withDebugger ended).send refused).emit ?_
  split <;> rfl

theorem leave (m : Mirrors one zero) (call : Call) :
    Mirrors (one.leave call) (zero.leave call) := by
  simp only [Session.leave]
  split
  · exact m.finish call.handle none
  · split
    · exact m.shutdown.1.finish call.handle none
    · exact m.finish call.handle (some false)

theorem release (m : Mirrors one zero) (stop : Stop) :
    Mirrors (one.release stop) (zero.release stop) := by
  have gone : Mirrors
      ({ one with stopped := none }.modifyDebugger (runThreads · stop.call.thread))
      ({ zero with stopped := none }.modifyDebugger (runThreads · stop.call.thread)) :=
    { m with
      debugger := m.debugger.modify (runThreads · stop.call.thread) rfl rfl rfl rfl
      stopped := rfl
      holds := fun _ held => absurd held (Option.not_mem_none _) }
  simp only [Session.release]
  split
  · exact gone.finish stop.call.handle none
  · split
    · exact gone.shutdown.1.finish stop.call.handle none
    · exact gone.finish stop.call.handle (some true)

theorem resume (m : Mirrors one zero) (stop : Stop) (how : Resume) :
    Mirrors (one.resume stop how) (zero.resume stop how) := by
  simp only [Session.resume, m.debugger.control, m.debugger.queue]
  split
  · rename_i control _
    have moved := m.debugger.modify (fun debugger => { debugger with control, queue := [] })
      rfl rfl rfl rfl
    exact ((m.withDebugger moved).send (Debugger.raised_refusals _ _).symm).release stop
  · exact m.release stop

theorem reply (m : Mirrors one zero) {stop : Stop} (fromOne : stop.call.FromOne)
    (request : Request) {outcome other : Except Failure Reply}
    (agree : Agree Reply.Mirrors outcome other) :
    Mirrors (one.reply stop request outcome) (zero.reply stop request other) := by
  cases agree with
  | error failure => exact m.answer request rfl
  | @ok told shown replies =>
    have moved : Mirrors
        { one with
          debugger := told.debugger
          stopped := some { stop with framesFetched := told.framesFetched } }
        { zero with
          debugger := shown.debugger
          stopped := some { stop with framesFetched := shown.framesFetched } } :=
      { m with
        debugger := replies.debugger
        stopped := by rw [replies.framesFetched]
        holds := fun _ held => Option.some.inj held ▸ fromOne }
    have body : Except.ok told.body =
        (Except.ok shown.body : Except Failure Body).map Body.raised :=
      congrArg Except.ok replies.body
    have answered := (moved.emit replies.events).answer request body
    simp only [Session.reply, replies.resume]
    split
    · rw [replies.framesFetched] at answered ⊢
      exact answered.resume _ _
    · exact answered

theorem serveNext (m : Mirrors one zero) : Mirrors one.serveNext zero.serveNext := by
  simp only [Session.serveNext, m.stopped, m.debugger.queue]
  split
  · rename_i stop deferred rest held _
    have taken := m.debugger.modify (fun debugger => { debugger with queue := rest })
      rfl rfl rfl rfl
    have fromOne := m.holds stop held
    have inspected := taken.inspect fromOne.interpreter deferred
    exact ((m.withDebugger taken).note inspected.callbacks).reply fromOne _ inspected.outcome
  · exact m

theorem serve (m : Mirrors one zero) : Mirrors one.serve zero.serve := by
  simp only [Session.serve, m.debugger.queue]
  exact List.foldl_rel m fun _ _ _ _ served => served.serveNext

theorem stop (m : Mirrors one zero) {call : Call} (fromOne : call.FromOne)
    (reason : Execution.StopReason) (exception : Option ExceptionRecord) :
    Mirrors (one.stop call reason exception) (zero.stop call reason exception) := by
  obtain ⟨flushed, sent⟩ := (m.debugger.modify (fun debugger => { debugger with
    registry := debugger.registry.update fun thread =>
      if thread.id = call.thread then thread.setStopped reason exception
      else thread.setSuspended }) rfl rfl rfl rfl).flushOutput
  have held : Mirrors
      { one with stopped := some { call } } { zero with stopped := some { call } } :=
    { m with stopped := rfl, holds := fun _ held => Option.some.inj held ▸ fromOne }
  simp only [Session.stop]
  refine (held.withDebugger flushed).emit ?_
  rw [sent, List.map_append]
  rfl

theorem block (m : Mirrors one zero) {call : Call} (fromOne : call.FromOne) :
    Mirrors (one.block call) (zero.block call) :=
  { m with
    blocked := congrArg (· ++ [call]) m.blocked
    waits := fun other member => (List.mem_append.mp member).elim (m.waits other)
      fun last => List.mem_singleton.mp last ▸ fromOne }

theorem checkCondition (m : Mirrors one zero) (interpreter : Interpreter)
    (condition : Option String) :
    Alike (one.checkCondition interpreter condition)
      (zero.checkCondition interpreter condition) := by
  cases condition with
  | none => exact ⟨m, rfl⟩
  | some expression =>
    simp only [Session.checkCondition]
    split
    · exact ⟨m.note rfl, rfl⟩
    · exact ⟨(m.note rfl).emit rfl, rfl⟩

/-- A logpoint names its line. -/
theorem log (m : Mirrors one zero) (interpreter : Interpreter) (source : Source) {line : Nat}
    (counted : 1 ≤ line) (fragments : List Breakpoint.Fragment) :
    Mirrors (one.log interpreter source line fragments)
      (zero.log interpreter source line fragments) := by
  refine (m.note rfl).emit ?_
  simp only [List.map_cons, List.map_nil, Event.raised, OutputText.raised, Option.map_some,
    m.debugger.oneBased, m.debugger.fromZero.coordinates, Coordinates.fromZero_line counted]
  rfl

theorem beginStop (m : Mirrors one zero) {call : Call} (fromOne : call.FromOne)
    (reason : Execution.StopReason) (exception : Option ExceptionRecord) :
    Mirrors (one.beginStop call reason exception) (zero.beginStop call reason exception) := by
  simp only [Session.beginStop, m.debugger.control]
  split
  · exact m.block fromOne
  · exact m.leave call
  · rename_i control _
    have entered := m.debugger.modify (fun debugger => { debugger with control }) rfl rfl rfl rfl
    exact (m.withDebugger entered).stop fromOne reason exception

theorem visit (m : Mirrors one zero) {call : Call} (fromOne : call.FromOne) {line : Nat}
    (counted : 1 ≤ line) (source : Source.Resolved) :
    Mirrors (one.visit call line source) (zero.visit call line source) := by
  simp only [Session.visit, m.debugger.breakpoints]
  split
  · exact m.leave call
  · rename_i breakpoint _
    obtain ⟨checked, same⟩ := m.checkCondition call.interpreter breakpoint.action.condition
    simp only [same, checked.debugger.breakpoints]
    split
    · exact checked.leave call
    · have hit := checked.withDebugger (checked.debugger.modify (fun debugger => { debugger with
        breakpoints := (debugger.breakpoints.recordHit source.key line).1 }) rfl rfl rfl rfl)
      rw [checked.debugger.breakpoints] at hit
      split
      · exact hit.leave call
      · split
        · exact (hit.log call.interpreter source.source counted _).leave call
        · exact hit.beginStop fromOne .breakpoint none

theorem proceed (m : Mirrors one zero) {call : Call} (fromOne : call.FromOne) :
    Mirrors (one.proceed call) (zero.proceed call) := by
  have counted := fromOne.errand
  simp only [Session.proceed, m.debugger.control]
  split
  · exact m.beginStop fromOne .exception _
  · rename_i line source errand
    rw [errand] at counted
    split
    · exact m.block fromOne
    · rename_i control gate _
      have passed := m.withDebugger (m.debugger.modify (fun debugger => { debugger with control })
        rfl rfl rfl rfl)
      cases gate with
      | stop reason => exact passed.stop fromOne reason none
      | breakpoints => exact passed.visit fromOne counted source
      | suppressed | terminated => exact passed.leave call

end Mirrors

theorem wake_mirrors {one zero : Debugger} (m : one.Mirrors zero) (call : Call) :
    (wake one call).Mirrors (wake zero call) := by
  unfold wake
  split
  · exact m
  · exact m.modify (fun debugger => debugger.modifyThread call.thread _) rfl rfl rfl rfl

namespace Mirrors

theorem enter (m : Mirrors one zero) {call : Call} (fromOne : call.FromOne) :
    Mirrors (one.enter call) (zero.enter call) := by
  simp only [Session.enter, m.debugger.control]
  split
  · exact (m.withDebugger (m.debugger.modify (fun debugger =>
      debugger.modifyThread call.thread Thread.setSuspended) rfl rfl rfl rfl)).block fromOne
  · exact m.leave call
  · exact (m.withDebugger (wake_mirrors m.debugger call)).proceed fromOne

theorem unblock (m : Mirrors one zero) :
    Mirrors { one with blocked := [] } { zero with blocked := [] } :=
  { m with blocked := rfl, waits := List.forall_mem_nil _ }

theorem settle (m : Mirrors one zero) : Mirrors one.settle zero.settle := by
  simp only [Session.settle, m.isTerminated, m.debugger.control, m.blocked, m.stopped]
  split
  · refine List.foldl_rel ?_ fun call _ _ _ returned => returned.leave call
    split
    · exact (m.release _).unblock
    · exact m.unblock
  · split
    · exact m
    · have woken := m.withDebugger (List.foldl_rel (l := zero.blocked) m.debugger
        fun call _ _ _ kept => wake_mirrors kept call)
      exact List.foldl_rel woken.unblock fun call member _ _ gone =>
        gone.proceed (m.waits call member)

theorem attach (m : Mirrors one zero) (handle : Nat) :
    Alike (one.attach handle) (zero.attach handle) := by
  obtain ⟨attached, same, told⟩ := m.debugger.attach handle
  simp only [Session.attach, told, same]
  exact ⟨(m.withDebugger attached).emit rfl, rfl⟩

theorem findOrAttach (m : Mirrors one zero) (handle : Nat) :
    Alike (one.findOrAttach handle) (zero.findOrAttach handle) := by
  simp only [Session.findOrAttach, m.debugger.registry]
  split
  · exact ⟨m, rfl⟩
  · exact m.attach handle

theorem resolve (m : Mirrors one zero) (interpreter : Interpreter) :
    Alike (one.resolve interpreter) (zero.resolve interpreter) := by
  obtain ⟨kept, resolved, callbacks, told⟩ := m.debugger.resolve interpreter interpreter.chunk
  exact ⟨((m.withDebugger kept).note callbacks).emit told, resolved⟩

theorem visitLine (m : Mirrors one zero) (handle thread : Nat) {interpreter : Interpreter}
    (fromOne : interpreter.FromOne) {line : Nat} (counted : 1 ≤ line) :
    Mirrors (one.visitLine handle thread interpreter line)
      (zero.visitLine handle thread interpreter line) := by
  obtain ⟨resolved, same⟩ := m.resolve interpreter
  simp only [Session.visitLine, same]
  exact resolved.enter ⟨fromOne, counted⟩

theorem hook (m : Mirrors one zero) (handle : Nat) {interpreter : Interpreter}
    (fromOne : interpreter.FromOne) {event : HookEvent} (counted : event.FromOne) :
    Mirrors (one.hook handle interpreter event) (zero.hook handle interpreter event) := by
  obtain ⟨found, same⟩ := m.findOrAttach handle
  simp only [Session.hook, m.debugger.control, same]
  split
  · exact m.finish handle none
  · cases event with
    | call | return_ => exact found.finish handle none
    | line line =>
      have passes := found.debugger.reads
        (passesBy · zero.debugger.control.quick interpreter.chunk line) rfl
      simp only [passes]
      split
      · exact found.finish handle none
      · exact found.visitLine handle _ fromOne counted

theorem exception (m : Mirrors one zero) (handle : Nat) {interpreter : Interpreter}
    (fromOne : interpreter.FromOne) (kind : ExceptionKind) (message : String) :
    Mirrors (one.exception handle interpreter kind message)
      (zero.exception handle interpreter kind message) := by
  have filters := m.debugger.reads (·.exceptionFilters) rfl
  obtain ⟨attached, same⟩ := m.attach handle
  simp only [Session.exception, m.isTerminated, filters, same, attached.debugger.mapping]
  split
  · exact m.finish handle (some false)
  · exact attached.enter ⟨fromOne, trivial⟩

theorem panic (m : Mirrors one zero) (handle : Nat) {interpreter : Interpreter}
    (fromOne : interpreter.FromOne) (message : String) :
    Mirrors (one.panic handle interpreter message) (zero.panic handle interpreter message) := by
  obtain ⟨attached, same⟩ := m.attach handle
  simp only [Session.panic, m.isTerminated, same, attached.debugger.mapping]
  split
  · exact m.finish handle none
  · exact attached.enter ⟨fromOne, trivial⟩

theorem isStoppedAt (m : Mirrors one zero) (handle : Nat) :
    one.isStoppedAt handle = zero.isStoppedAt handle := by
  simp only [Session.isStoppedAt, m.stopped]

theorem isBlockedAt (m : Mirrors one zero) (handle : Nat) :
    one.isBlockedAt handle = zero.isBlockedAt handle := by
  simp only [Session.isBlockedAt, m.blocked]

theorem call (m : Mirrors one zero) (handle : Nat) (run : Session → Session)
    (ran : Mirrors (run one) (run zero)) : Alike (one.call handle run) (zero.call handle run) := by
  have settled := ran.settle
  simp only [Session.call, callState, m.isStoppedAt, m.isBlockedAt, settled.isStoppedAt,
    settled.isBlockedAt]
  split
  · exact ⟨m, rfl⟩
  · exact ⟨settled, rfl⟩

theorem lines (m : Mirrors one zero) (handle : Nat) {places : List (Interpreter × Nat)}
    (counted : ∀ place ∈ places, place.1.FromOne ∧ 1 ≤ place.2) :
    Alike (one.lines handle places) (zero.lines handle places) := by
  induction places generalizing one zero with
  | nil => exact ⟨m, rfl⟩
  | cons place rest ih =>
    obtain ⟨interpreter, line⟩ := place
    obtain ⟨⟨fromOne, first⟩, later⟩ := List.forall_mem_cons.mp counted
    have called := m.call handle (·.hook handle interpreter (.line line))
      (m.hook handle fromOne first)
    simp only [Session.lines]
    generalize one.call handle (·.hook handle interpreter (.line line)) = result at called ⊢
    generalize zero.call handle (·.hook handle interpreter (.line line)) = other at called ⊢
    obtain ⟨after, state⟩ := result
    obtain ⟨after', state'⟩ := other
    obtain ⟨mirrors, rfl⟩ := called
    cases state with
    | done =>
      obtain ⟨last, count⟩ := ih mirrors later
      exact ⟨last, congrArg (· + 1) count⟩
    | stopped | blocked | busy => exact ⟨mirrors, rfl⟩

theorem refuse (m : Mirrors one zero) (asked : first.Mirrors second) (failure : Failure) :
    Mirrors (one.answer first (.error failure)) (zero.answer second (.error failure)) :=
  m.answerBoth asked.seq asked.command rfl

theorem conclude (m : Mirrors one zero) (asked : first.Mirrors second)
    {outcome other : Except Failure Change} (agree : Agree Change.Mirrors outcome other) :
    Alike (one.conclude first outcome) (zero.conclude second other) := by
  cases agree with
  | error failure =>
    have answered := m.refuse asked failure
    exact ⟨answered.withDebugger answered.debugger.releaseIfReady, rfl⟩
  | @ok change shown changes =>
    have body : Except.ok change.body =
        (Except.ok shown.body : Except Failure Body).map Body.raised :=
      congrArg Except.ok changes.body
    have told := (((m.withDebugger changes.debugger).send changes.before).answerBoth asked.seq
      asked.command body).emit changes.after
    exact ⟨told.withDebugger told.debugger.releaseIfReady, by
      simp only [Session.conclude, changes.exit]⟩

theorem handle (m : Mirrors one zero) (asked : first.Mirrors second) :
    Alike (one.handle first) (zero.handle second) := by
  simp only [Session.handle, asked.kind, asked.command, m.isTerminated, m.debugger.control]
  split
  · exact ⟨m, rfl⟩
  · split
    · exact ⟨m.refuse asked _, rfl⟩
    · rename_i command named
      split
      · exact ⟨m.refuse asked _, rfl⟩
      · split
        · exact m.conclude asked (m.debugger.carryOut asked (asked.command ▸ named))
        · obtain rfl := asked.plain named
          split
          · exact ⟨m.withDebugger (m.debugger.modify (fun debugger => { debugger with
              queue := debugger.queue ++ [⟨first, _⟩] }) rfl rfl rfl rfl), rfl⟩
          · exact ⟨m.answer first rfl, rfl⟩

theorem handleAll (m : Mirrors one zero) {requests others : List Request}
    (asked : List.Forall₂ Request.Mirrors requests others) :
    Alike (one.handleAll requests) (zero.handleAll others) := by
  induction asked generalizing one zero with
  | nil => exact ⟨m, rfl⟩
  | cons head _ ih =>
    obtain ⟨handled, same⟩ := m.handle head
    obtain ⟨later, rest⟩ := ih handled
    exact ⟨later, congrArg₂ List.cons same rest⟩

theorem request (m : Mirrors one zero) (asked : first.Mirrors second) :
    Alike (one.request first) (zero.request second) := by
  obtain ⟨handled, same⟩ := m.handle asked
  exact ⟨handled.serve.settle, same⟩

theorem busyWith? (m : Mirrors one zero) (asked : first.Mirrors second) :
    one.busyWith? first = zero.busyWith? second := by
  cases asked with
  | same => simp only [Session.busyWith?, m.stopped, m.debugger.queue, m.debugger.control]
  | breakpoints setting _ _ same =>
    have named : Command.ofName? second.command = some (.control .setBreakpoints) := by
      rw [← same, setting]
      rfl
    simp only [Session.busyWith?, same, named, m.stopped]
    cases zero.stopped <;> rfl

theorem batch (m : Mirrors one zero) {requests others : List Request}
    (asked : List.Forall₂ Request.Mirrors requests others) :
    Alike (one.batch requests) (zero.batch others) := by
  cases asked with
  | nil => exact ⟨m, rfl⟩
  | @cons first second _ _ head tail =>
    simp only [Session.batch, m.busyWith? head]
    cases busy : zero.busyWith? second with
    | none =>
      obtain ⟨handled, same⟩ := m.handleAll (.cons head tail)
      exact ⟨handled.serve.settle, same⟩
    | some stop =>
      obtain rfl := head.plain (busyWith_spec busy).2
      have fromOne := m.holds stop (busyWith_stopped busy)
      have inspected := m.debugger.inspect fromOne.interpreter ⟨first, .evaluate⟩
      obtain ⟨handled, same⟩ := (m.note inspected.callbacks).handleAll tail
      have answered := handled.answer first inspected.outcome.body
      exact ⟨answered.serve.settle, congrArg (Disposition.deferred :: ·) same⟩

theorem detach (m : Mirrors one zero) (handle : Nat) (announce : Bool) :
    Alike (one.detach handle announce) (zero.detach handle announce) := by
  have detached := m.debugger.detach handle announce
  simp only [Session.detach]
  generalize one.debugger.detach handle announce = result at detached ⊢
  generalize zero.debugger.detach handle announce = other at detached ⊢
  cases detached with
  | none => exact ⟨m, rfl⟩
  | some known => exact ⟨(m.withDebugger known.1).emit known.2, rfl⟩

theorem origin (m : Mirrors one zero) {place : Option (Interpreter × Nat)}
    (counted : ∀ origin ∈ place, 1 ≤ origin.2) :
    Alike (one.origin place) (zero.origin place) ∧
      ∀ origin ∈ (zero.origin place).2, 1 ≤ origin.line := by
  cases place with
  | none => exact ⟨⟨m, rfl⟩, nofun⟩
  | some origin =>
    obtain ⟨interpreter, line⟩ := origin
    obtain ⟨resolved, same⟩ := m.resolve interpreter
    refine ⟨⟨resolved, ?_⟩, fun origin known => ?_⟩
    · simp only [Session.origin, same]
    · exact Option.some.inj known ▸ counted _ rfl

theorem capture (m : Mirrors one zero) (category : Output.Category) (bytes : List UInt8)
    {attribution : Option Output.Attribution} (counted : ∀ place ∈ attribution, 1 ≤ place.line) :
    Mirrors (one.capture category bytes attribution) (zero.capture category bytes attribution) := by
  obtain ⟨kept, told⟩ := m.debugger.capture category bytes counted
  exact (m.withDebugger kept).emit told

theorem configure (m : Mirrors one zero) (config : Except Config.Error Config.Store) :
    Alike (one.configure config) (zero.configure config) := by
  cases config with
  | error error => exact ⟨m, rfl⟩
  | ok config =>
    obtain ⟨kept, told⟩ := m.debugger.reconfigure config
    exact ⟨(m.withDebugger kept).emit told, rfl⟩

theorem perform (m : Mirrors one zero) {step other : Step} (same : step.Mirrors other) :
    Alike (one.perform step) (zero.perform other) := by
  cases same with
  | request asked =>
    obtain ⟨answered, disposition⟩ := m.request asked
    exact ⟨answered, congrArg StepResult.disposition disposition⟩
  | batch asked =>
    obtain ⟨answered, dispositions⟩ := m.batch asked
    exact ⟨answered, congrArg StepResult.dispositions dispositions⟩
  | program counted =>
    cases step with
    | request | batch => exact counted.elim
    | hook handle interpreter event =>
      obtain ⟨called, state⟩ := m.call handle (·.hook handle interpreter event)
        (m.hook handle counted.1 counted.2)
      exact ⟨called, congrArg StepResult.call state⟩
    | lines handle places =>
      obtain ⟨called, count⟩ := m.lines handle counted
      exact ⟨called, congrArg StepResult.count count⟩
    | exception handle interpreter kind message =>
      obtain ⟨called, state⟩ := m.call handle (·.exception handle interpreter kind message)
        (m.exception handle counted kind message)
      exact ⟨called, congrArg StepResult.call state⟩
    | panic handle interpreter message =>
      obtain ⟨called, state⟩ := m.call handle (·.panic handle interpreter message)
        (m.panic handle counted message)
      exact ⟨called, congrArg StepResult.call state⟩
    | attach handle =>
      obtain ⟨attached, thread⟩ := m.attach handle
      exact ⟨attached, congrArg (fun thread : Thread => StepResult.thread thread.id) thread⟩
    | detach handle announce =>
      obtain ⟨detached, known⟩ := m.detach handle announce
      exact ⟨detached, congrArg StepResult.flag known⟩
    | print bytes origin =>
      obtain ⟨⟨resolved, same⟩, placed⟩ := m.origin counted
      have capturing := resolved.debugger.reads (·.capturePrint) rfl
      simp only [Session.perform, Session.print, same, capturing]
      split
      · exact ⟨resolved.capture .stdout bytes placed, rfl⟩
      · exact ⟨resolved, rfl⟩
    | capture category bytes origin =>
      obtain ⟨⟨resolved, same⟩, placed⟩ := m.origin counted
      simp only [Session.perform, same]
      exact ⟨resolved.capture category bytes placed, rfl⟩
    | native stream bytes =>
      have redirected := m.debugger.reads (·.redirected) rfl
      simp only [Session.perform, Session.native, redirected]
      split
      · exact ⟨m.capture stream bytes fun _ given => absurd given (Option.not_mem_none _), rfl⟩
      · exact ⟨m, rfl⟩
    | updateConfig update =>
      obtain ⟨configured, refused⟩ := m.configure (zero.debugger.config.apply .runtime update)
      simp only [Session.perform, updateConfig, m.debugger.config]
      exact ⟨configured, congrArg configResult refused⟩
    | loadDefaults path content =>
      obtain ⟨configured, refused⟩ := m.configure (zero.debugger.config.loadDefaults path content)
      simp only [Session.perform, loadDefaults, m.debugger.config]
      exact ⟨configured, congrArg configResult refused⟩
    | config =>
      simp only [Session.perform, m.debugger.config]
      exact ⟨m, rfl⟩
    | shutdown =>
      obtain ⟨ended, first⟩ := m.shutdown
      exact ⟨ended.settle, congrArg StepResult.flag first⟩

theorem run (m : Mirrors one zero) {steps others : List Step}
    (same : List.Forall₂ Step.Mirrors steps others) :
    Mirrors (one.run steps) (zero.run others) ∧ one.results steps = zero.results others := by
  induction same generalizing one zero with
  | nil => exact ⟨m, rfl⟩
  | cons head _ ih =>
    obtain ⟨performed, result⟩ := m.perform head
    obtain ⟨last, results⟩ := ih performed
    exact ⟨last, congrArg₂ List.cons result results⟩

end Mirrors

/-- The requests by which a client that counts from one and a client that counts from zero begin
the same session. -/
structure Greets (one zero : Request) : Prop where
  seq : one.seq = zero.seq
  kind : one.kind = .request ∧ zero.kind = .request
  command : one.command = "initialize" ∧ zero.command = "initialize"
  fromOne : ∀ given, Arguments.read? Arguments.initialization one = some given →
    given.linesStartAt1 ≠ some false ∧ given.columnsStartAt1 ≠ some false
  fromZero : ∃ given, Arguments.read? Arguments.initialization zero = some given ∧
    given.linesStartAt1 = some false ∧ given.columnsStartAt1 = some false

/-- The session once a client has begun it. -/
def greeted (seq : Nat) (coordinates : Coordinates) : Session where
  debugger := { initialized := true, coordinates }
  outbox := [.response seq "initialize" (.ok .capabilities), .event .initialized]

theorem request_greeted {request : Request} (kind : request.kind = .request)
    (command : request.command = "initialize") :
    let given := (Arguments.read? Arguments.initialization request).getD {}
    ({} : Session).request request = (greeted request.seq {
      linesFromZero := !given.linesStartAt1.getD true
      columnsFromZero := !given.columnsStartAt1.getD true }, .handled) := by
  obtain ⟨seq, _, _, arguments⟩ := request
  cases kind
  cases command
  rfl

theorem greeted_mirrors (seq : Nat) : Mirrors (greeted seq {}) (greeted seq .fromZero) where
  debugger := ⟨rfl, rfl, rfl, Output.Pipeline.within_new⟩
  outbox := rfl
  callbacks := rfl
  finished := rfl
  stopped := rfl
  blocked := rfl
  holds := fun _ held => absurd held (Option.not_mem_none _)
  waits := List.forall_mem_nil _

/-- A client counts from one unless it declares otherwise. -/
theorem counts_from_one {declared : Option Bool} (undeclared : declared ≠ some false) :
    (!declared.getD true) = false := by
  cases declared with
  | none => rfl
  | some fromOne =>
    cases fromOne with
    | true => rfl
    | false => contradiction

theorem Greets.alike {first second : Request} (greets : Greets first second) :
    Alike (({} : Session).request first) (({} : Session).request second) := by
  have undeclared : ((Arguments.read? Arguments.initialization first).getD {}).linesStartAt1 ≠
        some false ∧
      ((Arguments.read? Arguments.initialization first).getD {}).columnsStartAt1 ≠ some false := by
    cases found : Arguments.read? Arguments.initialization first with
    | none => exact ⟨nofun, nofun⟩
    | some given => exact greets.fromOne given found
  obtain ⟨given, found, lines, columns⟩ := greets.fromZero
  rw [request_greeted greets.kind.1 greets.command.1, request_greeted greets.kind.2
    greets.command.2]
  simp only [counts_from_one undeclared.1, counts_from_one undeclared.2, found, Option.getD_some,
    lines, columns, greets.seq]
  exact ⟨greeted_mirrors second.seq, rfl⟩

/-- Two clients that begin a session, one counting from one and the other from zero, and then send
and cause the same, see the same: the second is sent every line and every column one lower, and
all else is equal, what each step returns and where the session stops included. -/
theorem run_relabelled {first second : Request} (greets : Greets first second)
    {steps others : List Step} (same : List.Forall₂ Step.Mirrors steps others) :
    ({} : Session).run (.request first :: steps) =
        (({} : Session).run (.request second :: others)).raised ∧
      ({} : Session).results (.request first :: steps) =
        ({} : Session).results (.request second :: others) := by
  obtain ⟨mirrors, disposition⟩ := greets.alike
  obtain ⟨last, results⟩ := mirrors.run same
  exact ⟨last.same, congrArg₂ (StepResult.disposition · :: ·) disposition results⟩

/-- A breakpoint at the third line is the one at line 2 of a client that counts from zero, and so is
the frame that it stops in. -/
theorem stack_relabelled :
    let chunk := "@/main".toUTF8.toList
    let interpreter : Interpreter := {
      chunk
      depth := 0
      stackFrames := [{ name := "main", chunk := some chunk, line := 3, column := 1 }]
      scopes := fun _ => .ok []
      children := fun _ => .ok []
      evaluate := fun _ _ => .error (.evaluation "") }
    let begin (fromOne : Bool) : Request := {
      seq := 1, command := "initialize", arguments := some (.object [
        ("columnsStartAt1", .bool fromOne), ("linesStartAt1", .bool fromOne)]) }
    let breakAt (line : Nat) : Request := {
      seq := 2, command := "setBreakpoints", arguments := some (.object [
        ("breakpoints", .array [.object [("line", .ofNat line)]]),
        ("source", .object [("path", .string "/main")])]) }
    let steps : List Step := [
      .request { seq := 3, command := "configurationDone" },
      .request { seq := 4, command := "launch", arguments := some (.object []) },
      .hook 7 interpreter (.line 3),
      .request { seq := 5, command := "stackTrace", arguments := some (.object [
        ("threadId", .ofNat 1)]) }]
    let one := ({} : Session).run (.request (begin true) :: .request (breakAt 3) :: steps)
    let zero := ({} : Session).run (.request (begin false) :: .request (breakAt 2) :: steps)
    let shown (session : Session) : List (Nat × Nat) := session.outbox.flatMap fun
      | .response _ _ (.ok (.stackTrace frames _)) => frames.map fun frame =>
        (frame.line, frame.column)
      | _ => []
    one = zero.raised ∧ one.stopped.isSome ∧
      shown one = [(3, 1)] ∧ shown zero = [(2, 0)] := by
  intro chunk interpreter begin breakAt steps one zero shown
  have greets : Greets (begin true) (begin false) :=
    ⟨rfl, ⟨rfl, rfl⟩, ⟨rfl, rfl⟩, fun _ found => Option.some.inj found ▸ ⟨nofun, nofun⟩,
      _, rfl, rfl, rfl⟩
  have set : (breakAt 3).Mirrors (breakAt 2) := .breakpoints rfl rfl rfl rfl (.some ⟨rfl, rfl⟩)
  have fromOne : interpreter.FromOne := by
    intro frame member
    obtain rfl := List.mem_singleton.mp member
    decide
  have same : List.Forall₂ Step.Mirrors (.request (breakAt 3) :: steps)
      (.request (breakAt 2) :: steps) :=
    .cons (.request set) <| .cons (.request (.same (by decide))) <|
      .cons (.request (.same (by decide))) <| .cons (.program ⟨fromOne, Nat.le_add_left 1 2⟩) <|
      .cons (.request (.same (by decide))) .nil
  exact ⟨(run_relabelled greets same).1, by decide +kernel, by decide +kernel, by decide +kernel⟩

end DebugAdapter.Session
