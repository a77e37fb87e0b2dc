import DebugAdapter.Proofs.Session.Serving
import Mathlib.Data.List.Induction

/-! Every step of a session is made of moves: the client and the embedding program act, and then the
threads of the program advance. -/
namespace DebugAdapter

/-- The requests that a step takes; other messages are passed over. -/
def Step.requests : Step → List Request
  | .request asked => [asked].filter (·.kind = .request)
  | .batch requests => requests.filter (·.kind = .request)
  | _ => []

def Step.ofThread : Step → Bool
  | .hook .. | .lines .. | .exception .. | .panic .. | .attach _ => true
  | _ => false

namespace Session

variable {session next : Session} {request : Request}

theorem releaseIfReady_eq (coherent : session.Coherent) :
    session.modifyDebugger (·.releaseIfReady) = session := by
  obtain ⟨control, same, unchanged | ⟨configured, launched, done⟩⟩ :=
    Debugger.releaseIfReady_spec session.debugger
  · simp only [modifyDebugger, same, unchanged]
  · obtain ⟨initializing, _⟩ := Execution.Control.configurationDone_eq_some.mp done
    exact absurd initializing (coherent.released configured launched)

theorem conclude_acts (coherent : session.Coherent) {command : ControlCommand}
    (asked : request.kind = .request)
    (named : Command.ofName? request.command = some (.control command))
    (permitted : (Command.control command).endsSession = true ∨ session.isTerminated = false) :
    Acts session [request]
      (session.conclude request (session.debugger.carryOut command request)).1 := by
  cases outcome : session.debugger.carryOut command request with
  | error failure =>
    have refused : Act session (some request) (session.answer request (.error failure)) :=
      .refuse request failure asked
    simp only [conclude, releaseIfReady_eq (refused.coherent coherent)]
    exact .one refused
  | ok change =>
    have settled (act : Act session (some request) (session.apply request change)) :
        Acts session [request] ((session.apply request change).modifyDebugger
          (·.releaseIfReady)) := by
      rw [releaseIfReady_eq (act.coherent coherent)]
      exact .one act
    simp only [conclude]
    cases command with
    | handshake | setBreakpoints | setExceptionBreakpoints | pause =>
      have live := permitted.resolve_left Bool.false_ne_true
      exact settled (.adjust request _ change asked named rfl live outcome)
    | launch | attach =>
      have live := permitted.resolve_left Bool.false_ne_true
      exact .one (.start request _ change asked named (by decide) live outcome)
    | configurationDone =>
      have live := permitted.resolve_left Bool.false_ne_true
      exact .one (.configure request change asked named live outcome)
    | terminate =>
      cases outcome
      exact settled (.close request _ false asked named (Or.inl rfl))
    | disconnect =>
      cases outcome
      exact settled (.close request _ true asked named (Or.inr rfl))

theorem handle_other (other : request.kind ≠ .request) :
    session.handle request = (session, .handled) := by
  simp only [handle, other, ne_eq, not_false_eq_true, if_true]

theorem handle_control {command : ControlCommand} (asked : request.kind = .request)
    (named : Command.ofName? request.command = some (.control command))
    (permitted : (Command.control command).endsSession = true ∨ session.isTerminated = false) :
    session.handle request =
      session.conclude request (session.debugger.carryOut command request) := by
  have open_ : (session.isTerminated && !(Command.control command).endsSession) = false := by
    rcases permitted with ends | live
    · rw [ends, Bool.not_true, Bool.and_false]
    · rw [live, Bool.false_and]
  simp only [handle, asked, named, open_, ne_eq, not_true_eq_false, if_false, Bool.false_eq_true]

theorem handle_deferred {command : StoppedCommand} (asked : request.kind = .request)
    (named : Command.ofName? request.command = some (.stopped command))
    (live : session.isTerminated = false)
    (stopped : session.debugger.control.isStopped none = true) :
    session.handle request = (session.defer ⟨request, command⟩, .deferred) := by
  simp only [handle, asked, named, live, stopped, ne_eq, not_true_eq_false, if_false,
    Bool.false_and, Bool.false_eq_true, if_true]

/-- The ways to take a request, each with what decides for it. -/
inductive Handling (session : Session) (request : Request) : Prop
  | other (kind : request.kind ≠ .request) (taken : session.handle request = (session, .handled))
  | unknown (asked : request.kind = .request) (unnamed : Command.ofName? request.command = none)
      (taken : session.handle request =
        (session.answer request (.error (.unknownCommand request.command)), .handled))
  | late (command : Command) (asked : request.kind = .request)
      (named : Command.ofName? request.command = some command)
      (ends : session.isTerminated = true) (lasts : command.endsSession = false)
      (taken : session.handle request = (session.answer request (.error .terminated), .handled))
  | control (command : ControlCommand) (asked : request.kind = .request)
      (named : Command.ofName? request.command = some (.control command))
      (permitted : (Command.control command).endsSession = true ∨ session.isTerminated = false)
      (taken : session.handle request =
        session.conclude request (session.debugger.carryOut command request))
  | deferred (command : StoppedCommand) (asked : request.kind = .request)
      (named : Command.ofName? request.command = some (.stopped command))
      (live : session.isTerminated = false)
      (stopped : session.debugger.control.isStopped none = true)
      (taken : session.handle request = (session.defer ⟨request, command⟩, .deferred))
  | unserved (command : StoppedCommand) (asked : request.kind = .request)
      (named : Command.ofName? request.command = some (.stopped command))
      (live : session.isTerminated = false)
      (unstopped : session.debugger.control.isStopped none = false)
      (taken : session.handle request =
        (session.answer request (.error (.notStopped request.command)), .handled))

theorem handling (session : Session) (request : Request) : session.Handling request := by
  by_cases asked : request.kind = .request
  · cases named : Command.ofName? request.command with
    | none =>
      refine .unknown asked named ?_
      simp only [handle, asked, named, ne_eq, not_true_eq_false, if_false]
    | some command =>
      by_cases late : session.isTerminated = true ∧ command.endsSession = false
      · obtain ⟨ends, lasts⟩ := late
        refine .late command asked named ends lasts ?_
        simp only [handle, asked, named, ends, lasts, ne_eq, not_true_eq_false, if_false,
          Bool.not_false, Bool.and_self, if_true]
      · have permitted : command.endsSession = true ∨ session.isTerminated = false := by
          rw [not_and_or, Bool.not_eq_true, Bool.not_eq_false] at late
          exact late.symm
        cases command with
        | control command =>
          exact .control command asked named permitted (handle_control asked named permitted)
        | stopped command =>
          have live : session.isTerminated = false :=
            permitted.resolve_left Bool.false_ne_true
          cases serving : session.debugger.control.isStopped none with
          | true =>
            exact .deferred command asked named live serving
              (handle_deferred asked named live serving)
          | false =>
            refine .unserved command asked named live serving ?_
            simp only [handle, asked, named, live, serving, ne_eq, not_true_eq_false, if_false,
              Bool.false_and, Bool.false_eq_true]
  · exact .other asked (handle_other asked)

theorem handle_acts (coherent : session.Coherent) (request : Request) :
    Acts session ([request].filter (·.kind = .request)) (session.handle request).1 := by
  have single (asked : request.kind = .request) :
      [request].filter (·.kind = .request) = [request] :=
    List.filter_cons_of_pos (by simp [asked])
  cases session.handling request with
  | other kind taken =>
    rw [taken, List.filter_cons_of_neg (by simp [kind])]
    exact .refl session
  | unknown asked _ taken | late _ asked _ _ _ taken | unserved _ asked _ _ _ taken =>
    rw [taken, single asked]
    exact .one (.refuse request _ asked)
  | control command asked named permitted taken =>
    rw [taken, single asked]
    exact conclude_acts coherent asked named permitted
  | deferred command asked named _ stopped taken =>
    rw [taken, single asked]
    exact .one (.defer request command asked named stopped)

theorem handleAll_acts (coherent : session.Coherent) (requests : List Request) :
    Acts session (requests.filter (·.kind = .request)) (session.handleAll requests).1 := by
  induction requests generalizing session with
  | nil => exact .refl session
  | cons request rest ih =>
    have handled := handle_acts coherent request
    have later := ih (handled.coherent coherent)
    rw [← List.singleton_append, List.filter_append]
    exact handled.trans later

theorem returned_holding (session : Session) (call : Call) (value : Bool) (calls : List Call) :
    (session.holding calls).returned call value = (session.returned call value).holding calls := by
  unfold returned
  split
  · rfl
  · split
    · rfl
    · rfl

theorem leaveAll_acts (calls : List Call) (empty : session.blocked = [])
    (ends : session.debugger.control.state = .terminated) :
    Acts (session.holding calls) [] (calls.foldl leave session) ∧
      (calls.foldl leave session).stopped = session.stopped ∧
      (calls.foldl leave session).blocked = [] := by
  induction calls generalizing session with
  | nil =>
    rw [holding_nil]
    exact ⟨.refl session, rfl, empty⟩
  | cons call rest ih =>
    obtain ⟨stopped, blocked, ended⟩ := returned_spec session call false
    rw [List.foldl_cons, leave_eq]
    obtain ⟨later, unstopped, unblocked⟩ := ih (blocked.trans empty) (ended ends)
    have alone : ∀ calls, session.holding calls = { session with blocked := calls } := by
      simp [holding, empty]
    have dismissed : Act (session.holding (call :: rest)) none (session.holding rest) := by
      rw [alone, alone]
      exact @Act.dismiss { session with blocked := call :: rest } call rest ends rfl
    have left : Acts (session.holding rest) [] ((session.returned call false).holding rest) := by
      rw [← returned_holding]
      exact returned_acts _ call false
    exact ⟨((Acts.still dismissed).quietly left).quietly later, unstopped.trans stopped, unblocked⟩

/-- Once a session is over and nothing is queued, every call returns. -/
theorem settle_over (drained : session.debugger.queue = []) (coherent : session.Coherent)
    (ends : session.debugger.control.state = .terminated) :
    Acts session [] session.settle ∧ session.settle.Settled := by
  obtain ⟨released, acts, unstopped, blocked, ended, same⟩ : ∃ released : Session,
      Acts session [] released ∧ released.stopped = none ∧ released.blocked = session.blocked ∧
      released.debugger.control.state = .terminated ∧
      session.settle = session.blocked.foldl leave { released with blocked := [] } := by
    simp only [settle, (isTerminated_iff coherent).mpr ends, if_true]
    cases held : session.stopped with
    | none => exact ⟨session, .refl session, held, rfl, ends, rfl⟩
    | some stop =>
      have let_go := Act.release stop ends held
      obtain ⟨stopped, blocked, ended⟩ := returned_spec ({ session with stopped := none }.modifyDebugger
        (runThreads · stop.call.thread)) stop.call true
      exact ⟨_, (Acts.still let_go).quietly (returned_acts _ stop.call true), stopped, blocked,
        ended ends, rfl⟩
  obtain ⟨left, remaining, unblocked⟩ :=
    @leaveAll_acts { released with blocked := [] } session.blocked rfl ended
  have whole : ({ released with blocked := [] } : Session).holding session.blocked = released := by
    simp only [holding, List.nil_append, ← blocked]
  rw [whole] at left
  have settles := acts.quietly left
  rw [same]
  exact ⟨settles, settles.coherent coherent, settles.drained drained,
    fun _ => ⟨remaining.trans unstopped, unblocked⟩⟩

/-- Once the requests are served, calls that need not wait any longer go on, unless the session is
over. -/
theorem settle_moves (drained : session.debugger.queue = []) (coherent : session.Coherent) :
    ∃ middle : Session, Acts session [] middle ∧ middle.Settled ∧ Advances middle session.settle ∧
      (middle.debugger.control.state = .terminated → session.settle = middle) := by
  by_cases ends : session.debugger.control.state = .terminated
  · obtain ⟨acts, settled⟩ := settle_over drained coherent ends
    exact ⟨session.settle, acts, settled, .refl, fun _ => rfl⟩
  · have settled : session.Settled := ⟨coherent, drained, fun ended => absurd ended ends⟩
    exact ⟨session, .refl session, settled, settle_advances settled, fun ended => absurd ended ends⟩

theorem serve_moves {taken : List Request} (acts : Acts session taken next)
    (coherent : session.Coherent) :
    ∃ middle : Session, Acts session taken middle ∧ middle.Settled ∧
      Advances middle next.serve.settle ∧
      (middle.debugger.control.state = .terminated → next.serve.settle = middle) := by
  obtain ⟨served, drained⟩ := serve_acts (acts.coherent coherent)
  have answered := acts.quietly served
  obtain ⟨middle, left, settled, advances, ended⟩ :=
    settle_moves drained (answered.coherent coherent)
  exact ⟨middle, answered.quietly left, settled, advances, ended⟩

theorem busyWith_spec {stop : Stop} (busy : session.busyWith? request = some stop) :
    request.kind = .request ∧ Command.ofName? request.command = some (.stopped .evaluate) := by
  unfold busyWith? at busy
  split at busy
  · rename_i named
    split at busy
    · rename_i allowed
      simp only [Bool.and_eq_true, decide_eq_true_eq] at allowed
      exact ⟨allowed.1.1.1, named⟩
    · contradiction
  · contradiction

theorem busyWith_stopped {stop : Stop} (busy : session.busyWith? request = some stop) :
    session.stopped = some stop := by
  unfold busyWith? at busy
  split at busy
  · rename_i held _
    split at busy
    · exact held.trans busy
    · contradiction
  · contradiction

/-- The client and the embedding program act and take these requests, and then the threads of the
program advance. In what ends the session, the threads have no part. -/
def Moves (session next : Session) (requests : List Request) : Prop :=
  ∃ taken, ∃ middle : Session, Acts session taken middle ∧ middle.Settled ∧
    Advances middle next ∧ taken.Perm requests ∧
    (session.debugger.control.state ≠ .terminated →
      middle.debugger.control.state = .terminated → next = middle)

theorem Advances.moves (advances : Advances session next) (settled : session.Settled) :
    Moves session next [] :=
  ⟨[], session, .refl session, settled, advances, .refl [], fun live ends => absurd ends live⟩

theorem Acts.moves (acts : Acts session [] next) (settled : next.Settled) : Moves session next [] :=
  ⟨[], next, acts, settled, .refl, .refl [], fun _ _ => rfl⟩

/-- The requests of a batch before they are served: they are taken in turn, or behind an evaluation
that keeps the interpreter busy, asks its questions first and is answered last. -/
inductive Gathers (session : Session) : List Request → Session → Prop where
  | turns (requests : List Request) : Gathers session requests (session.handleAll requests).1
  | busy (first : Request) (rest : List Request) (asked : List Callback)
      (outcome : Except Failure Body) : first.kind = .request →
      Command.ofName? first.command = some (.stopped .evaluate) →
      Gathers session (first :: rest) (((session.note asked).handleAll rest).1.answer first outcome)

theorem Coherent.note (coherent : session.Coherent) (callbacks : List Callback) :
    (session.note callbacks).Coherent :=
  Act.coherent (.aside (.note callbacks)) coherent

theorem Gathers.acts {requests : List Request} (gathers : Gathers session requests next)
    (coherent : session.Coherent) :
    ∃ taken, Acts session taken next ∧ taken.Perm (requests.filter (·.kind = .request)) := by
  cases gathers with
  | turns => exact ⟨_, handleAll_acts coherent requests, .refl _⟩
  | busy first rest asked outcome taken named =>
    have noted : Acts session [] (session.note asked) := .still (.aside (.note asked))
    have handled := handleAll_acts (coherent.note asked) rest
    refine ⟨_, (noted.trans handled).tail (.evaluate first outcome taken named), ?_⟩
    rw [List.filter_cons_of_pos (by simpa using taken)]
    exact List.perm_append_singleton first _

theorem Gathers.coherent {requests : List Request} (gathers : Gathers session requests next)
    (coherent : session.Coherent) : next.Coherent := by
  obtain ⟨_, acts, _⟩ := gathers.acts coherent
  exact acts.coherent coherent

theorem batch_gathers (session : Session) (requests : List Request) :
    (requests = [] ∧ (session.batch requests).1 = session) ∨
      ∃ middle, Gathers session requests middle ∧
        (session.batch requests).1 = middle.serve.settle := by
  cases requests with
  | nil => exact Or.inl ⟨rfl, rfl⟩
  | cons first rest =>
    right
    cases busy : session.busyWith? first with
    | some stop =>
      obtain ⟨asked, named⟩ := busyWith_spec busy
      simp only [batch, busy]
      exact ⟨_, .busy first rest _ _ asked named, rfl⟩
    | none =>
      simp only [batch, busy]
      exact ⟨_, .turns (first :: rest), rfl⟩

theorem batch_moves (settled : session.Settled) (requests : List Request) :
    Moves session (session.batch requests).1 (requests.filter (·.kind = .request)) := by
  rcases batch_gathers session requests with ⟨rfl, same⟩ | ⟨middle, gathers, same⟩
  · rw [same]
    exact Acts.moves (.refl session) settled
  · obtain ⟨taken, acts, perm⟩ := gathers.acts settled.coherent
    obtain ⟨middle, served, middleSettled, advances, alone⟩ := serve_moves acts settled.coherent
    rw [same]
    exact ⟨_, middle, served, middleSettled, advances, perm, fun _ => alone⟩

theorem Settled.act (settled : session.Settled) (act : Act session none next)
    (live : session.debugger.control.state ≠ .terminated →
      next.debugger.control.state ≠ .terminated)
    (stopped : next.stopped = session.stopped) (blocked : next.blocked = session.blocked) :
    next.Settled := by
  refine ⟨act.coherent settled.coherent, (Acts.still act).drained settled.drained, fun ends => ?_⟩
  rw [stopped, blocked]
  exact settled.ends (by_contra fun running => live running ends)

theorem detach_settled (settled : session.Settled) (handle : Nat) (announce : Bool) :
    (session.detach handle announce).1.Settled := by
  have act : Act session none (session.detach handle announce).1 := .detach handle announce
  obtain ⟨registry, control, news, _, _, _, _, changed, same⟩ :=
    detach_spec settled.coherent.control handle announce
  rw [same] at act ⊢
  refine settled.act act (fun live => ?_) rfl rfl
  rcases changed with rfl | ⟨_, rfl⟩
  · exact live
  · simp

theorem capture_settled (settled : session.Settled) (category : Output.Category)
    (bytes : List UInt8) (attribution : Option Output.Attribution) :
    (session.capture category bytes attribution).Settled := by
  refine settled.act (.capture category bytes attribution) (fun live => ?_) rfl rfl
  rwa [(capture_quiet session category bytes attribution).control]

theorem configure_settled (settled : session.Settled) {change : Except Config.Error Config.Store}
    (act : Act session none (session.configure change).1) :
    (session.configure change).1.Settled := by
  unfold configure at act ⊢
  split at act
  · exact settled
  · exact settled.act act (fun live => live) rfl rfl

theorem origin_moves (settled : session.Settled) (place : Option (Interpreter × Nat)) :
    Acts session [] (session.origin place).1 ∧ (session.origin place).1.Settled := by
  cases place with
  | none => exact ⟨.refl session, settled⟩
  | some place =>
    obtain ⟨interpreter, line⟩ := place
    have found : Aside session (session.discover interpreter interpreter.chunk) :=
      .discover interpreter interpreter.chunk
    exact ⟨.still (.aside found), Advances.settled (.single (.aside found)) settled⟩

/-- Threads that come to something, or are attached, only advance. -/
theorem perform_advances (settled : session.Settled) {step : Step} (threads : step.ofThread = true) :
    Advances session (session.perform step).1 := by
  have coherent := settled.coherent
  cases step with
  | hook handle interpreter event =>
    have advances : Advances session (session.call handle (·.hook handle interpreter event)).1 :=
      call_advances settled fun idle => hook_advances coherent idle interpreter event
    exact advances
  | lines handle places => exact lines_advances settled handle places
  | exception handle interpreter kind message =>
    have advances : Advances session
        (session.call handle (·.exception handle interpreter kind message)).1 :=
      call_advances settled fun idle => exception_advances coherent idle interpreter kind message
    exact advances
  | panic handle interpreter message =>
    have advances : Advances session (session.call handle (·.panic handle interpreter message)).1 :=
      call_advances settled fun idle => panic_advances coherent idle interpreter message
    exact advances
  | attach handle => exact .single (.attach handle)
  | _ => contradiction

/-- Every step is made of such moves. -/
theorem perform_moves (settled : session.Settled) (step : Step) :
    Moves session (session.perform step).1 step.requests := by
  cases step with
  | request request =>
    have handled := handle_acts settled.coherent request
    obtain ⟨middle, acts, middleSettled, advances, alone⟩ := serve_moves handled settled.coherent
    exact ⟨_, middle, acts, middleSettled, advances, .refl _, fun _ => alone⟩
  | batch requests => exact batch_moves settled requests
  | hook | lines | exception | panic | attach =>
    exact (perform_advances settled rfl).moves settled
  | detach handle announce =>
    exact Acts.moves (.still (.detach handle announce)) (detach_settled settled handle announce)
  | print bytes place =>
    obtain ⟨found, placed⟩ := origin_moves settled place
    simp only [perform, print]
    split
    · exact (found.step (.capture _ _ _)).moves (capture_settled placed _ _ _)
    · exact found.moves placed
  | capture category bytes place =>
    obtain ⟨found, placed⟩ := origin_moves settled place
    exact (found.step (.capture category bytes _)).moves (capture_settled placed _ _ _)
  | native stream bytes =>
    simp only [perform, native]
    split
    · exact Acts.moves (.still (.capture _ _ _)) (capture_settled settled _ _ _)
    · exact Acts.moves (.refl session) settled
  | updateConfig update =>
    have act : Act session none (session.updateConfig update).1 :=
      .reconfigure _ (Or.inl ⟨update, rfl⟩)
    exact (Acts.still act).moves (configure_settled settled act)
  | loadDefaults path content =>
    have act : Act session none (session.loadDefaults path content).1 :=
      .reconfigure _ (Or.inr ⟨path, content, rfl⟩)
    exact (Acts.still act).moves (configure_settled settled act)
  | config => exact Acts.moves (.refl session) settled
  | shutdown =>
    have ended : Acts session [] session.shutdown.1 := .still .shutdown
    obtain ⟨middle, acts, middleSettled, advances, alone⟩ :=
      settle_moves (ended.drained settled.drained) (ended.coherent settled.coherent)
    exact ⟨[], middle, ended.quietly acts, middleSettled, advances, .refl [], fun _ => alone⟩

theorem perform_settled (settled : session.Settled) (step : Step) :
    (session.perform step).1.Settled := by
  obtain ⟨_, _, _, middleSettled, advances, _⟩ := perform_moves settled step
  exact advances.settled middleSettled

theorem run_append (session : Session) (steps : List Step) (step : Step) :
    session.run (steps ++ [step]) = ((session.run steps).perform step).1 := by
  simp only [run, List.foldl_append, List.foldl_cons, List.foldl_nil]

theorem run_settled (steps : List Step) : (({} : Session).run steps).Settled := by
  induction steps using List.reverseRecOn with
  | nil => exact settled_new
  | append_singleton steps step ih =>
    rw [run_append]
    exact perform_settled ih step

/-- What holds at first and is kept by each step from a settled session holds after every run. -/
theorem run_induction {P : List Step → Session → Prop} (start : P [] {})
    (keep : ∀ steps session step, session.Settled → P steps session →
      P (steps ++ [step]) (session.perform step).1) (steps : List Step) :
    P steps (({} : Session).run steps) := by
  induction steps using List.reverseRecOn with
  | nil => exact start
  | append_singleton steps step ih =>
    rw [run_append]
    exact keep steps _ step (run_settled steps) ih

end Session
end DebugAdapter
