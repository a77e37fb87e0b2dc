import DebugAdapter.Proofs.Session.Stepping
import Mathlib.Logic.Function.Iterate

/-! Every request is answered once. A request that is deferred is accounted for in the queue until
the stopped thread takes it, runs on or ends. -/
namespace DebugAdapter

/-- The number and the command by which a request and its answer are matched. -/
def Request.key (request : Request) : Nat × String :=
  (request.seq, request.command)

def Message.answers? : Message → Option (Nat × String)
  | .response seq command _ => some (seq, command)
  | .event _ => none

/-- The requests that messages answer. -/
def answered (messages : List Message) : List (Nat × String) :=
  messages.filterMap Message.answers?

section answered

variable {messages : List Message}

@[simp] theorem answered_nil : answered [] = [] := rfl

@[simp] theorem answered_append (messages others : List Message) :
    answered (messages ++ others) = answered messages ++ answered others :=
  List.filterMap_append

@[simp] theorem answered_response (request : Request) (outcome : Except Failure Body)
    (messages : List Message) :
    answered (.response request.seq request.command outcome :: messages) =
      request.key :: answered messages := rfl

@[simp] theorem answered_events (events : List Event) : answered (events.map .event) = [] := by
  simp [answered, Message.answers?]

theorem News.answered (news : News messages) : answered messages = [] := by
  apply List.filterMap_eq_nil_iff.mpr
  intro message member
  obtain ⟨event, rfl, _⟩ := news message member
  rfl

@[simp] theorem answered_refusals (queue : List Deferred) (failure : Failure) :
    answered (queue.map (Debugger.refusal failure)) = queue.map (·.request.key) := by
  induction queue with
  | nil => rfl
  | cons deferred rest ih => simp only [List.map_cons, Debugger.refusal, answered_response, ← ih]

end answered

namespace Session

/-- The requests that have been answered, and those that are still to be. -/
def accounted (session : Session) : List (Nat × String) :=
  answered session.outbox ++ session.debugger.queue.map (·.request.key)

variable {session next : Session} {request : Option Request}

theorem Quiet.accounted (quiet : Quiet session next) : next.accounted = session.accounted := by
  obtain ⟨news, incidental, outbox⟩ := quiet.outbox
  simp only [Session.accounted, outbox, quiet.queue, answered_append, incidental.answered,
    List.append_nil]

theorem Advance.accounted (advance : Advance session next) :
    next.accounted = session.accounted := by
  rcases advance.effect with quiet | ⟨_, _, _, news, _, _, _, incidental, outbox, queue, _⟩
  · exact quiet.accounted
  · have stopped : ∀ event, answered [.event event] = [] := fun _ => rfl
    simp only [Session.accounted, outbox, queue, answered_append, incidental.answered, stopped,
      List.append_nil]

theorem Advances.accounted (advances : Advances session next) :
    next.accounted = session.accounted := by
  induction advances with
  | refl => rfl
  | tail _ last ih => rw [last.accounted, ih]

/-- A request that is answered at once comes before those that wait. -/
theorem accounted_answer (taken : Request) {answers : List Message}
    (own : answered answers = [taken.key]) (outbox : next.outbox = session.outbox ++ answers)
    (queue : next.debugger.queue = session.debugger.queue) :
    next.accounted.Perm (session.accounted ++ [taken.key]) := by
  simp only [Session.accounted, outbox, queue, answered_append, own, List.append_assoc]
  exact List.perm_append_comm.append_left _

theorem apply_accounted (taken : Request) {change : Change} (before : News change.before)
    (queue : change.debugger.queue = session.debugger.queue) :
    (session.apply taken change).accounted.Perm (session.accounted ++ [taken.key]) := by
  refine accounted_answer taken ?_ (apply_outbox session taken change) queue
  simp only [answered_append, before.answered, answered_response, answered_events, answered_nil,
    List.append_nil, List.nil_append]

theorem releaseIfReady_accounted (session : Session) :
    (session.modifyDebugger (·.releaseIfReady)).accounted = session.accounted := by
  obtain ⟨control, same, _⟩ := Debugger.releaseIfReady_spec session.debugger
  simp only [accounted, modifyDebugger, same]

theorem Ended.accounted {answers : List Message} (ended : Ended session next answers) :
    next.accounted.Perm (session.accounted ++ answered answers) := by
  obtain ⟨news, incidental, ⟨_, queue, outbox⟩ | ⟨_, queue, outbox⟩⟩ := ended.outbox
  · have ends : answered [.event .terminated] = [] := rfl
    simp only [Session.accounted, outbox, queue, answered_append, answered_refusals,
      incidental.answered, ends, List.map_nil, List.append_nil]
    exact .refl _
  · simp only [Session.accounted, outbox, queue, answered_append, incidental.answered,
      List.nil_append, List.append_assoc]
    exact List.perm_append_comm.append_left _

theorem Act.accounted (act : Act session request next) (coherent : session.Coherent) :
    next.accounted.Perm (session.accounted ++ request.toList.map Request.key) := by
  have still {quieter : Session} (same : quieter.accounted = session.accounted) :
      quieter.accounted.Perm (session.accounted ++ []) := by
    rw [same, List.append_nil]
  cases act with
  | aside aside => exact still aside.quiet.accounted
  | refuse taken | evaluate taken => exact accounted_answer taken rfl rfl rfl
  | adjust taken command change _ _ adjusts _ carried =>
    obtain ⟨before, _, _, _, _, _, _, _, same, _⟩ := Debugger.carryOut_adjusts carried adjusts
    exact apply_accounted taken (before ▸ news_nil) (by rw [same])
  | start taken command change _ _ _ _ started =>
    obtain ⟨_, config, events, _, _, _, _, incidental, rfl⟩ := Debugger.start_spec started
    rw [releaseIfReady_accounted]
    exact apply_accounted taken (news_events incidental) rfl
  | configure taken change _ _ _ done =>
    obtain ⟨_, rfl⟩ := Debugger.configurationDone_spec done
    rw [releaseIfReady_accounted]
    exact apply_accounted taken news_nil rfl
  | close taken command exit => exact (close_ended session taken exit).accounted
  | defer taken command =>
    simp only [Session.accounted, Session.defer, modifyDebugger, List.map_append,
      ← List.append_assoc]
    exact .refl _
  | decline deferred rest failure waiting | reply deferred rest _ _ _ waiting =>
    apply still
    simp only [Session.accounted, waiting, answer, send, modifyDebugger, answered_append,
      answered_response, List.append_assoc]
    rfl
  | resume deferred rest stop how body control waiting =>
    apply still
    simp only [Session.accounted, waiting, letGo, send, runThreads, answered_append,
      answered_response, answered_refusals, List.map_nil, List.append_nil]
    rfl
  | detach handle announce =>
    obtain ⟨control, _, quiet⟩ := detach_quiet coherent.control handle announce
    exact still quiet.accounted
  | capture category bytes attribution => exact still (capture_quiet _ _ _ _).accounted
  | reconfigure change => exact still (configure_quiet session change).accounted
  | shutdown => exact (shutdown_ended session).accounted
  | release | dismiss => exact still (quiet_silent rfl rfl rfl rfl rfl fun _ => rfl).accounted

theorem Acts.accounted {taken : List Request} (acts : Acts session taken next)
    (coherent : session.Coherent) :
    next.accounted.Perm (session.accounted ++ taken.map Request.key) := by
  induction acts with
  | refl => simp
  | tail acts act ih =>
    have last := act.accounted (acts.coherent coherent)
    rw [List.map_append, ← List.append_assoc]
    exact last.trans (ih.append_right _)

theorem perform_accounted (settled : session.Settled) (step : Step) :
    (session.perform step).1.accounted.Perm
      (session.accounted ++ step.requests.map Request.key) := by
  obtain ⟨taken, middle, acts, _, advances, same, _⟩ := perform_moves settled step
  rw [advances.accounted]
  exact (acts.accounted settled.coherent).trans ((same.map Request.key).append_left _)

theorem run_accounted (steps : List Step) :
    (({} : Session).run steps).accounted.Perm
      ((steps.flatMap Step.requests).map Request.key) := by
  refine run_induction (P := fun steps session =>
    session.accounted.Perm ((steps.flatMap Step.requests).map Request.key)) (.refl _) ?_ steps
  intro steps session step settled account
  rw [List.flatMap_append, List.map_append, List.flatMap_singleton]
  exact (perform_accounted settled step).trans (account.append_right _)

/-- The session after it has taken requests and the stopped thread has served some of them. -/
def serving (session : Session) (requests : List Request) (rounds : Nat) : Session :=
  serveNext^[rounds] (session.handleAll requests).1

theorem serving_acts (coherent : session.Coherent) (requests : List Request) (rounds : Nat) :
    Acts session (Step.batch requests).requests (session.serving requests rounds) := by
  have handled := handleAll_acts coherent requests
  induction rounds with
  | zero => exact handled
  | succ rounds ih =>
    rw [serving, Function.iterate_succ_apply']
    exact ih.quietly (serveNext_acts (ih.coherent coherent))

/-- Between steps every request has its one answer and none is queued. While requests are taken and
served, those without an answer are queued, each a command for the stopped thread, and a thread is
stopped as long as there are any. -/
theorem requests_answered_once (steps : List Step) :
    (answered (({} : Session).run steps).outbox).Perm
        ((steps.flatMap Step.requests).map Request.key) ∧
      (({} : Session).run steps).debugger.queue = [] ∧
      ∀ (requests : List Request) (rounds : Nat),
        let later := (({} : Session).run steps).serving requests rounds
        (answered later.outbox ++ later.debugger.queue.map (·.request.key)).Perm
            ((steps.flatMap Step.requests ++ (Step.batch requests).requests).map Request.key) ∧
          (∀ deferred ∈ later.debugger.queue,
            Command.ofName? deferred.request.command = some (.stopped deferred.command)) ∧
          (later.debugger.queue ≠ [] →
            later.stopped.isSome = true ∧ later.debugger.control.isStopped none = true) := by
  have settled := run_settled steps
  have account := run_accounted steps
  refine ⟨?_, settled.drained, fun requests rounds => ?_⟩
  · simpa only [accounted, settled.drained, List.map_nil, List.append_nil] using account
  · have acts := serving_acts settled.coherent requests rounds
    have coherent := acts.coherent settled.coherent
    refine ⟨?_, coherent.queued.commands, fun waiting => ⟨?_, coherent.queued.served waiting⟩⟩
    · rw [List.map_append]
      exact (acts.accounted settled.coherent).trans (account.append_right _)
    · obtain ⟨reason, state⟩ := coherent.queued.state waiting
      have held := coherent.control.stopped.mp ⟨reason, state⟩
      rw [coherent.holder (by simp [state])] at held
      simpa using held

end Session
end DebugAdapter
