import DebugAdapter.Proofs.Output.Pipeline
import DebugAdapter.Proofs.Session.Resting

/-! The end of a session comes once. It lets go of every thread, call and request, and after it
calls return at once and requests are refused. -/
namespace DebugAdapter

/-- Whether a message tells that the session is over. -/
def Message.ends : Message → Bool
  | .event .terminated => true
  | _ => false

theorem countP_ends (messages : List Message) :
    messages.countP Message.ends = (marks messages).count .terminated := by
  rw [marks, List.count, List.countP_filterMap]
  refine List.countP_congr fun message _ => ?_
  cases message with
  | event event => cases event <;> simp [Message.ends, Message.mark?]
  | response seq command outcome =>
    cases outcome with
    | error => simp [Message.ends, Message.mark?]
    | ok =>
      simp only [Message.ends, Message.mark?]
      split <;> simp

theorem Turn.next?_ends {turn next : Turn} {mark : Mark} (follows : turn.next? mark = some next) :
    next = .nobody ↔ mark = .terminated := by
  cases turn with
  | nobody => simp [Turn.next?] at follows
  | program | client =>
    cases mark with
    | stopped | resumed | terminated => simp_all [Turn.next?, eq_comm]

/-- The end of a session is marked once, and nothing is marked after it. -/
theorem Turn.foldlM_ends {marks : List Mark} {turn next : Turn} (live : turn ≠ .nobody)
    (follows : marks.foldlM Turn.next? turn = some next) :
    marks.count .terminated = if next = .nobody then 1 else 0 := by
  induction marks generalizing turn with
  | nil =>
    obtain rfl := Option.some.inj follows
    simp [live]
  | cons mark rest ih =>
    rw [List.foldlM_cons] at follows
    obtain ⟨middle, first, later⟩ := Option.bind_eq_some_iff.mp follows
    by_cases ends : mark = .terminated
    · obtain rfl := (Turn.next?_ends first).mpr ends
      obtain ⟨rfl, rfl⟩ := Turn.foldlM_nobody later
      simp [ends]
    · rw [List.count_cons_of_ne ends]
      exact ih ((Turn.next?_ends first).not.mpr ends) later

theorem Command.endsSession_iff {request : Request} {command : Command}
    (named : Command.ofName? request.command = some command) :
    command.endsSession = true ↔ request.command ∈ ["terminate", "disconnect"] := by
  have table : ∀ entry ∈ Command.table,
      entry.2.endsSession = true ↔ entry.1 ∈ ["terminate", "disconnect"] := by decide
  exact table _ (Command.mem_table named)

namespace Debugger

variable {debugger : Debugger}

theorem teardown_cleared (debugger : Debugger) :
    debugger.teardown.1.registry.threads = [] ∧ debugger.teardown.1.output.Drained := by
  unfold teardown
  split
  exact ⟨rfl, Output.Pipeline.drained_reset _⟩

/-- When a session ends again, there is nothing left to send. -/
theorem teardown_over (ends : debugger.control.state = .terminated)
    (drained : debugger.output.Drained) :
    debugger.teardown = (debugger.bare debugger.output.reset, [], false) := by
  have again : debugger.control.terminate = none := by simp [Execution.Control.terminate, ends]
  simp only [teardown, again, flushOutput, drained.flush, List.map_nil, List.append_nil, bare]

end Debugger

namespace Session

variable {session next : Session} {request : Request}

theorem releaseIfReady_over {debugger : Debugger}
    (ends : debugger.releaseIfReady.control.state = .terminated) :
    debugger.releaseIfReady = debugger := by
  obtain ⟨control, same, rfl | ⟨_, _, done⟩⟩ := debugger.releaseIfReady_spec
  · exact same
  · obtain ⟨_, rfl⟩ := Execution.Control.configurationDone_eq_some.mp done
    simp [same] at ends

/-- Whatever ends a session forgets its threads and their output, and nothing comes back later. -/
theorem Act.over {taken : Option Request} (act : Act session taken next)
    (coherent : session.Coherent) (ends : next.debugger.control.state = .terminated) :
    (next.debugger.registry.threads = [] ∧ next.debugger.output.Drained) ∨
      (session.debugger.control.state = .terminated ∧
        next.debugger.registry.roster.Sublist session.debugger.registry.roster ∧
        next.debugger.output = session.debugger.output) := by
  cases act with
  | aside aside =>
    cases aside with
    | note | finish => exact Or.inr ⟨ends, .refl _, rfl⟩
    | discover interpreter chunk =>
      obtain ⟨sources, callbacks, news, _, same⟩ := discover_spec session interpreter chunk
      rw [same] at ends ⊢
      exact Or.inr ⟨ends, .refl _, rfl⟩
  | refuse | evaluate | defer | decline | reply => exact Or.inr ⟨ends, .refl _, rfl⟩
  | adjust taken command change _ _ adjusts _ carried =>
    obtain ⟨_, _, control, _, _, _, _, _, same, asked, _⟩ :=
      Debugger.carryOut_adjusts carried adjusts
    simp only [apply, emit, send, answer, same] at ends ⊢
    refine Or.inr ⟨?_, .refl _, trivial⟩
    rcases asked with rfl | ⟨_, paused⟩
    · exact ends
    · exact (Execution.Control.requestPause_keeps paused).1 ▸ ends
  | start taken command change _ _ _ _ started =>
    obtain ⟨_, config, events, _, _, _, _, _, rfl⟩ := Debugger.start_spec started
    have released := releaseIfReady_over ends
    simp only [modifyDebugger, released] at ends ⊢
    exact Or.inr ⟨ends, .refl _, rfl⟩
  | configure taken change _ _ _ done =>
    obtain ⟨_, rfl⟩ := Debugger.configurationDone_spec done
    have released := releaseIfReady_over ends
    simp only [modifyDebugger, released] at ends ⊢
    exact Or.inr ⟨ends, .refl _, rfl⟩
  | close | shutdown => exact Or.inl session.debugger.teardown_cleared
  | resume deferred rest stop how body control waiting held resumes resumed =>
    obtain ⟨reason, stopped⟩ := coherent.queued.state (by simp [waiting])
    obtain ⟨_, live, _⟩ := Execution.Control.resume_runs stopped resumed
    exact absurd ends live
  | detach handle announce =>
    obtain ⟨registry, control, news, _, kept, _, _, changed, same⟩ :=
      detach_spec coherent.control handle announce
    rw [same] at ends ⊢
    rcases changed with rfl | ⟨_, rfl⟩
    · exact Or.inr ⟨ends, kept, rfl⟩
    · contradiction
  | capture category bytes attribution =>
    rw [(capture_quiet session category bytes attribution).control] at ends
    have late : session.debugger.isTerminated = true := (isTerminated_iff coherent).mpr ends
    have dropped : session.capture category bytes attribution = session.emit [] := by
      simp only [Session.capture, Debugger.capture, late, if_true]
    rw [dropped]
    exact Or.inr ⟨ends, .refl _, rfl⟩
  | reconfigure change =>
    obtain ⟨config, mapping, sources, filters, news, _, same⟩ := configure_spec session change
    rw [same] at ends ⊢
    exact Or.inr ⟨ends, .refl _, rfl⟩
  | release stop already =>
    exact Or.inr ⟨ends, runThreads_roster session.debugger stop.call.thread ▸ .refl _, rfl⟩
  | dismiss call rest already => exact Or.inr ⟨ends, .refl _, rfl⟩

theorem Acts.cleared {taken : List Request} (acts : Acts session taken next)
    (coherent : session.Coherent) (live : session.debugger.control.state ≠ .terminated)
    (ends : next.debugger.control.state = .terminated) :
    next.debugger.registry.threads = [] ∧ next.debugger.output.Drained := by
  induction acts with
  | refl => exact absurd ends live
  | tail acts act ih =>
    rcases act.over (acts.coherent coherent) ends with cleared | ⟨already, fewer, kept⟩
    · exact cleared
    · obtain ⟨empty, drained⟩ := ih already
      refine ⟨?_, kept ▸ drained⟩
      simpa [Registry.roster, empty] using fewer

/-- Once a session is over, it keeps no output. -/
def Quelled (session : Session) : Prop :=
  session.debugger.control.state = .terminated → session.debugger.output.Drained

theorem Acts.quelled {taken : List Request} (acts : Acts session taken next)
    (coherent : session.Coherent) (quelled : session.Quelled) : next.Quelled := by
  induction acts with
  | refl => exact quelled
  | tail acts act ih =>
    intro ends
    rcases act.over (acts.coherent coherent) ends with ⟨_, drained⟩ | ⟨already, _, kept⟩
    · exact drained
    · exact kept ▸ ih already

theorem Advance.quelled (advance : Advance session next) (quelled : session.Quelled) :
    next.Quelled := by
  intro ends
  cases advance with
  | aside aside =>
    cases aside with
    | note | finish => exact quelled ends
    | discover interpreter chunk =>
      obtain ⟨sources, callbacks, news, _, same⟩ := discover_spec session interpreter chunk
      rw [same] at ends ⊢
      exact quelled ends
  | attach | arrive | suspend | say | hit | leave => exact quelled ends
  | wake call =>
    obtain ⟨registry, same, _⟩ := wake_spec session.debugger call
    simp only [modifyDebugger, same] at ends ⊢
    exact quelled ends
  | stop call before after reason exception control _ _ enters =>
    obtain ⟨registry, output, news, _, _, _, same⟩ := stop_spec { session with
      debugger := { session.debugger with control }
      blocked := before ++ after } call reason exception
    rw [same] at ends
    exact absurd (enters.state.symm.trans ends) (by simp)

theorem Advances.quelled (advances : Advances session next) (quelled : session.Quelled) :
    next.Quelled := by
  induction advances with
  | refl => exact quelled
  | tail _ last ih => exact last.quelled ih

theorem run_quelled (steps : List Step) : (({} : Session).run steps).Quelled := by
  refine run_induction (P := fun _ session => session.Quelled) ?_ ?_ steps
  · exact fun _ => Output.Pipeline.drained_new
  · intro _ session step settled quelled
    obtain ⟨_, middle, acts, _, advances, _⟩ := perform_moves settled step
    exact advances.quelled (acts.quelled settled.coherent quelled)

/-- A step that ends the session leaves nobody stopped or waiting, and nothing to be sent. -/
theorem perform_ends (settled : session.Settled) (step : Step)
    (live : session.debugger.control.state ≠ .terminated)
    (ends : (session.perform step).1.debugger.control.state = .terminated) :
    (session.perform step).1.debugger.registry.threads = [] ∧
      (session.perform step).1.debugger.output.Drained := by
  obtain ⟨_, middle, acts, _, advances, _, alone⟩ := perform_moves settled step
  have ended : middle.debugger.control.state = .terminated := by
    by_contra running
    exact advances.live running ends
  rw [alone live ended]
  exact acts.cleared settled.coherent live ended

theorem hook_over (settled : session.Settled) (ends : session.debugger.control.state = .terminated)
    (handle : Nat) (interpreter : Interpreter) (event : HookEvent) :
    session.hook handle interpreter event = session.finish handle none := by
  have late : session.debugger.control.quick = .terminated := by
    simpa [Execution.Control.isTerminated] using settled.coherent.control.terminated_iff.mpr ends
  simp only [hook, late, if_true]

theorem exception_over (settled : session.Settled)
    (ends : session.debugger.control.state = .terminated) (handle : Nat)
    (interpreter : Interpreter) (kind : ExceptionKind) (message : String) :
    session.exception handle interpreter kind message = session.finish handle (some false) := by
  simp only [exception, (isTerminated_iff settled.coherent).mpr ends, Bool.true_or, if_true]

theorem panic_over (settled : session.Settled)
    (ends : session.debugger.control.state = .terminated) (handle : Nat)
    (interpreter : Interpreter) (message : String) :
    session.panic handle interpreter message = session.finish handle none := by
  simp only [panic, (isTerminated_iff settled.coherent).mpr ends, if_true]

theorem call_over (settled : session.Settled) (ends : session.debugger.control.state = .terminated)
    {handle : Nat} {value : Option Bool} (run : Session → Session)
    (returns : run session = session.finish handle value) :
    session.call handle run = (session.finish handle value, .done) := by
  obtain ⟨unstopped, empty⟩ := settled.ends ends
  have finished : (session.finish handle value).Settled :=
    Advances.settled (.single (.aside (.finish handle value))) settled
  have returned := finished.settle_eq ends
  have free : (session.isStoppedAt handle || session.isBlockedAt handle) = false := by
    simp [isStoppedAt, isBlockedAt, unstopped, empty]
  have done : (session.finish handle value).callState handle = .done := by
    simp [callState, isStoppedAt, isBlockedAt, finish, unstopped, empty]
  simp only [call, free, Bool.false_eq_true, if_false, returns, returned, done]

theorem lines_over (settled : session.Settled)
    (ends : session.debugger.control.state = .terminated) (handle : Nat)
    (places : List (Interpreter × Nat)) :
    session.lines handle places =
      (places.foldl (fun session _ => session.finish handle none) session, places.length) := by
  induction places generalizing session with
  | nil => rfl
  | cons place rest ih =>
    obtain ⟨interpreter, line⟩ := place
    have called := call_over settled ends (·.hook handle interpreter (.line line))
      (hook_over settled ends handle interpreter (.line line))
    have finished : (session.finish handle none).Settled :=
      Advances.settled (.single (.aside (.finish handle none))) settled
    simp only [lines, called, ih finished ends, List.foldl_cons, List.length_cons]

theorem Coherent.unqueued (coherent : session.Coherent)
    (ends : session.debugger.control.state = .terminated) : session.debugger.queue = [] := by
  by_contra waiting
  obtain ⟨reason, stopped⟩ := coherent.queued.state waiting
  simp [ends] at stopped

/-- Taking a request stops nobody and lets nobody go. -/
theorem handle_calls (session : Session) (request : Request) :
    (session.handle request).1.stopped = session.stopped ∧
      (session.handle request).1.blocked = session.blocked ∧
      (session.handle request).1.finished = session.finished := by
  cases session.handling request with
  | other _ taken | unknown _ _ taken | late _ _ _ _ _ taken | deferred _ _ _ _ _ taken
  | unserved _ _ _ _ _ taken =>
    rw [taken]
    exact ⟨rfl, rfl, rfl⟩
  | control command _ _ _ taken =>
    rw [taken]
    cases session.debugger.carryOut command request <;> exact ⟨rfl, rfl, rfl⟩

/-- In a session that is over, a request is taken and nothing else happens. -/
theorem handle_settled (settled : session.Settled)
    (ends : session.debugger.control.state = .terminated) (request : Request) :
    (session.handle request).1.Settled ∧
      (session.handle request).1.debugger.control.state = .terminated ∧
      session.request request = session.handle request := by
  have acts := handle_acts settled.coherent request
  have coherent := acts.coherent settled.coherent
  have ended := acts.ended settled.coherent ends
  obtain ⟨stopped, blocked, _⟩ := handle_calls session request
  obtain ⟨unstopped, empty⟩ := settled.ends ends
  have after : (session.handle request).1.Settled :=
    ⟨coherent, coherent.unqueued ended, fun _ => ⟨stopped.trans unstopped, blocked.trans empty⟩⟩
  refine ⟨after, ended, ?_⟩
  simp only [Session.request, serve_drained after.drained, after.settle_eq ended]

theorem handleAll_settled (settled : session.Settled)
    (ends : session.debugger.control.state = .terminated) (requests : List Request) :
    (session.handleAll requests).1.Settled ∧
      (session.handleAll requests).1.debugger.control.state = .terminated ∧
      (session.handleAll requests).1 = session.run (requests.map .request) := by
  induction requests generalizing session with
  | nil => exact ⟨settled, ends, rfl⟩
  | cons request rest ih =>
    obtain ⟨after, ended, same⟩ := handle_settled settled ends request
    obtain ⟨last, afterwards, ran⟩ := ih after ended
    refine ⟨last, afterwards, ?_⟩
    simp only [handleAll, ran, List.map_cons, run, List.foldl_cons, perform, same]

/-- Nothing is stopped any more, so requests that arrive together are taken one by one. -/
theorem batch_over (settled : session.Settled)
    (ends : session.debugger.control.state = .terminated) (requests : List Request) :
    (session.batch requests).1 = session.run (requests.map .request) := by
  obtain ⟨after, ended, ran⟩ := handleAll_settled settled ends requests
  have served : (session.handleAll requests).1.serve.settle = (session.handleAll requests).1 := by
    rw [serve_drained after.drained, after.settle_eq ended]
  cases requests with
  | nil => rfl
  | cons first rest =>
    have idle : session.busyWith? first = none := by
      simp only [busyWith?, (settled.ends ends).1]
    simp only [batch, idle]
    exact served.trans ran

theorem closing_command (closes : request.command ∈ ["terminate", "disconnect"]) :
    ∃ command, Command.ofName? request.command = some (.control command) ∧
      (Command.control command).endsSession = true := by
  rcases List.mem_pair.mp closes with same | same <;> rw [same]
  · exact ⟨.terminate, rfl, rfl⟩
  · exact ⟨.disconnect, rfl, rfl⟩

theorem handle_refuses (ends : session.isTerminated = true) (asked : request.kind = .request)
    (stays : request.command ∉ ["terminate", "disconnect"]) :
    ∃ failure, session.handle request = (session.answer request (.error failure), .handled) := by
  have unended : session.isTerminated ≠ false := ne_false_of_eq_true ends
  cases session.handling request with
  | other kind _ => exact absurd asked kind
  | unknown _ _ taken | late _ _ _ _ _ taken => exact ⟨_, taken⟩
  | control command _ named permitted _ =>
    exact absurd ((Command.endsSession_iff named).mp (permitted.resolve_right unended)) stays
  | deferred _ _ _ live | unserved _ _ _ live => exact absurd live unended

theorem handle_closes (ends : session.debugger.control.state = .terminated)
    (quelled : session.Quelled) (asked : request.kind = .request)
    (closes : request.command ∈ ["terminate", "disconnect"]) :
    (session.handle request).1.outbox =
      session.outbox ++ [.response request.seq request.command (.ok .empty)] := by
  have torn := Debugger.teardown_over ends (quelled ends)
  obtain ⟨command, named, permitted⟩ := closing_command closes
  obtain ⟨exit, finished⟩ := Debugger.carryOut_ends request permitted
  simp only [handle_control asked named (.inl permitted), finished, conclude,
    Debugger.finishSession, torn, send, answer, emit, modifyDebugger, Bool.false_eq_true, if_false,
    List.append_nil, List.map_nil]

theorem run_ends (steps : List Step) :
    (({} : Session).run steps).outbox.countP Message.ends =
      if (({} : Session).run steps).debugger.control.state = .terminated then 1 else 0 := by
  rw [countP_ends, Turn.foldlM_ends (by simp) (run_follows steps)]
  exact if_congr Execution.Control.turn_eq_nobody rfl rfl

theorem perform_ended (settled : session.Settled) (step : Step)
    (ends : session.debugger.control.state = .terminated) :
    (session.perform step).1.debugger.control.state = .terminated := by
  obtain ⟨sent, _, follows, _⟩ := perform_follows settled step
  rw [turn, Execution.Control.turn_over ends] at follows
  exact Execution.Control.turn_eq_nobody.mp (Turn.foldlM_nobody follows).2

end Session

end DebugAdapter
