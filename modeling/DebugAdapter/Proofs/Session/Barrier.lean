import DebugAdapter.Proofs.Breakpoint.Table
import DebugAdapter.Proofs.Session.Stepping

/-! The program is held back until the client has both configured the session and launched or
attached to the program. Until then no thread stops, no call that may stop returns and no
breakpoint is hit. -/
namespace DebugAdapter

open Execution (StopReason)

/-- One of some commands has been carried out. -/
def Granted (commands : List String) (messages : List Message) : Prop :=
  ∃ seq command body, command ∈ commands ∧ .response seq command (.ok body) ∈ messages

def configurations : List String := ["configurationDone"]

def launches : List String := ["launch", "attach"]

/-- Messages that neither grant one of the two signals nor tell of a stop. -/
def Message.plain : Message → Bool
  | .response _ command (.ok _) => command ∉ configurations ++ launches
  | .event (.stopped ..) => false
  | _ => true

def Plain (messages : List Message) : Prop :=
  ∀ message ∈ messages, message.plain = true

variable {commands : List String} {messages others : List Message}

theorem granted_append :
    Granted commands (messages ++ others) ↔ Granted commands messages ∨ Granted commands others := by
  simp only [Granted, List.mem_append]
  constructor
  · rintro ⟨seq, command, body, listed, sent | sent⟩
    · exact Or.inl ⟨seq, command, body, listed, sent⟩
    · exact Or.inr ⟨seq, command, body, listed, sent⟩
  · rintro (⟨seq, command, body, listed, sent⟩ | ⟨seq, command, body, listed, sent⟩)
    · exact ⟨seq, command, body, listed, Or.inl sent⟩
    · exact ⟨seq, command, body, listed, Or.inr sent⟩

theorem granted_response (request : Request) (body : Body) :
    Granted commands [.response request.seq request.command (.ok body)] ↔
      request.command ∈ commands := by
  simp [Granted]

theorem Plain.append (first : Plain messages) (last : Plain others) : Plain (messages ++ others) :=
  List.forall_mem_append.mpr ⟨first, last⟩

theorem Plain.unconfigured (plain : Plain messages) : ¬Granted configurations messages := by
  rintro ⟨seq, command, body, listed, sent⟩
  have silent := plain _ sent
  simp [Message.plain, listed] at silent

theorem Plain.unlaunched (plain : Plain messages) : ¬Granted launches messages := by
  rintro ⟨seq, command, body, listed, sent⟩
  have silent := plain _ sent
  simp [Message.plain, listed] at silent

theorem Plain.unstopped (plain : Plain messages) (thread : Nat) (reason : StopReason)
    (exception : Option ExceptionRecord) : .event (.stopped thread reason exception) ∉ messages :=
  fun sent => absurd (plain _ sent) (by simp [Message.plain])

theorem News.plain (news : News messages) : Plain messages := by
  intro message member
  obtain ⟨event, rfl, incidental⟩ := news message member
  cases event with
  | thread | output | loadedSource => rfl
  | initialized | stopped | terminated => exact incidental.elim

theorem refusals_plain (queue : List Deferred) (failure : Failure) :
    Plain (queue.map (Debugger.refusal failure)) := by
  intro message member
  obtain ⟨deferred, _, rfl⟩ := List.mem_map.mp member
  rfl

/-- Whether a command is one of the two signals. -/
def Command.signals : Command → Bool
  | .control .configurationDone | .control .launch | .control .attach => true
  | _ => false

theorem response_plain (request : Request) {command : Command} (outcome : Except Failure Body)
    (named : Command.ofName? request.command = some command) (other : command.signals = false) :
    Plain [.response request.seq request.command outcome] := by
  have table : ∀ entry ∈ Command.table, entry.2.signals = false →
      entry.1 ∉ configurations ++ launches := by decide
  have unlisted := table _ (Command.mem_table named) other
  intro message member
  obtain rfl := List.mem_singleton.mp member
  cases outcome with
  | error => rfl
  | ok body => simpa only [Message.plain, decide_eq_true_eq] using unlisted

theorem configuration_listed {name : String}
    (named : Command.ofName? name = some (.control .configurationDone)) :
    name ∈ configurations ∧ name ∉ launches := by
  have table : ∀ entry ∈ Command.table, entry.2 = .control .configurationDone →
      entry.1 ∈ configurations ∧ entry.1 ∉ launches := by decide
  exact table _ (Command.mem_table named) rfl

theorem launch_listed {name : String} {command : ControlCommand}
    (named : Command.ofName? name = some (.control command))
    (launch : command = .launch ∨ command = .attach) :
    name ∉ configurations ∧ name ∈ launches := by
  have table : ∀ entry ∈ Command.table, entry.2 = .control .launch ∨ entry.2 = .control .attach →
      entry.1 ∉ configurations ∧ entry.1 ∈ launches := by decide
  exact table _ (Command.mem_table named) (by simpa using launch)

namespace Session

variable {session next : Session} {request : Option Request}

/-- The signals are what the client was told, both of them open the barrier, and nothing happens
before they do. -/
structure Barrier (session : Session) : Prop where
  configured : session.debugger.configured = true ↔ Granted configurations session.outbox
  launched : session.debugger.launched = true ↔ Granted launches session.outbox
  opened : session.debugger.control.state ≠ .initializing →
    session.debugger.control.state ≠ .terminated →
    session.debugger.configured = true ∧ session.debugger.launched = true
  unhit : session.debugger.control.state = .initializing → session.debugger.breakpoints.Unhit
  order : ∀ before after thread reason exception,
    session.outbox = before ++ .event (.stopped thread reason exception) :: after →
    Granted configurations before ∧ Granted launches before

theorem barrier_new : ({} : Session).Barrier where
  configured := by simp [Granted]
  launched := by simp [Granted]
  opened := by simp
  unhit := fun _ _ member => absurd member List.not_mem_nil
  order := by simp

/-- What precedes a stop is not changed by messages that tell of none. -/
theorem Barrier.order_append (barrier : session.Barrier) {sent before after : List Message}
    {thread : Nat} {reason : StopReason} {exception : Option ExceptionRecord}
    (unstopped : .event (.stopped thread reason exception) ∉ sent)
    (split : session.outbox ++ sent = before ++ .event (.stopped thread reason exception) :: after) :
    Granted configurations before ∧ Granted launches before := by
  rcases List.append_eq_append_iff.mp split with ⟨more, _, rest⟩ | ⟨more, old, rest⟩
  · simp [rest] at unstopped
  · cases more with
    | nil =>
      rw [List.nil_append] at rest
      simp [← rest] at unstopped
    | cons first more =>
      obtain ⟨rfl, _⟩ := List.cons.inj rest
      exact barrier.order before more thread reason exception old

theorem Barrier.plain (barrier : session.Barrier) {sent : List Message}
    (outbox : next.outbox = session.outbox ++ sent) (plain : Plain sent)
    (configured : next.debugger.configured = session.debugger.configured)
    (launched : next.debugger.launched = session.debugger.launched)
    (opened : next.debugger.control.state ≠ .initializing →
      next.debugger.control.state ≠ .terminated →
      session.debugger.control.state ≠ .initializing ∧
        session.debugger.control.state ≠ .terminated)
    (unhit : next.debugger.control.state = .initializing → next.debugger.breakpoints.Unhit) :
    next.Barrier := by
  refine ⟨?_, ?_, ?_, unhit, ?_⟩
  · rw [configured, outbox, granted_append, or_iff_left plain.unconfigured]
    exact barrier.configured
  · rw [launched, outbox, granted_append, or_iff_left plain.unlaunched]
    exact barrier.launched
  · intro begun live
    obtain ⟨begun, live⟩ := opened begun live
    rw [configured, launched]
    exact barrier.opened begun live
  · intro before after thread reason exception split
    rw [outbox] at split
    exact barrier.order_append (plain.unstopped thread reason exception) split

/-- Messages alone do not lift the barrier. -/
theorem Barrier.told (barrier : session.Barrier) {sent : List Message}
    (outbox : next.outbox = session.outbox ++ sent) (plain : Plain sent)
    (control : next.debugger.control = session.debugger.control)
    (configured : next.debugger.configured = session.debugger.configured)
    (launched : next.debugger.launched = session.debugger.launched)
    (breakpoints : next.debugger.breakpoints = session.debugger.breakpoints) : next.Barrier := by
  refine barrier.plain outbox plain configured launched ?_ ?_
  · rw [control]
    exact fun begun live => ⟨begun, live⟩
  · rw [control, breakpoints]
    exact barrier.unhit

theorem Quiet.barrier (quiet : Quiet session next) (barrier : session.Barrier) : next.Barrier := by
  obtain ⟨news, incidental, outbox⟩ := quiet.outbox
  refine barrier.plain outbox incidental.plain quiet.configured quiet.launched ?_ ?_
  · rw [quiet.control]
    exact fun begun live => ⟨begun, live⟩
  · rw [quiet.control]
    intro held
    rw [quiet.unvisited held]
    exact barrier.unhit held

theorem Advance.barrier (advance : Advance session next) (barrier : session.Barrier) :
    next.Barrier := by
  rcases advance.effect with quiet | ⟨call, reason, exception, news, _, free, enters, incidental,
    outbox, _, configured, launched⟩
  · exact quiet.barrier barrier
  · obtain ⟨live, begun⟩ := Free.state free
    have signals := barrier.opened begun live
    have granted : Granted configurations session.outbox ∧ Granted launches session.outbox :=
      ⟨barrier.configured.mp signals.1, barrier.launched.mp signals.2⟩
    have kept : ∀ sent, Granted configurations (session.outbox ++ sent) ∧
        Granted launches (session.outbox ++ sent) := fun sent =>
      ⟨granted_append.mpr (Or.inl granted.1), granted_append.mpr (Or.inl granted.2)⟩
    rw [List.append_assoc] at outbox
    refine ⟨?_, ?_, fun _ _ => by rw [configured, launched]; exact signals,
      fun held => (by simp [enters.state] at held), ?_⟩
    · rw [configured, outbox]
      exact iff_of_true signals.1 (kept _).1
    · rw [launched, outbox]
      exact iff_of_true signals.2 (kept _).2
    · intro before after thread cause record split
      rw [outbox] at split
      rcases List.append_eq_append_iff.mp split with ⟨more, rfl, _⟩ | ⟨more, old, rest⟩
      · exact kept more
      · cases more with
        | nil =>
          rw [List.append_nil] at old
          exact old ▸ granted
        | cons first more =>
          obtain ⟨rfl, _⟩ := List.cons.inj rest
          exact barrier.order before more thread cause record old

theorem Advances.barrier (advances : Advances session next) (barrier : session.Barrier) :
    next.Barrier := by
  induction advances with
  | refl => exact barrier
  | tail _ last ih => exact last.barrier ih

/-- A signal is told to the client as it is taken over. -/
theorem Barrier.signal (barrier : session.Barrier) {taken : Request} {change : Change}
    (before : News change.before) (after : change.after = [])
    (control : change.debugger.control = session.debugger.control)
    (breakpoints : change.debugger.breakpoints = session.debugger.breakpoints)
    (configured : change.debugger.configured = true ↔
      session.debugger.configured = true ∨ taken.command ∈ configurations)
    (launched : change.debugger.launched = true ↔
      session.debugger.launched = true ∨ taken.command ∈ launches) :
    (session.apply taken change).Barrier := by
  have outbox : (session.apply taken change).outbox = session.outbox ++ (change.before ++
      [.response taken.seq taken.command (.ok change.body)]) := by
    rw [apply_outbox, after, List.map_nil, List.append_nil]
  refine ⟨?_, ?_, ?_, ?_, ?_⟩
  · rw [outbox, granted_append, granted_append, granted_response,
      or_iff_right before.plain.unconfigured, ← barrier.configured]
    exact configured
  · rw [outbox, granted_append, granted_append, granted_response,
      or_iff_right before.plain.unlaunched, ← barrier.launched]
    exact launched
  · intro begun live
    change change.debugger.control.state ≠ _ at begun live
    rw [control] at begun live
    obtain ⟨first, last⟩ := barrier.opened begun live
    exact ⟨configured.mpr (Or.inl first), launched.mpr (Or.inl last)⟩
  · intro held
    change change.debugger.control.state = _ at held
    change change.debugger.breakpoints.Unhit
    rw [breakpoints]
    exact barrier.unhit (control ▸ held)
  · intro before' after' thread reason exception split
    rw [outbox] at split
    refine barrier.order_append ?_ split
    rw [List.mem_append, not_or]
    exact ⟨before.plain.unstopped thread reason exception, by simp⟩

/-- New breakpoints have not been hit, and a pause that is asked for does not lift the barrier. -/
theorem Barrier.adjust (barrier : session.Barrier) {taken : Request} {command : ControlCommand}
    {change : Change} (named : Command.ofName? taken.command = some (.control command))
    (adjusts : command.adjusts = true)
    (carried : session.debugger.carryOut command taken = .ok change) :
    (session.apply taken change).Barrier := by
  obtain ⟨before, after, control, breakpoints, _, _, _, _, same, asked, installed⟩ :=
    Debugger.carryOut_adjusts carried adjusts
  have state : control.state = session.debugger.control.state := by
    rcases asked with rfl | ⟨_, paused⟩
    · rfl
    · exact (Execution.Control.requestPause_keeps paused).1
  have unhit : session.debugger.breakpoints.Unhit → breakpoints.Unhit := by
    rcases installed with rfl | ⟨key, source, requests, rfl⟩
    · exact id
    · exact fun unhit => unhit.replace key source requests
  have other : (Command.control command).signals = false := by
    cases command <;> first | rfl | contradiction
  have told : Plain (change.after.map .event) := by
    rcases after with after | after <;> simp [after, Plain, Message.plain]
  have sent : Plain (change.before ++ ([.response taken.seq taken.command (.ok change.body)] ++
      change.after.map .event)) := by
    rw [before]
    exact (response_plain taken _ named other).append told
  refine barrier.plain (apply_outbox session taken change) sent ?_ ?_ ?_ ?_
  all_goals simp only [apply, emit, send, answer, same, state]
  · exact fun begun live => ⟨begun, live⟩
  · exact fun held => unhit (barrier.unhit held)

/-- The program is released only when both signals have come. -/
theorem Barrier.release (barrier : session.Barrier) :
    (session.modifyDebugger (·.releaseIfReady)).Barrier := by
  obtain ⟨control, same, rfl | ⟨configured, launched, done⟩⟩ :=
    Debugger.releaseIfReady_spec session.debugger
  · simp only [modifyDebugger, same]
    exact barrier
  · obtain ⟨_, rfl⟩ := Execution.Control.configurationDone_eq_some.mp done
    simp only [modifyDebugger, same]
    exact ⟨barrier.configured, barrier.launched, fun _ _ => ⟨configured, launched⟩, by simp,
      barrier.order⟩

theorem Ended.barrier {answers : List Message} (ended : Ended session next answers)
    (plain : Plain answers) (barrier : session.Barrier) : next.Barrier := by
  have ends : next.debugger.control.state = .terminated := ended.state
  obtain ⟨news, incidental, ⟨_, _, outbox⟩ | ⟨_, _, outbox⟩⟩ := ended.outbox
  · simp only [List.append_assoc] at outbox
    refine barrier.plain outbox ?_ ended.configured ended.launched
      (fun _ live => absurd ends live) (fun held => by simp [ends] at held)
    have last : Plain [.event .terminated] := by simp [Plain, Message.plain]
    exact (refusals_plain _ _).append (incidental.plain.append (plain.append last))
  · rw [List.append_assoc] at outbox
    exact barrier.plain outbox (incidental.plain.append plain) ended.configured ended.launched
      (fun _ live => absurd ends live) (fun held => by simp [ends] at held)

theorem Act.barrier (act : Act session request next) (coherent : session.Coherent)
    (barrier : session.Barrier) : next.Barrier := by
  cases act with
  | aside aside => exact aside.quiet.barrier barrier
  | refuse => exact barrier.told rfl (by simp [Plain, Message.plain]) rfl rfl rfl rfl
  | evaluate taken outcome _ named =>
    exact barrier.told rfl (response_plain taken outcome named rfl) rfl rfl rfl rfl
  | adjust taken command change _ named adjusts _ carried =>
    exact barrier.adjust named adjusts carried
  | start taken command change _ named launch _ started =>
    obtain ⟨fresh, config, events, _, _, _, _, incidental, same⟩ := Debugger.start_spec started
    obtain ⟨other, listed⟩ := launch_listed named launch
    have before : News change.before := same ▸ news_events incidental
    refine (barrier.signal before ?_ ?_ ?_ ?_ ?_).release
    all_goals simp [same, other, listed, Debugger.reconfigure]
  | configure taken change _ named _ done =>
    obtain ⟨fresh, same⟩ := Debugger.configurationDone_spec done
    obtain ⟨listed, other⟩ := configuration_listed named
    have before : News change.before := same ▸ news_nil
    refine (barrier.signal before ?_ ?_ ?_ ?_ ?_).release
    all_goals simp [same, other, listed]
  | close taken command exit _ named finishes =>
    refine (close_ended session taken exit).barrier (response_plain taken _ named ?_) barrier
    rcases finishes with rfl | rfl <;> rfl
  | defer | release | dismiss =>
    exact barrier.told (List.append_nil _).symm (by simp [Plain]) rfl rfl rfl rfl
  | decline => exact barrier.told rfl (by simp [Plain, Message.plain]) rfl rfl rfl rfl
  | reply deferred rest stop body fetched waiting =>
    have named := coherent.queued.commands deferred (by simp [waiting])
    exact barrier.told rfl (response_plain deferred.request _ named rfl) rfl rfl rfl rfl
  | resume deferred rest stop how body control waiting _ _ resumed =>
    have named := coherent.queued.commands deferred (by simp [waiting])
    have answered := response_plain deferred.request (.ok body) named rfl
    obtain ⟨reason, state⟩ := coherent.queued.state (by simp [waiting])
    have begun := (Execution.Control.resume_runs state resumed).1
    exact barrier.plain rfl (answered.append (refusals_plain rest _)) rfl rfl
      (fun _ _ => by simp [state]) fun held => absurd held begun
  | detach handle announce =>
    obtain ⟨control, changed, quiet⟩ := detach_quiet coherent.control handle announce
    refine quiet.barrier ?_
    rcases changed with rfl | ⟨⟨kind, stepping⟩, rfl⟩
    · exact barrier
    · exact barrier.plain (List.append_nil _).symm (by simp [Plain]) rfl rfl
        (fun _ _ => by simp [stepping]) (by simp [modifyDebugger])
  | capture => exact (capture_quiet _ _ _ _).barrier barrier
  | reconfigure change => exact (configure_quiet session change).barrier barrier
  | shutdown => exact (shutdown_ended session).barrier (by simp [Plain]) barrier

theorem Acts.barrier {taken : List Request} (acts : Acts session taken next)
    (coherent : session.Coherent) (barrier : session.Barrier) : next.Barrier := by
  induction acts with
  | refl => exact barrier
  | tail acts act ih => exact act.barrier (acts.coherent coherent) ih

theorem run_barrier (steps : List Step) : (({} : Session).run steps).Barrier := by
  refine run_induction (P := fun _ session => session.Barrier) barrier_new ?_ steps
  intro _ session step settled barrier
  obtain ⟨taken, middle, acts, _, advances, _⟩ := perform_moves settled step
  exact advances.barrier (acts.barrier settled.coherent barrier)

/-- A program that is held back after a move was so before, and its calls go on waiting. -/
theorem Advance.held (advance : Advance session next)
    (held : next.debugger.control.state = .initializing) :
    session.debugger.control.state = .initializing ∧ session.blocked <+: next.blocked := by
  have before : session.debugger.control.state = .initializing := by
    rcases Advances.unmoved (.single advance) with same | ⟨reason, stopped⟩
    · rw [← same, held]
    · simp [stopped] at held
  refine ⟨before, ?_⟩
  cases advance with
  | aside aside => cases aside <;> exact List.prefix_refl _
  | arrive call => exact List.prefix_append _ _
  | attach | suspend | wake | say | hit => exact List.prefix_refl _
  | leave call earlier later _ free | stop call earlier later _ _ _ _ free =>
    exact absurd before (Free.state free).2

theorem Advances.held (advances : Advances session next)
    (held : next.debugger.control.state = .initializing) :
    session.debugger.control.state = .initializing ∧ session.blocked <+: next.blocked := by
  induction advances with
  | refl => exact ⟨held, List.prefix_refl _⟩
  | tail _ last ih =>
    obtain ⟨middle, kept⟩ := last.held held
    obtain ⟨before, earlier⟩ := ih middle
    exact ⟨before, earlier.trans kept⟩

theorem releaseIfReady_held (debugger : Debugger)
    (held : debugger.releaseIfReady.control.state = .initializing) :
    debugger.control.state = .initializing := by
  obtain ⟨control, same, rfl | ⟨_, _, done⟩⟩ := debugger.releaseIfReady_spec
  · rwa [same] at held
  · obtain ⟨initializing, _⟩ := Execution.Control.configurationDone_eq_some.mp done
    exact initializing

theorem Act.held (act : Act session request next) (coherent : session.Coherent)
    (held : next.debugger.control.state = .initializing) :
    session.debugger.control.state = .initializing ∧ next.blocked = session.blocked := by
  cases act with
  | aside aside =>
    rw [aside.quiet.control] at held
    exact ⟨held, by cases aside <;> rfl⟩
  | refuse | evaluate | defer | decline | reply => exact ⟨held, rfl⟩
  | adjust taken command change _ _ adjusts _ carried =>
    obtain ⟨_, _, control, _, _, _, _, _, same, asked, _⟩ :=
      Debugger.carryOut_adjusts carried adjusts
    refine ⟨?_, rfl⟩
    simp only [apply, emit, send, answer, same] at held
    rcases asked with rfl | ⟨_, paused⟩
    · exact held
    · exact (Execution.Control.requestPause_keeps paused).1 ▸ held
  | start taken command change _ _ _ _ started =>
    obtain ⟨_, config, events, _, _, _, _, _, same⟩ := Debugger.start_spec started
    have before := releaseIfReady_held _ held
    simp only [apply, emit, send, answer, same] at before
    exact ⟨before, rfl⟩
  | configure taken change _ _ _ done =>
    obtain ⟨_, same⟩ := Debugger.configurationDone_spec done
    have before := releaseIfReady_held _ held
    simp only [apply, emit, send, answer, same] at before
    exact ⟨before, rfl⟩
  | close taken command exit =>
    cases (close_ended session taken exit).state.symm.trans held
  | shutdown => cases (shutdown_ended session).state.symm.trans held
  | resume deferred rest stop how body control waiting _ _ resumed =>
    obtain ⟨reason, state⟩ := coherent.queued.state (by simp [waiting])
    exact absurd held (Execution.Control.resume_runs state resumed).1
  | detach handle announce =>
    obtain ⟨registry, control, news, _, _, _, _, changed, same⟩ :=
      detach_spec coherent.control handle announce
    rw [same] at held ⊢
    rcases changed with rfl | ⟨_, rfl⟩
    · exact ⟨held, rfl⟩
    · contradiction
  | capture =>
    rw [(capture_quiet _ _ _ _).control] at held
    exact ⟨held, rfl⟩
  | reconfigure change =>
    obtain ⟨_, _, _, _, news, _, same⟩ := configure_spec session change
    rw [same] at held ⊢
    exact ⟨held, rfl⟩
  | release stop ends | dismiss call rest ends => cases ends.symm.trans held

theorem Acts.held {taken : List Request} (acts : Acts session taken next)
    (coherent : session.Coherent) (held : next.debugger.control.state = .initializing) :
    session.debugger.control.state = .initializing ∧ next.blocked = session.blocked := by
  induction acts with
  | refl => exact ⟨held, rfl⟩
  | tail acts act ih =>
    obtain ⟨middle, same⟩ := act.held (acts.coherent coherent) held
    obtain ⟨before, kept⟩ := ih middle
    exact ⟨before, same.trans kept⟩

theorem perform_held (settled : session.Settled) (step : Step)
    (held : (session.perform step).1.debugger.control.state = .initializing) :
    session.debugger.control.state = .initializing ∧
      session.blocked <+: (session.perform step).1.blocked := by
  obtain ⟨taken, middle, acts, _, advances, _⟩ := perform_moves settled step
  obtain ⟨between, kept⟩ := advances.held held
  obtain ⟨before, same⟩ := acts.held settled.coherent between
  exact ⟨before, same ▸ kept⟩

/-- A call of a handle has not returned, and neither has another. -/
structure Waits (session next : Session) (handle : Nat) : Prop where
  control : next.debugger.control = session.debugger.control
  finished : next.finished = session.finished
  blocked : next.isBlockedAt handle = true

variable {middle : Session} {handle : Nat}

theorem Waits.after (waits : Waits middle next handle)
    (control : middle.debugger.control = session.debugger.control)
    (finished : middle.finished = session.finished) : Waits session next handle :=
  ⟨waits.control.trans control, waits.finished.trans finished, waits.blocked⟩

theorem enter_waits (held : session.debugger.control.state = .initializing) (call : Call) :
    Waits session (session.enter call) call.handle := by
  have waits : session.debugger.control.waitUntilRunnable call.thread = none := by
    simp [Execution.Control.waitUntilRunnable, Execution.Control.blocks, held]
  simp only [enter, waits]
  exact ⟨rfl, rfl, by simp [isBlockedAt, block]⟩

theorem raise_waits (held : session.debugger.control.state = .initializing) (handle : Nat)
    (call : Call) : Waits session ((session.attach handle).1.enter call) call.handle := by
  have before : (session.attach handle).1.debugger.control.state = .initializing := held
  exact (enter_waits before call).after rfl rfl

theorem visitLine_waits (held : session.debugger.control.state = .initializing) (thread : Nat)
    (interpreter : Interpreter) (line : Nat) :
    Waits session (session.visitLine handle thread interpreter line) handle := by
  obtain ⟨sources, callbacks, news, _, same⟩ := discover_spec session interpreter interpreter.chunk
  have control : (session.discover interpreter interpreter.chunk).debugger.control =
      session.debugger.control := by rw [same]
  have finished : (session.discover interpreter interpreter.chunk).finished =
      session.finished := by rw [same]
  have entered : Waits (session.discover interpreter interpreter.chunk)
      (session.visitLine handle thread interpreter line) handle :=
    enter_waits (control ▸ held) _
  exact entered.after control finished

theorem hook_waits (coherent : session.Coherent)
    (held : session.debugger.control.state = .initializing) (interpreter : Interpreter)
    (line : Nat) : Waits session (session.hook handle interpreter (.line line)) handle := by
  have quick : session.debugger.control.quick = .wait := by
    rw [coherent.control.published, Execution.Control.brief, held]
  have found : (session.findOrAttach handle).1.debugger.control = session.debugger.control ∧
      (session.findOrAttach handle).1.finished = session.finished := by
    unfold findOrAttach
    split <;> exact ⟨rfl, rfl⟩
  generalize known : session.findOrAttach handle = attached at found
  obtain ⟨attaching, thread⟩ := attached
  obtain ⟨control, finished⟩ := found
  simp only [hook, quick, known, passesBy]
  exact (visitLine_waits (control ▸ held) thread.id interpreter line).after control finished

theorem exception_waits (coherent : session.Coherent)
    (held : session.debugger.control.state = .initializing) (interpreter : Interpreter)
    {kind : ExceptionKind} (message : String)
    (armed : session.debugger.exceptionFilters.contains kind.filter = true) :
    Waits session (session.exception handle interpreter kind message) handle := by
  have running : session.isTerminated = false := by
    rw [← Bool.not_eq_true, isTerminated_iff coherent, held]
    simp
  simp only [exception, running, armed, Bool.not_true, Bool.or_false, Bool.false_eq_true, if_false]
  exact raise_waits held handle _

theorem panic_waits (coherent : session.Coherent)
    (held : session.debugger.control.state = .initializing) (interpreter : Interpreter)
    (message : String) : Waits session (session.panic handle interpreter message) handle := by
  have running : session.isTerminated = false := by
    rw [← Bool.not_eq_true, isTerminated_iff coherent, held]
    simp
  simp only [panic, running, Bool.false_eq_true, if_false]
  exact raise_waits held handle _

theorem settle_initializing (valid : session.debugger.control.Valid)
    (held : session.debugger.control.state = .initializing) : session.settle = session :=
  settle_held (fun ended => by simp [valid.terminated_iff.mp ended] at held) (Or.inr held)

theorem call_waits (coherent : session.Coherent)
    (held : session.debugger.control.state = .initializing) (run : Session → Session)
    (waits : Waits session (run session) handle) :
    Waits session (session.call handle run).1 handle ∧ (session.call handle run).2 ≠ .done := by
  have unstopped : session.stopped = none := by
    have free := coherent.control.stopper_none (by simp [held])
    rw [coherent.holder (by simp [held])] at free
    simpa using free
  unfold call
  split
  · rename_i busy
    refine ⟨⟨rfl, rfl, ?_⟩, by simp⟩
    simpa [isStoppedAt, unstopped] using busy
  · have still : (run session).settle = run session :=
      settle_initializing (waits.control ▸ coherent.control) (waits.control ▸ held)
    simp only [still]
    refine ⟨waits, ?_⟩
    simp only [callState, waits.blocked]
    split <;> simp

end Session

/-- Whether a step makes a call of a handle at which its thread may stop. -/
def Step.Halts (debugger : Debugger) (handle : Nat) : Step → Prop
  | .hook caller _ (.line _) => caller = handle
  | .lines caller (_ :: _) => caller = handle
  | .exception caller _ kind _ =>
    caller = handle ∧ debugger.exceptionFilters.contains kind.filter = true
  | .panic caller _ _ => caller = handle
  | _ => False

namespace Session

theorem perform_waits {session : Session} {handle : Nat} {step : Step}
    (coherent : session.Coherent) (held : session.debugger.control.state = .initializing)
    (halts : step.Halts session.debugger handle) :
    Waits session (session.perform step).1 handle := by
  cases step with
  | hook caller interpreter event =>
    cases event with
    | line line =>
      cases halts
      exact (call_waits coherent held (·.hook handle interpreter (.line line))
        (hook_waits coherent held interpreter line)).1
    | call | return_ => exact halts.elim
  | lines caller places =>
    cases places with
    | nil => exact halts.elim
    | cons place rest =>
      obtain ⟨interpreter, line⟩ := place
      cases halts
      obtain ⟨waits, unfinished⟩ :=
        call_waits coherent held (·.hook handle interpreter (.line line))
          (hook_waits coherent held interpreter line)
      simp only [perform, lines]
      exact waits
  | exception caller interpreter kind message =>
    obtain ⟨rfl, armed⟩ := halts
    exact (call_waits coherent held (·.exception caller interpreter kind message)
      (exception_waits coherent held interpreter message armed)).1
  | panic caller interpreter message =>
    cases halts
    exact (call_waits coherent held (·.panic handle interpreter message)
      (panic_waits coherent held interpreter message)).1
  | _ => exact halts.elim

/-- Execution is held back exactly until the client has configured the session and launched or
attached to the program. As long as it is, no thread stops and no breakpoint is hit; a line, an armed
exception or a panic waits, and so do the calls before it. Both signals come before any stop. -/
theorem configuration_barrier (steps : List Step) :
    ((({} : Session).run steps).debugger.control.state = .initializing ↔
      (({} : Session).run steps).debugger.control.state ≠ .terminated ∧
        ¬(Granted configurations (({} : Session).run steps).outbox ∧
          Granted launches (({} : Session).run steps).outbox)) ∧
    ((({} : Session).run steps).debugger.control.state = .initializing →
      (∀ thread reason exception,
        .event (.stopped thread reason exception) ∉ (({} : Session).run steps).outbox) ∧
      (∀ key line breakpoint,
        (({} : Session).run steps).debugger.breakpoints.get? key line = some breakpoint →
          breakpoint.hits = 0) ∧
      ∀ step handle, step.Halts (({} : Session).run steps).debugger handle →
        let after := ((({} : Session).run steps).perform step).1
        after.debugger.control.state = .initializing ∧
          after.finished = (({} : Session).run steps).finished ∧
          after.isBlockedAt handle = true) ∧
    (∀ step, let after := ((({} : Session).run steps).perform step).1
      after.debugger.control.state = .initializing →
        (({} : Session).run steps).debugger.control.state = .initializing ∧
          (({} : Session).run steps).blocked <+: after.blocked) ∧
    ∀ before after thread reason exception,
      (({} : Session).run steps).outbox =
          before ++ .event (.stopped thread reason exception) :: after →
        Granted configurations before ∧ Granted launches before := by
  have settled := run_settled steps
  have barrier := run_barrier steps
  generalize ({} : Session).run steps = session at settled barrier
  have closed : session.debugger.control.state = .initializing →
      ¬(Granted configurations session.outbox ∧ Granted launches session.outbox) := by
    rintro held ⟨configured, launched⟩
    exact settled.coherent.released (barrier.configured.mpr configured)
      (barrier.launched.mpr launched) held
  refine ⟨⟨fun held => ⟨by simp [held], closed held⟩, ?_⟩, fun held => ⟨?_, ?_, ?_⟩, ?_, barrier.order⟩
  · rintro ⟨live, ungranted⟩
    by_contra begun
    obtain ⟨configured, launched⟩ := barrier.opened begun live
    exact ungranted ⟨barrier.configured.mp configured, barrier.launched.mp launched⟩
  · intro thread reason exception sent
    obtain ⟨before, after, split⟩ := List.append_of_mem sent
    obtain ⟨configured, launched⟩ := barrier.order before after thread reason exception split
    refine closed held ?_
    rw [split, granted_append, granted_append]
    exact ⟨Or.inl configured, Or.inl launched⟩
  · exact fun key line breakpoint found => (barrier.unhit held).get? found
  · intro step handle halts
    have waits := perform_waits settled.coherent held halts
    exact ⟨waits.control ▸ held, waits.finished, waits.blocked⟩
  · exact fun step held => perform_held settled step held

end Session
end DebugAdapter
