import DebugAdapter.Proofs.Session.Move

/-! What each move does to the messages, the control and the queue of a session. -/
namespace DebugAdapter

/-- Messages that no request and no stop depends on. -/
def News (messages : List Message) : Prop :=
  ∀ message ∈ messages, ∃ event, message = .event event ∧ event.Incidental

theorem news_events {events : List Event} (incidental : ∀ event ∈ events, event.Incidental) :
    News (events.map .event) := by
  intro message member
  obtain ⟨event, inside, rfl⟩ := List.mem_map.mp member
  exact ⟨event, rfl, incidental event inside⟩

theorem Command.mem_table {name : String} {command : Command}
    (named : Command.ofName? name = some command) : (name, command) ∈ Command.table := by
  obtain ⟨before, after, split, _⟩ := List.lookup_eq_some_iff.mp named
  simp [split]

theorem news_nil : News [] :=
  fun _ member => absurd member List.not_mem_nil

namespace Session

variable {session next : Session} {call : Call}

theorem apply_outbox (session : Session) (request : Request) (change : Change) :
    (session.apply request change).outbox = session.outbox ++ (change.before ++
      ([.response request.seq request.command (.ok change.body)] ++ change.after.map .event)) := by
  simp only [apply, emit, send, answer, List.append_assoc]

theorem discover_spec (session : Session) (interpreter : Interpreter) (chunk : List UInt8) :
    ∃ sources callbacks news, News news ∧ session.discover interpreter chunk =
      { session with
        debugger := { session.debugger with sources }
        callbacks, outbox := session.outbox ++ news } := by
  obtain ⟨⟨sources, same⟩, incidental⟩ := Debugger.resolve_spec session.debugger interpreter chunk
  refine ⟨sources, session.callbacks ++ (session.debugger.resolve interpreter chunk).callbacks, _,
    news_events incidental, ?_⟩
  simp only [discover, emit, send, note, same]

theorem attach_spec (session : Session) (handle : Nat) :
    ∃ news, News news ∧ (session.attach handle).1 =
      { session with
        debugger := { session.debugger with
          registry := (session.debugger.registry.attach handle).1 }
        outbox := session.outbox ++ news } :=
  ⟨_, news_events (Debugger.attach_events session.debugger handle), rfl⟩

theorem wake_spec (debugger : Debugger) (call : Call) :
    ∃ registry, wake debugger call = { debugger with registry } ∧
      registry.roster = debugger.registry.roster ∧ registry.lastId = debugger.registry.lastId := by
  unfold wake
  split
  · exact ⟨debugger.registry, rfl, rfl, rfl⟩
  · exact ⟨_, rfl, Registry.modify_roster _ _ fun _ => by split <;> rfl, rfl⟩

theorem stop_spec (session : Session) (call : Call) (reason : Execution.StopReason)
    (exception : Option ExceptionRecord) :
    ∃ registry output news, News news ∧
      registry.roster = session.debugger.registry.roster ∧
      registry.lastId = session.debugger.registry.lastId ∧
      session.stop call reason exception =
        { session with
          debugger := { session.debugger with registry, output }
          stopped := some { call }
          outbox := session.outbox ++ news ++ [.event (.stopped call.thread reason exception)] } := by
  let registry := session.debugger.registry.update fun thread =>
    if thread.id = call.thread then thread.setStopped reason exception else thread.setSuspended
  obtain ⟨⟨output, same⟩, incidental⟩ :=
    Debugger.flushOutput_spec { session.debugger with registry }
  have roster : registry.roster = session.debugger.registry.roster :=
    Registry.update_roster _ fun thread => by split <;> rfl
  refine ⟨registry, output, _, news_events incidental, roster, rfl, ?_⟩
  simp only [stop, emit, send, List.map_append, List.map_cons, List.map_nil, List.append_assoc]
  rw [same]

theorem capture_spec (session : Session) (category : Output.Category) (bytes : List UInt8)
    (attribution : Option Output.Attribution) :
    ∃ output news, News news ∧ session.capture category bytes attribution =
      { session with
        debugger := { session.debugger with output }
        outbox := session.outbox ++ news } := by
  obtain ⟨⟨output, same⟩, incidental⟩ :=
    Debugger.capture_spec session.debugger category bytes attribution
  refine ⟨output, _, news_events incidental, ?_⟩
  simp only [capture, emit, send, same]

theorem configure_spec (session : Session) (change : Except Config.Error Config.Store) :
    ∃ config mapping sources exceptionFilters news, News news ∧ (session.configure change).1 =
      { session with
        debugger := { session.debugger with config, mapping, sources, exceptionFilters }
        outbox := session.outbox ++ news } := by
  cases change with
  | error error =>
    refine ⟨session.debugger.config, session.debugger.mapping, session.debugger.sources,
      session.debugger.exceptionFilters, [], news_nil, ?_⟩
    simp only [configure, List.append_nil]
  | ok config =>
    obtain ⟨⟨sources, exceptionFilters, same⟩, incidental⟩ :=
      Debugger.reconfigure_spec session.debugger config
    refine ⟨config, config.mapping, sources, exceptionFilters, _, news_events incidental, ?_⟩
    simp only [configure, emit, send, same]

/-- A step that is abandoned lets its thread run. -/
theorem detach_spec (valid : session.debugger.control.Valid) (handle : Nat) (announce : Bool) :
    ∃ registry control news, News news ∧
      registry.roster.Sublist session.debugger.registry.roster ∧
      registry.lastId = session.debugger.registry.lastId ∧ control.Valid ∧
      (control = session.debugger.control ∨
        ((∃ kind, session.debugger.control.state = .stepping kind) ∧
          control = Execution.Control.publish
            { session.debugger.control with state := .running, step := none })) ∧
      (session.detach handle announce).1 =
        { session with
          debugger := { session.debugger with registry, control }
          outbox := session.outbox ++ news } := by
  cases detached : session.debugger.detach handle announce with
  | none =>
    refine ⟨session.debugger.registry, session.debugger.control, [], news_nil, List.Sublist.refl _,
      rfl, valid, Or.inl rfl, ?_⟩
    simp only [detach, detached, List.append_nil]
  | some result =>
    obtain ⟨debugger, events⟩ := result
    obtain ⟨⟨registry, thread, gone, rfl⟩, incidental⟩ := Debugger.detach_spec detached
    obtain ⟨kept, lastId⟩ := Registry.detach_spec gone
    simp only [detach, detached]
    cases abandoned : session.debugger.control.abandonStep thread.id with
    | none => exact ⟨registry, _, _, news_events incidental, kept, lastId, valid, Or.inl rfl, rfl⟩
    | some control =>
      have ran := Execution.Control.valid_abandonStep valid abandoned
      obtain ⟨⟨target, armed, _⟩, rfl⟩ := Execution.Control.abandonStep_spec valid abandoned
      have stepping := (valid.stepping target.kind).mpr (by simp [armed])
      exact ⟨registry, _, _, news_events incidental, kept, lastId, ran,
        Or.inr ⟨⟨target.kind, stepping⟩, rfl⟩, rfl⟩

theorem Free.state (free : session.Free call) :
    session.debugger.control.state ≠ .terminated ∧
      session.debugger.control.state ≠ .initializing := by
  obtain ⟨live, unblocked⟩ := Execution.Control.waitUntilRunnable_eq_true.mp free
  refine ⟨live, ?_⟩
  intro initializing
  simp [Execution.Control.blocks, initializing] at unblocked

/-- Nothing but news is sent, and what was asked for, granted and stopped stays as it is. Breakpoints
do so as long as the program is held back. -/
structure Quiet (session next : Session) : Prop where
  outbox : ∃ news, News news ∧ next.outbox = session.outbox ++ news
  control : next.debugger.control = session.debugger.control
  queue : next.debugger.queue = session.debugger.queue
  configured : next.debugger.configured = session.debugger.configured
  launched : next.debugger.launched = session.debugger.launched
  unvisited : session.debugger.control.state = .initializing →
    next.debugger.breakpoints = session.debugger.breakpoints

theorem quiet_silent (outbox : next.outbox = session.outbox)
    (control : next.debugger.control = session.debugger.control)
    (queue : next.debugger.queue = session.debugger.queue)
    (configured : next.debugger.configured = session.debugger.configured)
    (launched : next.debugger.launched = session.debugger.launched)
    (unvisited : session.debugger.control.state = .initializing →
      next.debugger.breakpoints = session.debugger.breakpoints) : Quiet session next :=
  ⟨⟨[], news_nil, by rw [outbox, List.append_nil]⟩, control, queue, configured, launched, unvisited⟩

theorem attach_quiet (session : Session) (handle : Nat) :
    Quiet session (session.attach handle).1 := by
  obtain ⟨news, incidental, same⟩ := attach_spec session handle
  rw [same]
  exact ⟨⟨news, incidental, rfl⟩, rfl, rfl, rfl, rfl, fun _ => rfl⟩

theorem Aside.quiet (aside : Aside session next) : Quiet session next := by
  cases aside with
  | note | finish => exact quiet_silent rfl rfl rfl rfl rfl fun _ => rfl
  | discover interpreter chunk =>
    obtain ⟨sources, callbacks, news, incidental, same⟩ := discover_spec session interpreter chunk
    rw [same]
    exact ⟨⟨news, incidental, rfl⟩, rfl, rfl, rfl, rfl, fun _ => rfl⟩

/-- Threads that advance change nothing but what they stop. -/
theorem Advance.effect (advance : Advance session next) :
    Quiet session next ∨ ∃ call reason exception news,
      call ∈ session.blocked ∧ session.Free call ∧
      session.debugger.control.Enters call.thread reason next.debugger.control ∧
      News news ∧
      next.outbox = session.outbox ++ news ++ [.event (.stopped call.thread reason exception)] ∧
      next.debugger.queue = session.debugger.queue ∧
      next.debugger.configured = session.debugger.configured ∧
      next.debugger.launched = session.debugger.launched := by
  cases advance with
  | aside aside => exact Or.inl aside.quiet
  | attach handle => exact Or.inl (attach_quiet session handle)
  | arrive | suspend | leave => exact Or.inl (quiet_silent rfl rfl rfl rfl rfl fun _ => rfl)
  | hit call key line _ free =>
    exact Or.inl (quiet_silent rfl rfl rfl rfl rfl fun held => absurd held (Free.state free).2)
  | wake call =>
    obtain ⟨registry, same, _⟩ := wake_spec session.debugger call
    simp only [modifyDebugger, same]
    exact Or.inl (quiet_silent rfl rfl rfl rfl rfl fun _ => rfl)
  | say call text =>
    have incidental : ∀ event ∈ [Event.output text], event.Incidental := by simp [Event.Incidental]
    exact Or.inl ⟨⟨_, news_events incidental, rfl⟩, rfl, rfl, rfl, rfl, fun _ => rfl⟩
  | stop call before after reason exception control waits free enters =>
    obtain ⟨registry, output, news, incidental, _, _, same⟩ := stop_spec { session with
      debugger := { session.debugger with control }
      blocked := before ++ after } call reason exception
    rw [same]
    exact Or.inr ⟨call, reason, exception, news, by simp [waits], free, enters, incidental, rfl, rfl,
      rfl, rfl⟩

theorem capture_quiet (session : Session) (category : Output.Category) (bytes : List UInt8)
    (attribution : Option Output.Attribution) :
    Quiet session (session.capture category bytes attribution) := by
  obtain ⟨output, news, incidental, same⟩ := capture_spec session category bytes attribution
  rw [same]
  exact ⟨⟨news, incidental, rfl⟩, rfl, rfl, rfl, rfl, fun _ => rfl⟩

theorem configure_quiet (session : Session) (change : Except Config.Error Config.Store) :
    Quiet session (session.configure change).1 := by
  obtain ⟨config, mapping, sources, filters, news, incidental, same⟩ := configure_spec session change
  rw [same]
  exact ⟨⟨news, incidental, rfl⟩, rfl, rfl, rfl, rfl, fun _ => rfl⟩

/-- All that a detach may change is the step under way. -/
theorem detach_quiet (valid : session.debugger.control.Valid) (handle : Nat) (announce : Bool) :
    ∃ control, (control = session.debugger.control ∨
        ((∃ kind, session.debugger.control.state = .stepping kind) ∧
          control = Execution.Control.publish
            { session.debugger.control with state := .running, step := none })) ∧
      Quiet (session.modifyDebugger fun debugger => { debugger with control })
        (session.detach handle announce).1 := by
  obtain ⟨registry, control, news, incidental, _, _, _, changed, same⟩ :=
    detach_spec valid handle announce
  rw [same]
  exact ⟨control, changed, ⟨news, incidental, rfl⟩, rfl, rfl, rfl, rfl, fun _ => rfl⟩

/-- The session is over. The first end refuses what is queued and says so; later ones do not. -/
structure Ended (session next : Session) (answer : List Message) : Prop where
  state : next.debugger.control.state = .terminated
  configured : next.debugger.configured = session.debugger.configured
  launched : next.debugger.launched = session.debugger.launched
  outbox : ∃ news, News news ∧
    ((session.debugger.control.state ≠ .terminated ∧ next.debugger.queue = [] ∧
      next.outbox = session.outbox ++ session.debugger.queue.map (Debugger.refusal .terminated) ++
        news ++ answer ++ [.event .terminated]) ∨
    (session.debugger.control.state = .terminated ∧
      next.debugger.queue = session.debugger.queue ∧ next.outbox = session.outbox ++ news ++ answer))

theorem ended_of (answer : List Message)
    (same : next.debugger = session.debugger.teardown.1)
    (outbox : next.outbox = session.outbox ++ session.debugger.teardown.2.1 ++ answer ++
      if session.debugger.teardown.2.2 then [.event .terminated] else []) :
    Ended session next answer := by
  obtain ⟨output, events, incidental, ⟨control, ended, torn⟩ | ⟨ends, torn⟩⟩ :=
    Debugger.teardown_spec session.debugger
  · obtain ⟨live, rfl⟩ := Execution.Control.terminate_eq_some.mp ended
    rw [torn] at same outbox
    refine ⟨by rw [same]; rfl, by rw [same]; rfl, by rw [same]; rfl, _, news_events incidental,
      Or.inl ⟨live, by rw [same]; rfl, ?_⟩⟩
    simpa using outbox
  · rw [torn] at same outbox
    refine ⟨by rw [same]; exact ends, by rw [same]; rfl, by rw [same]; rfl, _,
      news_events incidental, Or.inr ⟨ends, by rw [same]; rfl, ?_⟩⟩
    simpa using outbox

theorem close_ended (session : Session) (request : Request) (exit : Bool) :
    Ended session (session.apply request (session.debugger.finishSession exit))
      [.response request.seq request.command (.ok .empty)] := by
  apply ended_of
  · rfl
  · simp only [apply, emit, send, answer, Debugger.finishSession]
    split <;> rfl

theorem shutdown_ended (session : Session) : Ended session session.shutdown.1 [] := by
  apply ended_of
  · rfl
  · simp only [shutdown, emit, send, List.append_nil]
    split <;> rfl

end Session
end DebugAdapter
