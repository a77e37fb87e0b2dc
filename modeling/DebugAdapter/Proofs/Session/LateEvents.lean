import DebugAdapter.Proofs.Session.Ending

/-! Which events still come once a session is over. Calls, requests and ends bring none, and output
is dropped; but a thread may yet be said to have exited, a source to be new, and sources to have
moved. -/
namespace DebugAdapter

def Message.event? : Message → Option Event
  | .event sent => some sent
  | .response .. => none

def events (messages : List Message) : List Event :=
  messages.filterMap Message.event?

theorem events_append (messages others : List Message) :
    events (messages ++ others) = events messages ++ events others :=
  List.filterMap_append

@[simp] theorem events_map (sent : List Event) : events (sent.map .event) = sent := by
  rw [events, List.filterMap_map]
  exact List.filterMap_some

/-- The sources that a change of the configuration says to have moved. -/
def Debugger.movedBy (debugger : Debugger) (change : Except Config.Error Config.Store) :
    List Event :=
  match change with
  | .ok config => (debugger.reconfigure config).2
  | .error _ => []

/-- The events that a step brings in a session that is over. -/
def Step.late (debugger : Debugger) : Step → List Event
  | .detach handle true =>
    ((debugger.registry.findByHandle? handle).map (Event.thread .exited ·.id)).toList
  | .print _ (some (interpreter, _)) | .capture _ _ (some (interpreter, _)) =>
    (debugger.resolve interpreter interpreter.chunk).events
  | .updateConfig update => debugger.movedBy (debugger.config.apply .runtime update)
  | .loadDefaults path content => debugger.movedBy (debugger.config.loadDefaults path content)
  | _ => []

namespace Session

/-- From one session to the next certain events are sent, and maybe answers to requests. -/
def Sends (session next : Session) (sent : List Event) : Prop :=
  ∃ messages, next.outbox = session.outbox ++ messages ∧ events messages = sent

variable {session middle next : Session} {sent more : List Event}

theorem sends_nothing (outbox : next.outbox = session.outbox) : Sends session next [] :=
  ⟨[], by rw [outbox, List.append_nil], rfl⟩

theorem emit_sends (session : Session) (sent : List Event) : Sends session (session.emit sent) sent :=
  ⟨sent.map .event, rfl, events_map sent⟩

theorem answer_sends (session : Session) (request : Request) (outcome : Except Failure Body) :
    Sends session (session.answer request outcome) [] :=
  ⟨_, rfl, rfl⟩

theorem Sends.trans (first : Sends session middle sent) (last : Sends middle next more) :
    Sends session next (sent ++ more) := by
  obtain ⟨messages, outbox, rfl⟩ := first
  obtain ⟨others, later, rfl⟩ := last
  exact ⟨messages ++ others, by rw [later, outbox, List.append_assoc], events_append messages others⟩

theorem handle_late (settled : session.Settled) (quelled : session.Quelled)
    (ends : session.debugger.control.state = .terminated) (request : Request) :
    Sends session (session.handle request).1 [] := by
  by_cases asked : request.kind = .request
  · by_cases closes : request.command ∈ ["terminate", "disconnect"]
    · exact ⟨_, handle_closes ends quelled asked closes, rfl⟩
    · obtain ⟨failure, refused⟩ :=
        handle_refuses ((isTerminated_iff settled.coherent).mpr ends) asked closes
      rw [refused]
      exact answer_sends session request _
  · refine sends_nothing ?_
    rw [handle_other asked]

theorem batch_late (settled : session.Settled) (quelled : session.Quelled)
    (ends : session.debugger.control.state = .terminated) (requests : List Request) :
    Sends session (session.batch requests).1 [] := by
  rw [batch_over settled ends]
  induction requests generalizing session with
  | nil => exact sends_nothing rfl
  | cons request rest ih =>
    obtain ⟨after, ended, same⟩ := handle_settled settled ends request
    have later := (handle_acts settled.coherent request).quelled settled.coherent quelled
    simp only [run, List.map_cons, List.foldl_cons, perform, same]
    exact (handle_late settled quelled ends request).trans (ih after later ended)

theorem finishAll_outbox (session : Session) (handle : Nat) (places : List (Interpreter × Nat)) :
    (places.foldl (fun session _ => session.finish handle none) session).outbox =
      session.outbox := by
  induction places generalizing session with
  | nil => rfl
  | cons place rest ih => exact ih (session.finish handle none)

theorem shutdown_late (settled : session.Settled) (quelled : session.Quelled)
    (ends : session.debugger.control.state = .terminated) :
    session.shutdown.1.settle.outbox = session.outbox := by
  have torn := Debugger.teardown_over ends (quelled ends)
  have closed : session.shutdown.1 =
      { session with debugger := session.debugger.bare session.debugger.output.reset } := by
    simp only [shutdown, torn, emit, send, List.map_nil, List.append_nil, Bool.false_eq_true,
      if_false]
  have after : session.shutdown.1.Settled := by
    refine ⟨(Act.shutdown).coherent settled.coherent, ?_, ?_⟩
    · rw [closed]
      exact settled.drained
    · rw [closed]
      exact settled.ends
  rw [after.settle_eq (shutdown_ended session).state, closed]

theorem attach_late (ended : session.isTerminated = true) (handle : Nat) :
    Sends session (session.attach handle).1 [] := by
  have silent : (session.debugger.attach handle).2.2 = [] := by
    have late : session.debugger.isTerminated = true := ended
    simp only [Debugger.attach, late, Bool.not_true, Bool.and_false, Bool.false_eq_true, if_false]
  have emitted := emit_sends { session with debugger := (session.debugger.attach handle).1 } []
  simp only [Session.attach, silent]
  exact emitted

theorem detach_sends (session : Session) (handle : Nat) (announce : Bool) :
    Sends session (session.detach handle announce).1
      (if announce then
        ((session.debugger.registry.findByHandle? handle).map (Event.thread .exited ·.id)).toList
      else []) := by
  cases known : session.debugger.registry.findByHandle? handle with
  | none =>
    simp only [Session.detach, Debugger.detach, Registry.detach_unknown known, Option.map_none,
      Option.toList_none, ite_self]
    exact sends_nothing rfl
  | some thread =>
    obtain ⟨rest, gone, -, -⟩ := Registry.detach_known known
    simp only [Session.detach, Debugger.detach, gone, Option.map_some, Option.toList_some]
    exact ⟨_, rfl, events_map _⟩

theorem capture_late (ended : session.isTerminated = true) (category : Output.Category)
    (bytes : List UInt8) (attribution : Option Output.Attribution) :
    session.capture category bytes attribution = session := by
  have late : session.debugger.isTerminated = true := ended
  simp only [capture, Debugger.capture, late, if_true, emit, send, List.map_nil, List.append_nil]

theorem origin_terminated (session : Session) (place : Option (Interpreter × Nat)) :
    (session.origin place).1.isTerminated = session.isTerminated := by
  cases place with
  | none => rfl
  | some place =>
    obtain ⟨⟨sources, same⟩, _⟩ :=
      Debugger.resolve_spec session.debugger place.1 place.1.chunk
    simp only [origin, resolve, emit, send, note, isTerminated, same]
    rfl

theorem origin_sends (session : Session) (place : Option (Interpreter × Nat)) :
    Sends session (session.origin place).1 (match place with
      | some (interpreter, _) => (session.debugger.resolve interpreter interpreter.chunk).events
      | none => []) := by
  cases place with
  | none => exact sends_nothing rfl
  | some place => exact ⟨_, rfl, events_map _⟩

theorem configure_sends (session : Session) (change : Except Config.Error Config.Store) :
    Sends session (session.configure change).1 (session.debugger.movedBy change) := by
  cases change with
  | error => exact sends_nothing rfl
  | ok config => exact ⟨_, rfl, events_map _⟩

theorem perform_late (settled : session.Settled) (quelled : session.Quelled)
    (ends : session.debugger.control.state = .terminated) (step : Step) :
    Sends session (session.perform step).1 (step.late session.debugger) := by
  have ended := (isTerminated_iff settled.coherent).mpr ends
  cases step with
  | request request =>
    obtain ⟨_, _, same⟩ := handle_settled settled ends request
    simp only [perform, same]
    exact handle_late settled quelled ends request
  | batch requests => exact batch_late settled quelled ends requests
  | hook handle interpreter event =>
    have called := call_over settled ends (·.hook handle interpreter event)
      (hook_over settled ends handle interpreter event)
    simp only [perform, called]
    exact sends_nothing rfl
  | lines handle places =>
    simp only [perform, lines_over settled ends handle places]
    exact sends_nothing (finishAll_outbox session handle places)
  | exception handle interpreter kind message =>
    have called := call_over settled ends (·.exception handle interpreter kind message)
      (exception_over settled ends handle interpreter kind message)
    simp only [perform, called]
    exact sends_nothing rfl
  | panic handle interpreter message =>
    have called := call_over settled ends (·.panic handle interpreter message)
      (panic_over settled ends handle interpreter message)
    simp only [perform, called]
    exact sends_nothing rfl
  | attach handle => exact attach_late ended handle
  | detach handle announce =>
    cases announce with
    | false => exact detach_sends session handle false
    | true => exact detach_sends session handle true
  | print bytes place =>
    have late := (origin_terminated session place).trans ended
    have sent := origin_sends session place
    have dropped : (session.perform (.print bytes place)).1 = (session.origin place).1 := by
      simp only [perform, print]
      split
      · exact capture_late late _ _ _
      · rfl
    rw [dropped]
    cases place <;> exact sent
  | capture category bytes place =>
    have late := (origin_terminated session place).trans ended
    have sent := origin_sends session place
    have dropped : (session.perform (.capture category bytes place)).1 =
        (session.origin place).1 := capture_late late _ _ _
    rw [dropped]
    cases place <;> exact sent
  | native stream bytes =>
    simp only [perform, native]
    split
    · rw [capture_late ended]
      exact sends_nothing rfl
    · exact sends_nothing rfl
  | updateConfig update => exact configure_sends session _
  | loadDefaults path content => exact configure_sends session _
  | config => exact sends_nothing rfl
  | shutdown => exact sends_nothing (shutdown_late settled quelled ends)

theorem run_over {steps : List Step}
    (told : .event .terminated ∈ (({} : Session).run steps).outbox) :
    (({} : Session).run steps).debugger.control.state = .terminated := by
  by_contra live
  have none := run_ends steps
  rw [if_neg live, List.countP_eq_zero] at none
  exact none _ told rfl

theorem movedBy_sources {debugger : Debugger} {change : Except Config.Error Config.Store} :
    ∀ event ∈ debugger.movedBy change, ∃ source, event = .loadedSource .changed source := by
  intro event member
  cases change with
  | error => contradiction
  | ok config =>
    obtain ⟨resolved, _, rfl⟩ := List.mem_map.mp member
    exact ⟨_, rfl⟩

theorem resolve_sources {debugger : Debugger} {interpreter : Interpreter} {chunk : List UInt8} :
    ∀ event ∈ (debugger.resolve interpreter chunk).events,
      ∃ source, event = .loadedSource .new source := by
  intro event member
  unfold Debugger.resolve at member
  dsimp only at member
  split at member
  · contradiction
  · dsimp only at member
    split at member
    · exact ⟨_, List.mem_singleton.mp member⟩
    · contradiction

/-- Once a client has been told of the end, no step tells it of anything but a thread that is
detached, a source that output comes from for the first time, and sources that a configuration
moves. -/
theorem events_after_end (steps : List Step) (step : Step)
    (told : .event .terminated ∈ (({} : Session).run steps).outbox) :
    let session := ({} : Session).run steps
    (∃ sent, (session.perform step).1.outbox = session.outbox ++ sent ∧
        events sent = step.late session.debugger) ∧
      ∀ event ∈ step.late session.debugger, (∃ id, event = .thread .exited id) ∨
        ∃ reason source, event = .loadedSource reason source := by
  intro session
  refine ⟨perform_late (run_settled steps) (run_quelled steps) (run_over told) step, ?_⟩
  intro event member
  unfold Step.late at member
  split at member
  · obtain ⟨thread, _, rfl⟩ := Option.map_eq_some_iff.mp (Option.mem_toList.mp member)
    exact Or.inl ⟨thread.id, rfl⟩
  · obtain ⟨source, rfl⟩ := resolve_sources event member
    exact Or.inr ⟨_, source, rfl⟩
  · obtain ⟨source, rfl⟩ := resolve_sources event member
    exact Or.inr ⟨_, source, rfl⟩
  · obtain ⟨source, rfl⟩ := movedBy_sources event member
    exact Or.inr ⟨_, source, rfl⟩
  · obtain ⟨source, rfl⟩ := movedBy_sources event member
    exact Or.inr ⟨_, source, rfl⟩
  · contradiction

/-- A thread that is attached after the end is not announced, yet it is said to have exited. -/
theorem exit_after_end :
    .event .terminated ∈ (({} : Session).run [.shutdown, .attach 1]).outbox ∧
      ∃ sent, ((({} : Session).run [.shutdown, .attach 1]).perform (.detach 1 true)).1.outbox =
        (({} : Session).run [.shutdown, .attach 1]).outbox ++ sent ∧
          events sent = [.thread .exited 1] := by
  have told : (({} : Session).run [.shutdown, .attach 1]).outbox = [.event .terminated] := rfl
  refine ⟨by simp [told], ?_⟩
  exact (events_after_end [.shutdown, .attach 1] (.detach 1 true) (by simp [told])).1

theorem end_not_last :
    ¬∀ steps step, .event .terminated ∈ (({} : Session).run steps).outbox →
      ∃ sent, ((({} : Session).run steps).perform step).1.outbox =
        (({} : Session).run steps).outbox ++ sent ∧ events sent = [] := by
  intro last
  have told : (({} : Session).run [.shutdown, .attach 1]).outbox = [.event .terminated] := rfl
  obtain ⟨sent, outbox, none⟩ := last [.shutdown, .attach 1] (.detach 1 true) (by simp [told])
  have both := congrArg events outbox
  rw [events_append, none] at both
  exact absurd both (by decide)

end Session
end DebugAdapter
