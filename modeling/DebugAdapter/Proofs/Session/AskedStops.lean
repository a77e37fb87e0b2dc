import DebugAdapter.Proofs.Session.LineStops
import DebugAdapter.Proofs.Session.StepTarget

/-! A pause or an entry stop that is asked for stops the first line that gets to run outside of
skipped files, and no other one. -/
namespace DebugAdapter

open Execution (StopReason LineGate)

namespace Occurrence

variable {occurrence : Occurrence} {occurrences : List Occurrence} {reason : StopReason}

theorem Spares.leaves (spares : occurrence.Spares) (pending : Option StopReason) :
    occurrence.leaves pending = pending := by
  cases occurrence with
  | asks reason => exact spares.elim
  | line thread line source gate => exact if_pos spares
  | frame thread | raises thread => rfl

theorem foldl_leaves_of_spares (spared : ∀ occurrence ∈ occurrences, occurrence.Spares)
    (pending : Option StopReason) : occurrences.foldl leaves pending = pending := by
  induction occurrences with
  | nil => rfl
  | cons occurrence rest ih =>
    obtain ⟨spares, spared⟩ := List.forall_mem_cons.mp spared
    rw [List.foldl_cons, spares.leaves, ih spared]

theorem Due.of_line {pending : Option StopReason} {thread line : Nat} {source : Source.Resolved}
    {gate : LineGate} (due : (Occurrence.line thread line source gate).Due pending) :
    if source.skipped then gate = .suppressed
    else (∀ reason, pending = some reason → gate = .stop reason) ∧
      ∀ reason, gate = .stop reason → reason = .step ∨ pending = some reason := by
  simp only [Due] at due
  split
  · rename_i skipped
    rwa [if_pos skipped] at due
  · rename_i unskipped
    rw [if_neg unskipped] at due
    cases pending with
    | some asked =>
      obtain rfl : gate = .stop asked := due
      exact ⟨fun _ same => congrArg _ (Option.some.inj same),
        fun _ same => .inr (congrArg _ (LineGate.stop.inj same))⟩
    | none => exact ⟨by simp, fun reason stops => .inl (due reason stops)⟩

theorem of_leaves {pending : Option StopReason} (left : occurrence.leaves pending = some reason) :
    occurrence = .asks reason ∨ occurrence.Spares ∧ pending = some reason := by
  cases occurrence with
  | asks other =>
    cases left
    exact .inl rfl
  | line thread line source gate =>
    simp only [leaves] at left
    split at left
    · rename_i skipped
      exact .inr ⟨skipped, left⟩
    · contradiction
  | frame thread | raises thread => exact .inr ⟨trivial, left⟩

end Occurrence

/-- A stop has been asked for, and since then nothing has taken it up or replaced it. -/
def Unanswered (occurrences : List Occurrence) (reason : StopReason) : Prop :=
  ∃ earlier since, occurrences = earlier ++ .asks reason :: since ∧
    ∀ occurrence ∈ since, occurrence.Spares

theorem outstanding_append (occurrences : List Occurrence) (occurrence : Occurrence) :
    outstanding (occurrences ++ [occurrence]) = occurrence.leaves (outstanding occurrences) := by
  rw [outstanding, List.foldl_append, List.foldl_cons, List.foldl_nil, outstanding]

theorem outstanding_eq_some {occurrences : List Occurrence} {reason : StopReason} :
    outstanding occurrences = some reason ↔ Unanswered occurrences reason := by
  constructor
  · intro left
    induction occurrences using List.reverseRecOn with
    | nil => contradiction
    | append_singleton occurrences occurrence ih =>
      rw [outstanding_append] at left
      rcases Occurrence.of_leaves left with rfl | ⟨spares, before⟩
      · exact ⟨occurrences, [], rfl, by simp⟩
      · obtain ⟨earlier, since, rfl, spared⟩ := ih before
        exact ⟨earlier, since ++ [occurrence], by simp,
          List.forall_mem_append.mpr ⟨spared, by simpa using spares⟩⟩
  · rintro ⟨earlier, since, rfl, spared⟩
    rw [outstanding, List.foldl_append, List.foldl_cons, Occurrence.foldl_leaves_of_spares spared]
    rfl

namespace Session

variable {session middle next : Session} {call : Call}

inductive Asks (session : Session) (request : Request) (after : Debugger) : Prop where
  | ended : after.control.state = .terminated → Asks session request after
  | pause : session.pauses request = true →
      session.debugger.control.requestPause = some after.control → Asks session request after
  | kept : session.pauses request = false → after.control = session.debugger.control →
      Asks session request after
  | release : session.pauses request = false →
      session.debugger.control.configurationDone after.stopOnEntry = some after.control →
      Asks session request after

variable {request : Request}

theorem unpaused_of_command {command : Command}
    (named : Command.ofName? request.command = some command) (other : command ≠ .control .pause) :
    session.pauses request = false := by
  simp [pauses, named, other]

theorem released_asks {debugger : Debugger} (unpaused : session.pauses request = false)
    (same : debugger.control = session.debugger.control) :
    Asks session request debugger.releaseIfReady := by
  obtain ⟨control, released, rfl | ⟨-, -, done⟩⟩ := debugger.releaseIfReady_spec
  · exact .kept unpaused (by rw [released, same])
  · rw [released]
    exact .release unpaused (same ▸ done)

theorem unreleased_asks {change : Change} (coherent : (session.apply request change).Coherent)
    (asks : Asks session request change.debugger) :
    Asks session request change.debugger.releaseIfReady := by
  have unchanged := congrArg Session.debugger (releaseIfReady_eq coherent)
  change change.debugger.releaseIfReady = change.debugger at unchanged
  rwa [unchanged]

theorem pause_asks {change : Change} (asked : request.kind = .request)
    (named : Command.ofName? request.command = some (.control .pause))
    (paused : session.debugger.pause request = .ok change) :
    Asks session request change.debugger := by
  unfold Debugger.pause at paused
  split at paused
  · contradiction
  · rename_i read
    cases paused
    cases accepted : session.debugger.control.requestPause with
    | none =>
      refine .kept (by simp [pauses, accepted]) ?_
      rfl
    | some control =>
      refine .pause (by simp [pauses, asked, named, read, accepted]) ?_
      rw [accepted]
      rfl

theorem carryOut_asks (coherent : session.Coherent) {command : ControlCommand} {change : Change}
    (asked : request.kind = .request)
    (named : Command.ofName? request.command = some (.control command))
    (permitted : (Command.control command).endsSession = true ∨ session.isTerminated = false)
    (carried : session.debugger.carryOut command request = .ok change) :
    Asks session request change.debugger.releaseIfReady := by
  cases command with
  | handshake | setBreakpoints | setExceptionBreakpoints =>
    have live := permitted.resolve_left Bool.false_ne_true
    have adjusts : Act session (some request) (session.apply request change) :=
      .adjust request _ change asked named rfl live carried
    obtain ⟨-, -, same⟩ := Debugger.carryOut_lasting carried rfl
    exact unreleased_asks (adjusts.coherent coherent)
      (.kept (unpaused_of_command named (by simp)) (same.resolve_left (by simp)))
  | pause =>
    have live := permitted.resolve_left Bool.false_ne_true
    have adjusts : Act session (some request) (session.apply request change) :=
      .adjust request _ change asked named rfl live carried
    exact unreleased_asks (adjusts.coherent coherent) (pause_asks asked named carried)
  | launch | attach | configurationDone =>
    obtain ⟨-, -, same⟩ := Debugger.carryOut_lasting carried rfl
    exact released_asks (unpaused_of_command named (by simp)) (same.resolve_left (by simp))
  | terminate =>
    cases carried
    have closed : Act session (some request) _ := .close request _ false asked named (.inl rfl)
    have ended := close_ended session request false
    exact unreleased_asks (closed.coherent coherent) (.ended ended.state)
  | disconnect =>
    cases carried
    have closed : Act session (some request) _ := .close request _ true asked named (.inr rfl)
    have ended := close_ended session request true
    exact unreleased_asks (closed.coherent coherent) (.ended ended.state)

theorem refused_asks (coherent : session.Coherent) {command : ControlCommand} {failure : Failure}
    (asked : request.kind = .request)
    (named : Command.ofName? request.command = some (.control command))
    (refused : session.debugger.carryOut command request = .error failure) :
    Asks session request session.debugger.releaseIfReady := by
  have answered : Act session (some request) (session.answer request (.error failure)) :=
    .refuse request failure asked
  have unchanged := congrArg Session.debugger (releaseIfReady_eq (answered.coherent coherent))
  change session.debugger.releaseIfReady = session.debugger at unchanged
  rw [unchanged]
  refine .kept ?_ rfl
  by_cases pause : command = .pause
  · subst pause
    simp only [Debugger.carryOut, Debugger.pause] at refused
    split at refused
    · rename_i unread
      simp [pauses, unread]
    · contradiction
  · exact unpaused_of_command named (by simpa using pause)

/-- Only a pause that is accepted asks for a stop, and a release that is to stop on entry. -/
theorem handle_asks (coherent : session.Coherent) (request : Request) :
    Asks session request (session.handle request).1.debugger := by
  cases session.handling request with
  | other kind taken =>
    rw [taken]
    exact .kept (by simp [pauses, kind]) rfl
  | unknown _ unnamed taken =>
    rw [taken]
    exact .kept (by simp [pauses, unnamed]) rfl
  | late _ _ _ ended _ taken =>
    rw [taken]
    have ends := (isTerminated_iff coherent).mp ended
    exact .kept (by simp [pauses, Execution.Control.requestPause, ends]) rfl
  | control command asked named permitted taken =>
    rw [taken]
    cases outcome : session.debugger.carryOut command request with
    | error failure => exact refused_asks coherent asked named outcome
    | ok change => exact carryOut_asks coherent asked named permitted outcome
  | deferred _ _ named _ _ taken | unserved _ _ named _ _ taken =>
    rw [taken]
    exact .kept (unpaused_of_command named (by simp)) rfl

theorem asking_cases (session : Session) (request : Request) :
    session.asking request = [] ∨ ∃ reason, session.asking request = [.asks reason] := by
  unfold asking
  dsimp only
  split
  · exact .inr ⟨.pause, rfl⟩
  · split
    · exact .inr ⟨.entry, rfl⟩
    · exact .inl rfl

theorem asking_settled (settled : (∃ reason, session.debugger.control.state = .stopped reason) ∨
    session.debugger.control.state = .terminated) (request : Request) :
    session.asking request = [] := by
  have refused : session.debugger.control.requestPause = none := by
    rcases settled with ⟨reason, state⟩ | state <;> simp [Execution.Control.requestPause, state]
  have begun : session.debugger.control.state ≠ .initializing := by
    rcases settled with ⟨reason, state⟩ | state <;> simp [state]
  simp [asking, pauses, refused, begun]

theorem asking_pause (asked : request.kind = .request)
    (named : Command.ofName? request.command = some (.control .pause))
    (read : (Arguments.read? Arguments.thread request).isSome) :
    session.asking request = match session.debugger.control.state with
      | .stopped _ | .terminated => []
      | _ => [.asks .pause] := by
  cases state : session.debugger.control.state with
  | stopped reason => exact asking_settled (.inl ⟨reason, state⟩) request
  | terminated => exact asking_settled (.inr state) request
  | initializing | running | stepping kind =>
    simp [asking, pauses, asked, named, read, Execution.Control.requestPause, state]

theorem asking_entry (coherent : session.Coherent)
    (begins : session.debugger.control.state = .initializing)
    (released : (session.handle request).1.debugger.control.state = .running)
    (entry : (session.handle request).1.debugger.stopOnEntry = true) :
    session.asking request = [.asks .entry] := by
  have unpaused : session.pauses request = false := by
    cases handle_asks coherent request with
    | ended ends => simp [ends] at released
    | pause _ accepted =>
      obtain ⟨_, _, same⟩ := Execution.Control.requestPause_eq_some.mp accepted
      rw [same] at released
      simp [begins] at released
    | kept unpaused | release unpaused => exact unpaused
  simp [asking, unpaused, begins, released, entry]

/-- What is pending after a request is what it has asked for, or what was pending before. -/
theorem asking_left (coherent : session.Coherent) (request : Request)
    (live : (session.handle request).1.debugger.control.state ≠ .terminated) :
    (session.handle request).1.debugger.control.pending =
      (session.asking request).foldl Occurrence.leaves session.debugger.control.pending := by
  cases handle_asks coherent request with
  | ended ends => exact absurd ends live
  | pause paused accepted =>
    obtain ⟨-, -, same⟩ := Execution.Control.requestPause_eq_some.mp accepted
    have occurs : session.asking request = [.asks .pause] := by simp [asking, paused]
    rw [occurs, same]
    rfl
  | kept unpaused same =>
    have occurs : session.asking request = [] := by
      simp only [asking, unpaused, same]
      cases session.debugger.control.state <;> simp
    rw [occurs, same]
    rfl
  | release unpaused done =>
    obtain ⟨initializing, same⟩ := Execution.Control.configurationDone_eq_some.mp done
    have occurs : session.asking request =
        if (session.handle request).1.debugger.stopOnEntry then [.asks .entry] else [] := by
      simp [asking, unpaused, initializing, same]
    rw [occurs, same, Execution.Control.publish_pending]
    split <;> rfl

theorem asking_tells (coherent : session.Coherent) (request : Request) :
    Tells session (session.handle request).1 (session.asking request) := by
  have acts := handle_acts coherent request
  obtain ⟨sent, follows⟩ := acts.follows coherent
  refine ⟨fun before occurrence after split => ?_, asking_left coherent request,
    ⟨sent, follows.outbox, ?_⟩, fun live ends => live (acts.ended coherent ends),
    fun ends => asking_settled (.inr ends) request⟩
  · rcases asking_cases session request with none | ⟨reason, one⟩
    · simp [none] at split
    · obtain rfl : occurrence = .asks reason := by
        have member : occurrence ∈ session.asking request := by simp [split]
        simpa [one] using member
      trivial
  · rw [stopsTold_unstopped follows.unstopped]
    rcases asking_cases session request with none | ⟨reason, one⟩
    · rw [none]
      rfl
    · rw [one]
      rfl

theorem askingAll_tells (coherent : session.Coherent) (requests : List Request) :
    Tells session (session.handleAll requests).1 (session.askingAll requests) := by
  induction requests generalizing session with
  | nil => exact .refl session
  | cons request rest ih =>
    exact (asking_tells coherent request).trans
      (ih ((handle_acts coherent request).coherent coherent))

theorem serve_tells (coherent : session.Coherent) :
    Tells session session.serve.settle session.serve.settling := by
  obtain ⟨served, drained⟩ := serve_acts coherent
  exact (served.tells rfl coherent).trans (settle_tells (served.coherent coherent) drained)

theorem answer_tells (session : Session) (request : Request) (outcome : Except Failure Body) :
    Tells session (session.answer request outcome) [] := by
  refine ⟨by simp, fun _ => rfl, ⟨_, rfl, stopsTold_unstopped fun thread reason member => ?_⟩,
    fun live => live, fun _ => rfl⟩
  obtain ⟨exception, told⟩ := stopped_of_marks member
  simp at told

theorem batch_tells (settled : session.Settled) (requests : List Request) :
    Tells session (session.batch requests).1 (session.batching requests) := by
  cases requests with
  | nil => exact .refl session
  | cons first rest =>
    cases busy : session.busyWith? first with
    | some stop =>
      obtain ⟨asked, named⟩ := busyWith_spec busy
      let inspected := session.debugger.inspect stop ⟨first, .evaluate⟩
      have noted : Act session none (session.note inspected.callbacks) :=
        .aside (.note inspected.callbacks)
      have handled := handleAll_acts (noted.coherent settled.coherent) rest
      have answered := handled.tail (.evaluate first (inspected.outcome.map (·.body)) asked named)
      have whole := (noted.tells settled.coherent).trans
        ((askingAll_tells (noted.coherent settled.coherent) rest).trans
          (answer_tells _ first (inspected.outcome.map (·.body))))
      simp only [batch, batching, busy]
      rw [List.nil_append, List.append_nil] at whole
      exact whole.trans (serve_tells (answered.coherent (noted.coherent settled.coherent)))
    | none =>
      simp only [batch, batching, busy]
      have handled := handleAll_acts settled.coherent (first :: rest)
      exact (askingAll_tells settled.coherent (first :: rest)).trans
        (serve_tells (handled.coherent settled.coherent))

theorem perform_tells (settled : session.Settled) (step : Step) :
    Tells session (session.perform step).1 (session.occurring step) := by
  have coherent := settled.coherent
  cases step with
  | request request =>
    have handled := (handle_acts coherent request).coherent coherent
    exact (asking_tells coherent request).trans (serve_tells handled)
  | batch requests => exact batch_tells settled requests
  | hook handle interpreter event => exact hook_calling settled handle interpreter event
  | lines handle places => exact lines_tell settled handle places
  | exception handle interpreter kind message =>
    simp only [perform, occurring]
    exact calling_tells settled
      (fun idle => exception_advances coherent idle interpreter kind message)
      (fun idle => exception_occurs coherent idle interpreter kind message)
  | panic handle interpreter message =>
    simp only [perform, occurring]
    exact calling_tells settled (fun idle => panic_advances coherent idle interpreter message)
      (fun idle => panic_occurs coherent idle interpreter message)
  | attach handle => exact (attach_quiet session handle).tells
  | detach handle announce => exact Act.tells (.detach handle announce) coherent
  | print bytes place =>
    obtain ⟨found, -⟩ := origin_moves settled place
    simp only [perform, print]
    split
    · exact (found.step (.capture _ _ _)).tells rfl coherent
    · exact found.tells rfl coherent
  | capture category bytes place =>
    obtain ⟨found, -⟩ := origin_moves settled place
    exact (found.step (.capture category bytes _)).tells rfl coherent
  | native stream bytes =>
    simp only [perform, native]
    split
    · exact Act.tells (.capture _ _ _) coherent
    · exact .refl session
  | updateConfig update => exact Act.tells (.reconfigure _ (.inl ⟨update, rfl⟩)) coherent
  | loadDefaults path content =>
    exact Act.tells (.reconfigure _ (.inr ⟨path, content, rfl⟩)) coherent
  | config => exact .refl session
  | shutdown =>
    have ended : Acts session [] session.shutdown.1 := .still .shutdown
    have settles := (settle_over (ended.drained settled.drained) (ended.coherent coherent)
      (shutdown_ended session).state).1
    exact (ended.tells rfl coherent).trans (settles.tells rfl (ended.coherent coherent))

theorem run_tells (settled : session.Settled) (steps : List Step) :
    Tells session (session.run steps) (session.chronicle steps) := by
  induction steps generalizing session with
  | nil => exact .refl session
  | cons step rest ih =>
    exact (perform_tells settled step).trans (ih (perform_settled settled step))

theorem enter_asked {line : Nat} {source : Source.Resolved} {reason : StopReason}
    (errand : call.errand = .line line source) (free : session.Free call)
    (asked : session.debugger.control.pending = some reason) (unskipped : source.skipped = false) :
    (session.enter call).stopped = some { call } ∧
      (session.enter call).debugger.control =
        { session.debugger.control with pending := none }.enterStop call.thread reason ∧
      session.entering call = [.line call.thread line source (.stop reason)] := by
  obtain ⟨live, unblocked⟩ := Execution.Control.waitUntilRunnable_eq_true.mp free
  obtain ⟨registry, woken, -⟩ := wake_spec session.debugger call
  let awake := session.modifyDebugger (wake · call)
  let control := { session.debugger.control with pending := none }.enterStop call.thread reason
  have gate : awake.debugger.control.lineGate call.thread call.interpreter.depth source.skipped =
      some (control, .stop reason) := by
    simp [awake, modifyDebugger, woken, Execution.Control.lineGate, Execution.Control.passLine,
      live, unblocked, unskipped, asked, control]
  have runs : session.debugger.control.waitUntilRunnable call.thread = some true := free
  have entered : session.enter call = (awake.modifyDebugger fun debugger =>
      { debugger with control }).stop call reason none := by
    simp only [enter, runs, proceed, errand]
    rw [gate]
  have occurs : session.entering call = [.line call.thread line source (.stop reason)] := by
    simp only [entering, runs, going, errand]
    rw [gate]
  rw [entered]
  exact ⟨rfl, rfl, occurs⟩

/-- While a stop is asked for, no line is passed by at once. -/
theorem hooking_asked (valid : session.debugger.control.Valid)
    (live : session.debugger.control.state ≠ .terminated) {reason : StopReason}
    (asked : session.debugger.control.pending = some reason) (handle : Nat)
    (interpreter : Interpreter) (line : Nat) :
    session.hooking handle interpreter (.line line) =
      (session.locate handle interpreter).session.entering
        ((session.locate handle interpreter).arrival handle interpreter line) := by
  have busy : session.debugger.control.quick ≠ .running := fun idle => by
    simp [(valid.idle idle).2.2.1] at asked
  have lasts : session.debugger.control.quick ≠ .terminated := by
    simpa [Execution.Control.isTerminated] using valid.terminated_iff.not.mpr live
  simp only [hooking, lasts, if_false, passesBy, busy, decide_false, Bool.false_and,
    Bool.false_eq_true]
  rfl

/-- A line outside of skipped files, on a thread that may run, stops for what is asked for. -/
theorem asked_line_stops (settled : session.Settled) (rested : session.Rested) {handle line : Nat}
    {interpreter : Interpreter} {reason : StopReason}
    (asked : session.debugger.control.pending = some reason)
    (available : (session.isStoppedAt handle || session.isBlockedAt handle) = false)
    (free : session.debugger.control.waitUntilRunnable
      (session.locate handle interpreter).thread = some true)
    (unskipped : (session.locate handle interpreter).source.skipped = false) :
    let hooked := session.perform (.hook handle interpreter (.line line))
    hooked.2 = .call .stopped ∧ hooked.1.debugger.control.state = .stopped reason ∧
      session.occurring (.hook handle interpreter (.line line)) =
        [.line (session.locate handle interpreter).thread line
          (session.locate handle interpreter).source (.stop reason)] := by
  intro hooked
  have live := (Execution.Control.waitUntilRunnable_eq_true.mp free).1
  have valid := settled.coherent.control
  have attends := hook_attends valid rested live handle interpreter line
  have hooks := hooking_asked valid live asked handle interpreter line
  have control := (locate_located session handle interpreter).control
  rw [attendLine_eq] at attends
  generalize session.locate handle interpreter = place at *
  have runs : place.session.Free (place.arrival handle interpreter line) := by
    rw [Free, control]
    exact free
  obtain ⟨stopped, stops, occurs⟩ := enter_asked rfl runs (control ▸ asked) unskipped
  generalize place.session.enter (place.arrival handle interpreter line) = entered at *
  have here : entered.isStoppedAt handle = true := by
    simp [isStoppedAt, stopped, Place.arrival]
  have held : entered.debugger.control.stopper.isSome = true := by
    rw [stops]
    rfl
  have running : ¬entered.isTerminated = true := by
    simp [isTerminated, Debugger.isTerminated, stops, Execution.Control.enterStop,
      Execution.Control.isTerminated, Execution.Control.publish, Execution.Control.brief]
  have settles : entered.settling = [] := by simp [settling, running, held]
  have result : hooked = (entered, .call .stopped) := by
    simp only [hooked, perform, Session.call, available, Bool.false_eq_true, if_false, attends,
      settle_held running (.inl held), callState, here, if_true]
  refine ⟨by rw [result], by rw [result, stops]; rfl, ?_⟩
  · simp only [occurring, calling, available, Bool.false_eq_true, if_false, attends, settles,
      hooks, occurs, List.append_nil]
    rfl

/-- Once a pause is accepted, or the program is let go and is to stop on entry, the first line that
gets to run outside of skipped files stops for it, on whichever thread. Neither a line in a skipped
file nor a call, a return or an exception takes it up, and the line that does takes up all that was
asked for before it. The client is told of just these stops, beside steps and exceptions. -/
theorem asked_stops_delivered_once (steps : List Step) :
    let session := ({} : Session).run steps
    let occurred := ({} : Session).chronicle steps
    (∀ before thread line source gate after,
      occurred = before ++ .line thread line source gate :: after →
        if source.skipped then gate = .suppressed
        else (∀ reason, Unanswered before reason → gate = .stop reason) ∧
          ∀ reason, gate = .stop reason → reason = .step ∨ Unanswered before reason) ∧
      (session.debugger.control.state ≠ .terminated → ∀ reason,
        session.debugger.control.pending = some reason ↔ Unanswered occurred reason) ∧
      (∀ reason handle interpreter line,
        let place := session.locate handle interpreter
        let hooked := session.perform (.hook handle interpreter (.line line))
        Unanswered occurred reason →
          (session.isStoppedAt handle || session.isBlockedAt handle) = false →
          session.debugger.control.waitUntilRunnable place.thread = some true →
          place.source.skipped = false →
          hooked.2 = .call .stopped ∧ hooked.1.debugger.control.state = .stopped reason ∧
            session.occurring (.hook handle interpreter (.line line)) =
              [.line place.thread line place.source (.stop reason)]) ∧
      (∀ request : Request, request.kind = .request →
        Command.ofName? request.command = some (.control .pause) →
        (Arguments.read? Arguments.thread request).isSome →
        session.asking request = match session.debugger.control.state with
          | .stopped _ | .terminated => []
          | _ => [.asks .pause]) ∧
      (∀ request, session.debugger.control.state = .initializing →
        (session.handle request).1.debugger.control.state = .running →
        (session.handle request).1.debugger.stopOnEntry = true →
        session.asking request = [.asks .entry]) ∧
      stopsTold session.outbox = occurred.filterMap Occurrence.stop? := by
  intro session occurred
  have settled : session.Settled := run_settled steps
  have tells : Tells {} session occurred := run_tells settled_new steps
  have pending (live : session.debugger.control.state ≠ .terminated) (reason : StopReason) :
      session.debugger.control.pending = some reason ↔ Unanswered occurred reason := by
    rw [tells.left live, ← outstanding_eq_some]
    rfl
  refine ⟨fun before thread line source gate after split => ?_, pending, ?_,
    fun request => asking_pause, fun request => asking_entry settled.coherent, ?_⟩
  · have due : (Occurrence.line thread line source gate).Due (outstanding before) :=
      tells.due before _ after split
    simpa only [← outstanding_eq_some] using due.of_line
  · intro reason handle interpreter line place hooked unanswered available free unskipped
    have live := (Execution.Control.waitUntilRunnable_eq_true.mp free).1
    have asked := (pending live reason).mpr unanswered
    exact asked_line_stops settled (run_rested steps) asked available free unskipped
  · obtain ⟨sent, outbox, told⟩ := tells.told
    rw [outbox]
    exact told

/-- Two pauses, with a call in between, stop one line of another thread; a third pause while that
thread is stopped asks for nothing, and the next line passes. -/
theorem two_pauses_stop_one_line :
    let begin : Request := { seq := 1, command := "configurationDone" }
    let launch (entry : Bool) : Request := {
      seq := 2, command := "launch", arguments := some (.object [("stopOnEntry", .bool entry)]) }
    let pause (seq : Nat) : Request := {
      seq, command := "pause", arguments := some (.object [("threadId", .ofNat 1)]) }
    let interpreter : Interpreter := .blank "@/main".toUTF8.toList 1
    let start : List Step := [.request begin, .request (launch false), .request (pause 3),
      .hook 7 interpreter .call, .request (pause 4)]
    let line : Step := .hook 8 interpreter (.line 5)
    let later : List Step := [line, .request (pause 5), .request {
        seq := 6, command := "continue", arguments := some (.object [("threadId", .ofNat 2)]) },
      .hook 7 interpreter (.line 6)]
    ((({} : Session).run start).perform line).2 = .call .stopped ∧
      (({} : Session).run (start ++ [line])).asking (pause 5) = [] ∧
      stopsTold (({} : Session).run (start ++ later)).outbox = [(2, .pause)] ∧
      (({} : Session).run [.request begin]).asking (launch true) = [.asks .entry] := by
  intro begin launch pause interpreter start line later
  obtain ⟨_, pending, stops, _⟩ := asked_stops_delivered_once start
  obtain ⟨_, _, _, asks, _⟩ := asked_stops_delivered_once (start ++ [line])
  obtain ⟨_, _, _, _, _, told⟩ := asked_stops_delivered_once (start ++ later)
  obtain ⟨_, _, _, _, entry, _⟩ := asked_stops_delivered_once [.request begin]
  have unanswered : Unanswered (({} : Session).chronicle start) .pause :=
    (pending (by decide +kernel) _).mp (by decide +kernel)
  refine ⟨(stops _ 8 interpreter 5 unanswered ?_ ?_ ?_).1, ?_, ?_, ?_⟩
  · decide +kernel
  · decide +kernel
  · decide +kernel
  · have stopped : (({} : Session).run (start ++ [line])).debugger.control.state =
        .stopped .pause := by decide +kernel
    rw [asks (pause 5) rfl (by decide +kernel) (by decide +kernel), stopped]
  · rw [told]
    decide +kernel
  · exact entry (launch true) (by decide +kernel) (by decide +kernel) (by decide +kernel)

end Session
end DebugAdapter
