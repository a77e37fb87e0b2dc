import DebugAdapter.Proofs.Session.StepTarget

/-! A step from the request that is granted to the line that ends it. Whatever else the client, the
embedding program and the other threads do meanwhile, it stays under way as long as none of them
asks for a stop or ends it. -/
namespace DebugAdapter

def Request.Spares (request : Request) : Prop :=
  request.command ∉ ["pause", "terminate", "disconnect"]

theorem Request.Spares.command {request : Request} (spares : request.Spares)
    {command : ControlCommand}
    (named : Command.ofName? request.command = some (.control command)) :
    command ≠ .pause ∧ command ≠ .terminate ∧ command ≠ .disconnect := by
  have table : ∀ entry ∈ Command.table,
      entry.2 ∈ [.control .pause, .control .terminate, .control .disconnect] →
        entry.1 ∈ ["pause", "terminate", "disconnect"] := by decide
  have unlisted := mt (table _ (Command.mem_table named)) spares
  simpa using unlisted

/-- What is done neither asks for a stop nor ends the session or the step of a thread. -/
def Step.Spares (session : Session) (thread : Nat) : Step → Prop
  | .request asked => asked.Spares
  | .batch requests => ∀ asked ∈ requests, asked.Spares
  | .exception .. | .panic .. | .shutdown => False
  | .detach handle _ => (thread, handle) ∉ session.debugger.registry.roster
  | _ => True

namespace Session

variable {session middle next : Session} {request : Request} {target : Execution.StepTarget}

/-- No thread stops in a session while all this is done, and none of it disturbs the step of a
thread. -/
def Undisturbed (session : Session) (thread : Nat) : List Step → Prop
  | [] => session.stopped = none
  | step :: rest => session.stopped = none ∧ step.Spares session thread ∧
      (session.perform step).1.Undisturbed thread rest

theorem Undisturbed.unstopped {thread : Nat} {steps : List Step}
    (undisturbed : session.Undisturbed thread steps) : session.stopped = none := by
  cases steps with
  | nil => exact undisturbed
  | cons => exact undisturbed.1

structure Steady (session next : Session) : Prop where
  control : next.debugger.control = session.debugger.control
  queue : next.debugger.queue = session.debugger.queue
  stopped : next.stopped = session.stopped
  blocked : next.blocked = session.blocked

theorem Steady.refl (session : Session) : Steady session session := ⟨rfl, rfl, rfl, rfl⟩

theorem Steady.trans (first : Steady session middle) (last : Steady middle next) :
    Steady session next :=
  ⟨last.control.trans first.control, last.queue.trans first.queue,
    last.stopped.trans first.stopped, last.blocked.trans first.blocked⟩

theorem carried_steady {command : ControlCommand} {change : Change} (spares : request.Spares)
    (named : Command.ofName? request.command = some (.control command))
    (carried : session.debugger.carryOut command request = .ok change) :
    change.debugger.control = session.debugger.control ∧
      change.debugger.queue = session.debugger.queue := by
  obtain ⟨unasked, lasting, connected⟩ := spares.command named
  have lasts : (Command.control command).endsSession = false := by
    cases command <;> first | rfl | contradiction
  obtain ⟨_, queue, control⟩ := Debugger.carryOut_lasting carried lasts
  exact ⟨control.resolve_left unasked, queue⟩

theorem conclude_steady {outcome : Except Failure Change}
    (begun : session.debugger.control.state ≠ .initializing)
    (kept : ∀ change, outcome = .ok change →
      change.debugger.control = session.debugger.control ∧
        change.debugger.queue = session.debugger.queue) :
    Steady session (session.conclude request outcome).1 := by
  have released (debugger : Debugger) (same : debugger.control = session.debugger.control) :
      debugger.releaseIfReady = debugger := by
    obtain ⟨control, eq, rfl | ⟨_, _, done⟩⟩ := debugger.releaseIfReady_spec
    · exact eq
    · exact absurd (Execution.Control.configurationDone_eq_some.mp done).1 (same ▸ begun)
  cases outcome with
  | error failure =>
    simp only [conclude, modifyDebugger, answer, send, released session.debugger rfl]
    exact ⟨rfl, rfl, rfl, rfl⟩
  | ok change =>
    obtain ⟨control, queue⟩ := kept change rfl
    simp only [conclude, modifyDebugger, answer, send, emit, released change.debugger control]
    exact ⟨control, queue, rfl, rfl⟩

theorem handle_steady (begun : session.debugger.control.state ≠ .initializing)
    (free : session.debugger.control.stopper = none) (spares : request.Spares) :
    Steady session (session.handle request).1 := by
  have answered (failure : Failure) : Steady session (session.answer request (.error failure)) :=
    ⟨rfl, rfl, rfl, rfl⟩
  cases session.handling request with
  | other _ taken =>
    rw [taken]
    exact .refl session
  | unknown _ _ taken | late _ _ _ _ _ taken | unserved _ _ _ _ _ taken =>
    rw [taken]
    exact answered _
  | control command _ named _ taken =>
    rw [taken]
    exact conclude_steady begun fun change carried => carried_steady spares named carried
  | deferred _ _ _ _ stopped _ =>
    have unstopped : session.debugger.control.isStopped none = false := by
      simp [Execution.Control.isStopped, free]
    exact absurd stopped (by rw [unstopped]; exact Bool.false_ne_true)

theorem handleAll_steady (requests : List Request)
    (begun : session.debugger.control.state ≠ .initializing)
    (free : session.debugger.control.stopper = none)
    (spares : ∀ request ∈ requests, request.Spares) :
    Steady session (session.handleAll requests).1 := by
  induction requests generalizing session with
  | nil => exact .refl session
  | cons request rest ih =>
    have handled := handle_steady begun free (spares request List.mem_cons_self)
    refine handled.trans (ih ?_ ?_ fun other member => spares other (List.mem_cons_of_mem _ member))
    · rwa [handled.control]
    · rwa [handled.control]

namespace Armed

theorem steady (armed : session.Armed target) (steady : Steady session next) :
    next.serve.settle = next := by
  rw [serve_drained (steady.queue.trans armed.settled.drained)]
  refine settle_unblocked ?_ (steady.blocked.trans armed.unblocked)
  simpa only [isTerminated, Debugger.isTerminated, steady.control] using armed.live

theorem begun (armed : session.Armed target) : session.debugger.control.state ≠ .initializing := by
  simp [armed.state]

end Armed

theorem Advances.running (advances : Advances session next) (coherent : next.Coherent)
    (unstopped : next.stopped = none) :
    next.debugger.control = session.debugger.control := by
  refine advances.unmoved.resolve_right fun ⟨reason, state⟩ => ?_
  have held := coherent.control.stopped.mp ⟨reason, state⟩
  rw [coherent.holder (by simp [state]), unstopped] at held
  contradiction

theorem detach_control (thread handle : Nat) (announce : Bool)
    (other : (thread, handle) ∉ session.debugger.registry.roster)
    (owner : ∀ target, session.debugger.control.step = some target → target.thread = thread) :
    (session.detach handle announce).1.debugger.control = session.debugger.control := by
  cases detached : session.debugger.detach handle announce with
  | none => simp only [detach, detached]
  | some result =>
    obtain ⟨debugger, events⟩ := result
    obtain ⟨⟨registry, gone, found, rfl⟩, _⟩ := Debugger.detach_spec detached
    obtain ⟨member, -, -⟩ := Registry.detach_eq_some found
    obtain ⟨inside, rfl⟩ := Registry.findByHandle_spec member
    have kept : session.debugger.control.abandonStep gone.id = none := by
      have elsewhere : session.debugger.control.step.any (·.thread = gone.id) = false := by
        cases armed : session.debugger.control.step with
        | none => rfl
        | some target =>
          have different : target.thread ≠ gone.id := by
            rw [owner target armed]
            rintro rfl
            exact other (Registry.mem_roster inside)
          simpa using different
      simp [Execution.Control.abandonStep, elsewhere]
    simp only [detach, detached, emit, send, kept, Option.getD_none]

/-- A step stays under way until a thread stops. -/
theorem Armed.perform (armed : session.Armed target) {step : Step}
    (spares : step.Spares session target.thread)
    (unstopped : (session.perform step).1.stopped = none) :
    (session.perform step).1.Armed target := by
  have settled := perform_settled armed.settled step
  have rested := perform_rested armed.settled armed.rested step
  refine armed.keep settled rested ?_
  have placed (place : Option (Interpreter × Nat)) :
      (session.origin place).1.debugger.control = session.debugger.control := by
    cases place with
    | none => rfl
    | some place => exact (resolve_located session place.1).control
  cases step with
  | request request =>
    have handled := handle_steady armed.begun armed.free spares
    change (session.handle request).1.serve.settle.debugger.control = _
    rw [armed.steady handled, handled.control]
  | batch requests =>
    have handled := handleAll_steady requests armed.begun armed.free spares
    cases requests with
    | nil => rfl
    | cons first rest =>
      have unoccupied : session.busyWith? first = none := by simp [busyWith?, armed.unstopped]
      simp only [Session.perform, batch, unoccupied]
      rw [armed.steady handled, handled.control]
  | hook handle interpreter event =>
    have advances : Advances session (session.call handle (·.hook handle interpreter event)).1 :=
      call_advances armed.settled fun idle =>
        hook_advances armed.settled.coherent idle interpreter event
    exact advances.running settled.coherent unstopped
  | lines handle places =>
    exact (lines_advances armed.settled handle places).running settled.coherent unstopped
  | exception | panic | shutdown => exact absurd spares id
  | attach handle => exact (attach_quiet session handle).control
  | detach handle announce =>
    exact detach_control target.thread handle announce spares armed.reserves.owner
  | print bytes place =>
    simp only [Session.perform, print]
    split
    · exact (capture_quiet _ _ _ _).control.trans (placed place)
    · exact placed place
  | capture category bytes place => exact (capture_quiet _ _ _ _).control.trans (placed place)
  | native stream bytes =>
    simp only [Session.perform, native]
    split
    · exact (capture_quiet _ _ _ _).control
    · rfl
  | updateConfig update => exact (configure_quiet session _).control
  | loadDefaults path content => exact (configure_quiet session _).control
  | config => rfl

theorem Armed.run (armed : session.Armed target) {steps : List Step}
    (undisturbed : session.Undisturbed target.thread steps) : (session.run steps).Armed target := by
  induction steps generalizing session with
  | nil => exact armed
  | cons step rest ih =>
    obtain ⟨_, spares, later⟩ := undisturbed
    exact ih (armed.perform spares later.unstopped) later

/-- The stopped thread grants the request that it takes next, and runs on in this way. -/
def Grants (session : Session) (stop : Stop) (how : Resume) : Prop :=
  session.stopped = some stop ∧ ∃ deferred rest body sent,
    session.debugger.queue = deferred :: rest ∧ deferred.command.resumption? = some how ∧
      session.serveNext.outbox = session.outbox ++
        .response deferred.request.seq deferred.request.command (.ok body) :: sent

variable {stop : Stop} {how : Resume} {control : Execution.Control}

theorem Grants.runs (grants : session.Grants stop how)
    (resumed : session.debugger.control.resume stop.call.thread how.stepKind
      stop.call.interpreter.depth = some control) :
    ∃ answers, session.serveNext = ((session.freed control).send answers).release stop := by
  obtain ⟨held, deferred, rest, body, sent, waiting, resumes, outbox⟩ := grants
  cases outcome : ((session.debugger.queueing rest).inspect stop deferred).outcome with
  | error failure =>
    simp only [Debugger.queueing] at outcome
    simp [serveNext, held, waiting, modifyDebugger, outcome, reply, answer, send, note] at outbox
  | ok reply =>
    have runs := (Debugger.inspect_resumption outcome).trans resumes
    exact ⟨_, serveNext_runs held waiting outcome runs resumed⟩

theorem rounds_unstopped (requests : List Deferred) (unstopped : session.stopped = none) :
    requests.foldl (fun session _ => session.serveNext) session = session := by
  induction requests with
  | nil => rfl
  | cons request rest ih =>
    have unserved : session.serveNext = session := by simp only [serveNext, unstopped]
    rw [List.foldl_cons, unserved, ih]

theorem Grants.serve (grants : session.Grants stop how)
    (resumed : session.debugger.control.resume stop.call.thread how.stepKind
      stop.call.interpreter.depth = some control) :
    ∃ answers, session.serve = ((session.freed control).send answers).release stop := by
  obtain ⟨answers, runs⟩ := grants.runs resumed
  obtain ⟨_, deferred, rest, _, _, waiting, _⟩ := grants
  have unstopped : (((session.freed control).send answers).release stop).stopped = none := by
    rw [release_eq, (returned_spec _ stop.call true).1]
    rfl
  refine ⟨answers, ?_⟩
  rw [Session.serve, waiting, List.foldl_cons, runs, rounds_unstopped rest unstopped]

/-- A thread that is let go ends the session, or leaves everything else as it is. -/
theorem release_spec (session : Session) (stop : Stop) :
    (session.release stop).debugger.control.state = .terminated ∨
      ((session.release stop).debugger.control = session.debugger.control ∧
        (session.release stop).blocked = session.blocked) := by
  rw [release_eq]
  unfold returned
  split
  · exact Or.inr ⟨rfl, rfl⟩
  · split
    · exact Or.inl (shutdown_ended _).state
    · exact Or.inr ⟨rfl, rfl⟩

theorem Grants.granted (coherent : session.Coherent) (grants : session.Grants stop how)
    (live : session.serve.settle.debugger.control.state ≠ .terminated) :
    session.debugger.control.resume stop.call.thread how.stepKind stop.call.interpreter.depth =
        some session.serve.debugger.control ∧
      session.serve.Settled ∧ session.serve.blocked = session.blocked := by
  obtain ⟨served, drained⟩ := serve_acts coherent
  have servedCoherent := served.coherent coherent
  have lasts : session.serve.debugger.control.state ≠ .terminated := by
    intro ends
    obtain ⟨acts, _⟩ := settle_over drained servedCoherent ends
    exact live (acts.ended servedCoherent ends)
  obtain ⟨held, _, _, _, _, waiting, _⟩ := id grants
  obtain ⟨control, resumed⟩ := coherent.resumes (by simp [waiting]) held how
  obtain ⟨answers, runs⟩ := grants.serve resumed
  refine ⟨?_, ⟨servedCoherent, drained, fun ends => absurd ends lasts⟩, ?_⟩
  all_goals
    rcases release_spec ((session.freed control).send answers) stop with ends | ⟨same, blocked⟩
    · exact absurd ends (runs ▸ lasts)
  · rw [resumed, runs, same]
    rfl
  · rw [runs, blocked]
    rfl

theorem Grants.begins {kind : Execution.StepKind} (coherent : session.Coherent)
    (grants : session.Grants stop (.step kind)) (unasked : session.debugger.control.pending = none)
    (live : session.serve.settle.debugger.control.state ≠ .terminated) :
    session.serve.settle.debugger.control.Reserves stop.call.thread := by
  obtain ⟨resumed, settled, blocked⟩ := grants.granted coherent live
  obtain ⟨held, deferred, rest, _, _, waiting, _⟩ := grants
  obtain ⟨reason, stopped⟩ := coherent.queued.state (by simp [waiting])
  have reserves :=
    Execution.Control.resume_reserves coherent.control stopped unasked resumed
  obtain ⟨_, lasts, _⟩ := Execution.Control.resume_runs stopped resumed
  refine settle_reserves settled.coherent reserves lasts fun call member => ?_
  exact coherent.callers.others held (blocked ▸ member)

/-- A step that is granted is under way, unless another thread stops at once. -/
theorem Grants.arms {kind : Execution.StepKind} (coherent : session.Coherent)
    (awake : session.Awake) (grants : session.Grants stop (.step kind))
    (unasked : session.debugger.control.pending = none)
    (live : session.serve.settle.debugger.control.state ≠ .terminated)
    (inner : ¬(kind = .out ∧ stop.call.interpreter.depth = 0))
    (unstopped : session.serve.settle.stopped = none) :
    session.serve.settle.Armed ⟨kind, stop.call.thread, stop.call.interpreter.depth⟩ := by
  obtain ⟨resumed, settled, blocked⟩ := grants.granted coherent live
  obtain ⟨held, deferred, rest, _, _, waiting, _⟩ := grants
  obtain ⟨reason, stopped⟩ := coherent.queued.state (by simp [waiting])
  obtain ⟨state, step, pending⟩ := Execution.Control.resume_arms stopped inner resumed
  have advances := settle_advances settled
  have after := advances.settled settled
  have rested := settle_rested settled.coherent settled.drained
    ((serve_acts coherent).1.awake coherent awake)
  have control := advances.running after.coherent unstopped
  refine ⟨after, rested, ?_, ?_, ?_⟩
  · rw [control, state]
  · rw [control, step]
  · rw [control, pending, unasked]

theorem Grants.unarmed (coherent : session.Coherent) (grants : session.Grants stop (.step .out))
    (outer : stop.call.interpreter.depth = 0)
    (live : session.serve.settle.debugger.control.state ≠ .terminated) :
    session.serve.settle.debugger.control.step = none := by
  obtain ⟨resumed, settled, _⟩ := grants.granted coherent live
  obtain ⟨_, _, _, _, _, waiting, _⟩ := grants
  obtain ⟨reason, stopped⟩ := coherent.queued.state (by simp [waiting])
  have runs : session.serve.debugger.control.state = .running := by
    obtain ⟨_, same⟩ := Execution.Control.resume_eq_some.mp resumed
    simp [same, stopped, Execution.Control.arm, outer, Resume.stepKind]
  have advances := settle_advances settled
  refine (advances.settled settled).coherent.control.step_none fun kind => ?_
  rcases advances.unmoved with same | ⟨_, state⟩
  · simp [same, runs]
  · simp [state]

theorem Grants.outermost (coherent : session.Coherent) (grants : session.Grants stop (.step .out))
    (outer : stop.call.interpreter.depth = 0) {queue : List Deferred}
    (continues : (session.queueing queue).Grants stop .run) :
    ∃ (released : Session) (answers others : List Message), ∀ following,
      session.serve.settle.run following = (released.run following).following (session.send answers) ∧
        (session.queueing queue).serve.settle.run following =
          (released.run following).following (session.send others) := by
  obtain ⟨held, _, _, _, _, waiting, _⟩ := id grants
  obtain ⟨control, resumed⟩ := coherent.resumes (by simp [waiting]) held (.step .out)
  have alike : session.debugger.control.resume stop.call.thread none stop.call.interpreter.depth =
      some control := by
    rw [outer] at resumed ⊢
    rwa [← Execution.Control.resume_outermost]
  obtain ⟨answers, runs⟩ := grants.serve resumed
  obtain ⟨others, continued⟩ := continues.serve alike
  refine ⟨((session.freed control).unrecorded.release stop).settle, answers, others,
    fun following => ⟨?_, ?_⟩⟩
  · rw [runs, send_release, settle_following, run_following]
    rfl
  · rw [continued, send_release, settle_following, run_following]
    rfl

def Stepless (messages : List Message) : Prop :=
  ∀ thread exception, .event (.stopped thread .step exception) ∉ messages

theorem stepless_turn {sent : List Message}
    (turns : ∀ thread reason, .stopped thread reason ∈ marks sent →
      next.turn = .client thread reason)
    (incomplete : next.debugger.control.state ≠ .stopped .step) : Stepless sent := by
  intro thread exception member
  exact incomplete (Execution.Control.turn_eq_client (turns thread .step (marks_stopped member))).1

/-- A step that is granted at a depth ends on the first line of its thread that is not skipped and
not in a deeper call, or for a step out not in the same one; the lines before pass all breakpoints,
and no other thread completes it. A step out of the outermost call is the same as running on. -/
theorem step_reaches_target (steps : List Step) (taken : List Request) (later : Session)
    (stop : Stop) (kind : Execution.StepKind) (acts : Acts (({} : Session).run steps) taken later)
    (grants : later.Grants stop (.step kind)) (unasked : later.debugger.control.pending = none)
    (live : later.serve.settle.debugger.control.state ≠ .terminated) :
    let thread := stop.call.thread
    let depth := stop.call.interpreter.depth
    let begun := later.serve.settle
    (∃ sent, begun.outbox = later.outbox ++ sent ∧ Stepless sent) ∧
      (¬(kind = .out ∧ depth = 0) → ∀ following, begun.Undisturbed thread following →
        ∀ handle interpreter line,
          let reached := begun.run following
          let place := reached.locate handle interpreter
          let passes := place.source.skipped = true ∨ (kind = .over ∧ depth < interpreter.depth) ∨
            (kind = .out ∧ depth ≤ interpreter.depth)
          let outcome := reached.perform (.hook handle interpreter (.line line))
          Located reached place.session ∧
            (place.thread = thread → passes →
              outcome = (place.session.finish handle none, .call .done)) ∧
            (place.thread = thread → ¬passes → outcome.2 = .call .stopped ∧
              outcome.1.debugger.control.state = .stopped .step ∧
              outcome.1.debugger.control.stopper = some thread ∧
              ∃ told, outcome.1.outbox = reached.outbox ++ told ++
                [.event (.stopped thread .step none)]) ∧
            (place.thread ≠ thread →
              ∃ sent, outcome.1.outbox = reached.outbox ++ sent ∧ Stepless sent)) ∧
      (kind = .out → depth = 0 → begun.debugger.control.step = none ∧
        ∀ queue, (later.queueing queue).Grants stop .run →
          ∃ (released : Session) (answers others : List Message), ∀ following,
            begun.run following = (released.run following).following (later.send answers) ∧
              (later.queueing queue).serve.settle.run following =
                (released.run following).following (later.send others)) := by
  intro thread depth begun
  have settled : (({} : Session).run steps).Settled := run_settled steps
  have coherent : later.Coherent := acts.coherent settled.coherent
  have awake : later.Awake := acts.awake settled.coherent (run_rested steps).awake
  refine ⟨?_, fun inner following undisturbed handle interpreter line => ?_, fun out outer => ?_⟩
  · obtain ⟨_, served, _⟩ := grants.granted coherent live
    obtain ⟨sent, outbox, _, turns⟩ :=
      (serve_acts coherent).1.follows_advances coherent (settle_advances served)
    exact ⟨sent, outbox, stepless_turn turns (grants.begins coherent unasked live).incomplete⟩
  · have starts := grants.arms coherent awake unasked live inner undisturbed.unstopped
    have armed := starts.run undisturbed
    have misses := Execution.StepKind.reached_eq_false kind depth interpreter.depth
    refine ⟨locate_located _ handle interpreter, fun own passes => ?_, fun own passes => ?_,
      fun other => ?_⟩
    · rw [← misses] at passes
      exact armed.misses own passes
    · rw [← misses] at passes
      exact armed.reaches own passes
    · obtain ⟨sent, outbox, _, turns⟩ :=
        perform_follows armed.settled (.hook handle interpreter (.line line))
      exact ⟨sent, outbox, stepless_turn turns (armed.elsewhere other line)⟩
  · subst out
    exact ⟨grants.unarmed coherent outer live,
      fun queue continues => grants.outermost coherent outer continues⟩

/-- Stepping over from depth one, a thread passes the breakpoint in a deeper call that stops another
thread, and ends its step on the next line at its own depth. -/
theorem next_passes_deeper_line :
    let chunk := "@/main".toUTF8.toList
    let start : List Step := [
      .request { seq := 1, command := "configurationDone" },
      .request { seq := 2, command := "setBreakpoints", arguments := some (.object [
        ("breakpoints", .array [.object [("line", .ofNat 5)]]),
        ("source", .object [("path", .string "/main")])]) },
      .request { seq := 3, command := "launch", arguments := some (.object []) },
      .exception 7 (.blank chunk 1) .uncaught "failed"]
    let next : Request := {
      seq := 4, command := "next", arguments := some (.object [("threadId", .ofNat 1)]) }
    let begun := ((({} : Session).run start).perform (.request next)).1
    let deeper : Step := .hook 7 (.blank chunk 2) (.line 5)
    (begun.perform (.hook 8 (.blank chunk 2) (.line 5))).1.debugger.control.state =
        .stopped .breakpoint ∧
      (begun.perform deeper).2 = .call .done ∧
      ((begun.run [deeper]).perform (.hook 7 (.blank chunk 1) (.line 6))).2 = .call .stopped := by
  intro chunk start next begun deeper
  let later := (({} : Session).run start).defer ⟨next, .next⟩
  let stop := later.stopped.get rfl
  have acts : Acts (({} : Session).run start) [next] later := .one (.defer next .next rfl rfl rfl)
  have grants : later.Grants stop (.step .over) :=
    ⟨(Option.some_get _).symm, ⟨next, .next⟩, [], .empty, [], rfl, rfl, rfl⟩
  have live : later.serve.settle.debugger.control.state ≠ .terminated := by decide +kernel
  have inner : ¬(Execution.StepKind.over = .out ∧ stop.call.interpreter.depth = 0) := by simp
  obtain ⟨_, stepping, _⟩ := step_reaches_target start [next] later stop .over acts grants rfl live
  have runs : later.serve.settle.stopped = none := Option.isNone_iff_eq_none.mp (by decide +kernel)
  have runsOn : (later.serve.settle.perform deeper).1.stopped = none :=
    Option.isNone_iff_eq_none.mp (by decide +kernel)
  have still : later.serve.settle.run [] = later.serve.settle := List.foldl_nil
  obtain ⟨_, passes, _⟩ := stepping inner [] runs 7 (.blank chunk 2) 5
  obtain ⟨_, _, reaches, _⟩ :=
    stepping inner [deeper] ⟨runs, trivial, runsOn⟩ 7 (.blank chunk 1) 6
  rw [still] at passes
  have same : begun = later.serve.settle := rfl
  rw [same]
  refine ⟨by decide +kernel, ?_, ?_⟩
  · exact congrArg Prod.snd (passes (by decide +kernel) (by decide +kernel))
  · exact (reaches (by decide +kernel) (by decide +kernel)).1

end Session
end DebugAdapter
