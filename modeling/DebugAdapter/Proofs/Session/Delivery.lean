import DebugAdapter.Proofs.Output.Escape
import DebugAdapter.Proofs.Session.FastPath
import DebugAdapter.Proofs.Session.Printing

/-! Output reaches the client before it hears of a stop or of the end. Text is followed from the
step that captures it, through the pipeline, to the messages; and whatever announces a stop or the
end has sent all text that waits beforehand. -/
namespace DebugAdapter

open Output (Category Mode Parser)

/-- The events before which all output has to be out. -/
def Event.halts : Event → Bool
  | .stopped .. | .terminated => true
  | _ => false

def Message.shown? (category : Category) : Message → Option String
  | .event (.output sent) => if sent.category = category then some sent.text else none
  | _ => none

/-- Bytes are in the output of a category, in order, each piece in the encoding that was in force
when it was sent. -/
def Delivered (category : Category) (bytes : List UInt8) (messages : List Message) : Prop :=
  ∃ pieces : List (Text.Encoding × List UInt8), pieces.flatMap (·.2) = bytes ∧
    (pieces.map fun piece => piece.1.decode piece.2).Sublist (messages.filterMap (·.shown? category))

variable {messages : List Message} {category : Category} {bytes : List UInt8}

theorem Delivered.append (delivered : Delivered category bytes messages)
    (more : List Message) : Delivered category bytes (messages ++ more) := by
  obtain ⟨pieces, whole, sublist⟩ := delivered
  refine ⟨pieces, whole, ?_⟩
  rw [List.filterMap_append]
  exact sublist.trans (List.sublist_append_left _ _)

def Unhalting (messages : List Message) : Prop :=
  ∀ event, .event event ∈ messages → event.halts = false

theorem News.unhalting (news : News messages) : Unhalting messages := by
  intro event member
  obtain ⟨other, same, incidental⟩ := news _ member
  cases same
  cases event <;> first | rfl | contradiction

theorem Unhalting.append {more : List Message} (first : Unhalting messages)
    (second : Unhalting more) : Unhalting (messages ++ more) := by
  intro event member
  rcases List.mem_append.mp member with old | newest
  · exact first event old
  · exact second event newest

theorem Delivered.more (delivered : Delivered category bytes messages) {more : List Message}
    {pieces : List (List UInt8)} {coding : Text.Encoding}
    (shown : more.filterMap (·.shown? category) = pieces.map coding.decode) :
    Delivered category (bytes ++ pieces.flatten) (messages ++ more) := by
  obtain ⟨sent, rfl, sublist⟩ := delivered
  refine ⟨sent ++ pieces.map fun piece => (coding, piece), ?_, ?_⟩
  · simp [List.flatMap_map]
  · rw [List.filterMap_append, shown, List.map_append, List.map_map]
    exact sublist.append (List.Sublist.refl _)

def Debugger.showing (debugger : Debugger) (chunks : List Output.Chunk) : List Message :=
  (chunks.map debugger.chunkEvent).map .event

theorem shown_chunks (category : Category) (debugger : Debugger) (chunks : List Output.Chunk) :
    (debugger.showing chunks).filterMap (·.shown? category) =
      (chunks.filter (·.category = category)).map (·.run.text) := by
  induction chunks with
  | nil => rfl
  | cons chunk rest ih =>
    simp only [Debugger.showing, List.map_cons, List.filterMap_cons, Message.shown?,
      Debugger.chunkEvent, List.filter_cons] at ih ⊢
    by_cases own : chunk.category = category
    · simp [own, ← ih]
    · simp [own, ← ih]

theorem unhalting_chunks (debugger : Debugger) (chunks : List Output.Chunk) :
    Unhalting (debugger.showing chunks) := by
  intro event member
  obtain ⟨_, inside, same⟩ := List.mem_map.mp member
  obtain ⟨chunk, _, rfl⟩ := List.mem_map.mp inside
  cases same
  rfl

theorem Delivered.flush (delivered : Delivered category bytes messages) (debugger : Debugger)
    (output : Output.Pipeline) (coding : Text.Encoding) :
    Delivered category (bytes ++ (output.get category).parser.pending)
      (messages ++ debugger.showing (output.flush coding).2) := by
  have texts : (((output.get category).flush category coding).2.map (·.run.text)) =
      ((output.get category).parser.due coding).map (·.text) := by
    simp [Output.Channel.flush, Parser.flush_eq]
  have shown := shown_chunks category debugger (output.flush coding).2
  rw [(Output.Pipeline.get_flush output coding category).2, texts] at shown
  generalize (output.get category).parser = parser at shown ⊢
  unfold Parser.due at shown
  split at shown
  · rename_i empty
    rw [List.isEmpty_iff.mp empty, List.append_nil]
    exact delivered.append _
  · have one : parser.pending = [parser.pending].flatten := by simp
    rw [one]
    exact delivered.more shown

/-- The output that a step hands to the pipeline. After the end of the session it is dropped. -/
def Step.captured? (session : Session) (step : Step) : Option (Category × List UInt8) :=
  if session.isTerminated then none
  else
    match step with
    | .capture category bytes _ => some (category, bytes)
    | .print bytes _ => if session.debugger.capturePrint then some (.stdout, bytes) else none
    | .native stream bytes =>
      if session.debugger.redirected.contains stream then some (stream, bytes) else none
    | _ => none

/-- What a step adds to the stream of a category. -/
def Step.adds (session : Session) (category : Category) (step : Step) : List UInt8 :=
  match step.captured? session with
  | some (own, bytes) => if own = category then bytes else []
  | none => []

namespace Session

/-- The bytes that are captured in a category as the steps are performed. -/
def stream (category : Category) : Session → List Step → List UInt8
  | _, [] => []
  | session, step :: rest =>
    step.adds session category ++ (session.perform step).1.stream category rest

theorem stream_append (category : Category) (session : Session) (steps : List Step) (step : Step) :
    session.stream category (steps ++ [step]) =
      session.stream category steps ++ step.adds (session.run steps) category := by
  induction steps generalizing session with
  | nil => simp [stream, run]
  | cons first rest ih => simp [stream, run, ih]

/-- All text of the streams is sent or pending, and parsing goes on where it stands in them. -/
def Carries (session : Session) (streams : Category → List UInt8) : Prop :=
  ∀ category,
    (session.debugger.control.state ≠ .terminated →
      (session.debugger.output.get category).parser.mode =
        (streams category).foldl Mode.next .ground) ∧
    ∃ sent, sent ++ (session.debugger.output.get category).parser.pending =
        Mode.texts .ground (streams category) ∧
      Delivered category sent session.outbox

/-- No text is lost from one session to the next, and none waits when a stop or the end is
announced. -/
structure Flows (session next : Session) : Prop where
  live : session.debugger.control.state = .terminated → next.debugger.control.state = .terminated
  carries : ∀ {streams}, session.Carries streams → next.Carries streams
  drained : session.debugger.output.Drained → next.debugger.output.Drained
  outbox : ∃ messages, next.outbox = session.outbox ++ messages ∧
    ∀ before event after, messages = before ++ .event event :: after → event.halts = true →
      next.debugger.output.Drained ∧ ∀ {streams}, session.Carries streams →
        ∀ category, Delivered category (Mode.texts .ground (streams category))
          (session.outbox ++ before)

variable {session middle next : Session}

theorem flows_unhalting
    (live : session.debugger.control.state = .terminated →
      next.debugger.control.state = .terminated)
    (output : next.debugger.output = session.debugger.output)
    (outbox : next.outbox = session.outbox ++ messages) (unhalting : Unhalting messages) :
    Flows session next := by
  refine ⟨live, fun carries category => ?_, fun drained => output ▸ drained, messages, outbox, ?_⟩
  · obtain ⟨mode, sent, whole, delivered⟩ := carries category
    rw [output, outbox]
    exact ⟨fun lasts => mode (mt live lasts), sent, whole, delivered.append messages⟩
  · rintro before event after rfl halts
    have none := unhalting event (by simp)
    rw [none] at halts
    contradiction

theorem Flows.refl (session : Session) : Flows session session :=
  flows_unhalting id rfl (List.append_nil _).symm (by simp [Unhalting])

theorem append_eq_split {first second before after : List Message} {message : Message}
    (split : first ++ second = before ++ message :: after) :
    (∃ rest, first = before ++ message :: rest) ∨
      ∃ front, before = first ++ front ∧ second = front ++ message :: after := by
  rcases List.append_eq_append_iff.mp split with ⟨front, rfl, rest⟩ | ⟨front, rfl, rest⟩
  · exact Or.inr ⟨front, rfl, rest⟩
  · cases front with
    | nil => exact Or.inr ⟨[], by simp, by simpa using rest.symm⟩
    | cons head tail =>
      rw [List.cons_append, List.cons.injEq] at rest
      obtain ⟨rfl, _⟩ := rest
      exact Or.inl ⟨tail, rfl⟩

theorem Flows.trans (first : Flows session middle) (last : Flows middle next) :
    Flows session next := by
  obtain ⟨messages, outbox, told⟩ := first.outbox
  obtain ⟨others, later, announced⟩ := last.outbox
  refine ⟨last.live ∘ first.live, fun carries => last.carries (first.carries carries),
    last.drained ∘ first.drained, messages ++ others, ?_, ?_⟩
  · rw [later, outbox, List.append_assoc]
  · intro before event after split halts
    rcases append_eq_split split with ⟨rest, inside⟩ | ⟨front, rfl, inside⟩
    · obtain ⟨drained, delivered⟩ := told before event rest inside halts
      exact ⟨last.drained drained, delivered⟩
    · obtain ⟨drained, delivered⟩ := announced front event after inside halts
      refine ⟨drained, fun carries category => ?_⟩
      rw [← List.append_assoc, ← outbox]
      exact delivered (first.carries carries) category

/-- Whatever is announced after a flush comes after all text. -/
theorem flows_flush (before tail : List Message) (coding : Text.Encoding) (debugger : Debugger)
    (live : session.debugger.control.state = .terminated →
      next.debugger.control.state = .terminated)
    (modes : next.debugger.control.state ≠ .terminated → ∀ category,
      (next.debugger.output.get category).parser.mode =
        (session.debugger.output.get category).parser.mode)
    (drained : next.debugger.output.Drained) (unhalting : Unhalting before)
    (outbox : next.outbox = session.outbox ++ (before ++
      debugger.showing (session.debugger.output.flush coding).2 ++ tail)) :
    Flows session next := by
  have delivers : ∀ {streams}, session.Carries streams → ∀ category,
      Delivered category (Mode.texts .ground (streams category)) (session.outbox ++ (before ++
        debugger.showing (session.debugger.output.flush coding).2)) := by
    intro streams carries category
    obtain ⟨_, sent, whole, delivered⟩ := carries category
    rw [← whole, ← List.append_assoc]
    exact (delivered.append before).flush debugger session.debugger.output coding
  refine ⟨live, fun carries category => ?_, fun _ => drained, _, outbox, ?_⟩
  · have empty := drained category
    simp only [Parser.hasPending, Bool.not_eq_false', List.isEmpty_iff] at empty
    refine ⟨fun lasts => ?_, _, by rw [empty, List.append_nil], ?_⟩
    · rw [modes lasts category]
      exact (carries category).1 (mt live lasts)
    · rw [outbox, ← List.append_assoc]
      exact (delivers carries category).append tail
  · intro early event after split halts
    have quiet := unhalting.append (unhalting_chunks debugger
      (session.debugger.output.flush coding).2)
    rcases append_eq_split split with ⟨rest, inside⟩ | ⟨front, rfl, _⟩
    · have none := quiet event (by simp [inside])
      rw [none] at halts
      contradiction
    · refine ⟨drained, fun carries category => ?_⟩
      rw [← List.append_assoc]
      exact (delivers carries category).append front

theorem flush_get (output : Output.Pipeline) (coding : Text.Encoding) (category : Category) :
    ((output.flush coding).1.get category).parser =
      { (output.get category).parser with pending := [] } := by
  rw [(Output.Pipeline.get_flush output coding category).1]
  simp only [Output.Channel.flush, Parser.flush_eq]

theorem flush_drained (output : Output.Pipeline) (coding : Text.Encoding) :
    (output.flush coding).1.Drained := by
  intro category
  rw [flush_get]
  rfl

theorem stop_flows (call : Call) (reason : Execution.StopReason)
    (exception : Option ExceptionRecord)
    (live : session.debugger.control.state ≠ .terminated) :
    Flows session (session.stop call reason exception) := by
  let coding := session.debugger.mapping.consoleCoding
  refine flows_flush [] [.event (.stopped call.thread reason exception)] coding session.debugger
    (fun ends => absurd ends live) (fun _ category => ?_)
    (flush_drained session.debugger.output coding) (by simp [Unhalting]) ?_
  · have kept := congrArg Parser.mode (flush_get session.debugger.output coding category)
    exact kept
  · simp only [stop, emit, send, List.map_append, List.nil_append]
    rfl

theorem Aside.flows (aside : Aside session next) : Flows session next := by
  have quiet := aside.quiet
  obtain ⟨news, incidental, outbox⟩ := quiet.outbox
  have output : next.debugger.output = session.debugger.output := by
    cases aside with
    | note | finish => rfl
    | discover interpreter chunk =>
      obtain ⟨_, _, _, _, same⟩ := discover_spec session interpreter chunk
      rw [same]
  exact flows_unhalting (quiet.control ▸ id) output outbox incidental.unhalting

theorem attach_flows (session : Session) (handle : Nat) :
    Flows session (session.attach handle).1 := by
  obtain ⟨news, incidental, same⟩ := attach_spec session handle
  rw [same]
  exact flows_unhalting id rfl rfl incidental.unhalting

theorem flows_silent (control : next.debugger.control = session.debugger.control)
    (output : next.debugger.output = session.debugger.output)
    (outbox : next.outbox = session.outbox) : Flows session next :=
  flows_unhalting (control ▸ id) output (outbox.trans (List.append_nil _).symm)
    (by simp [Unhalting])

theorem Advance.flows (advance : Advance session next) : Flows session next := by
  cases advance with
  | aside aside => exact aside.flows
  | attach handle => exact attach_flows session handle
  | arrive | suspend | hit | leave => exact flows_silent rfl rfl rfl
  | wake call =>
    obtain ⟨_, same, _⟩ := wake_spec session.debugger call
    simp only [modifyDebugger, same]
    exact flows_silent rfl rfl rfl
  | say call text => exact flows_unhalting id rfl rfl (by simp [Unhalting, Event.halts])
  | stop call before after reason exception control waits free enters =>
    have live := (Free.state free).1
    have moved : Flows session { session with
        debugger := { session.debugger with control }
        blocked := before ++ after } :=
      flows_unhalting (fun ends => absurd ends live) rfl (List.append_nil _).symm
        (by simp [Unhalting])
    exact moved.trans (stop_flows call reason exception (by simp [enters.state]))

theorem Advances.flows (advances : Advances session next) : Flows session next := by
  induction advances with
  | refl => exact .refl session
  | tail _ last ih => exact ih.trans last.flows

theorem refusals_unhalting (failure : Failure) (queue : List Deferred) :
    Unhalting (queue.map (Debugger.refusal failure)) := by
  intro event member
  obtain ⟨_, _, same⟩ := List.mem_map.mp member
  contradiction

theorem teardown_output (debugger : Debugger) :
    ∃ refused, Unhalting refused ∧ debugger.teardown.1.output.Drained ∧
      debugger.teardown.2.1 = refused ++
        debugger.showing (debugger.output.flush debugger.mapping.consoleCoding).2 := by
  unfold Debugger.teardown
  cases debugger.control.terminate with
  | some control =>
    exact ⟨_, refusals_unhalting .terminated debugger.queue, Output.Pipeline.drained_reset _, rfl⟩
  | none => exact ⟨[], by simp [Unhalting], Output.Pipeline.drained_reset _, rfl⟩

/-- The end of a session sends all output before it is announced. -/
theorem teardown_flows
    (ends : next.debugger.control.state = .terminated)
    (output : next.debugger.output = session.debugger.teardown.1.output)
    (outbox : ∃ tail, next.outbox = session.outbox ++ (session.debugger.teardown.2.1 ++ tail)) :
    Flows session next := by
  obtain ⟨tail, outbox⟩ := outbox
  obtain ⟨refused, unhalting, drained, messages⟩ := teardown_output session.debugger
  refine flows_flush refused tail session.debugger.mapping.consoleCoding session.debugger
    (fun _ => ends) (fun live => absurd ends live) (output ▸ drained) unhalting ?_
  rw [outbox, messages]

theorem shutdown_flows (session : Session) : Flows session session.shutdown.1 := by
  refine teardown_flows (shutdown_ended session).state rfl ?_
  simp only [shutdown, emit, send, List.append_assoc]
  exact ⟨_, rfl⟩

theorem close_flows (session : Session) (request : Request) (exit : Bool) :
    Flows session (session.apply request (session.debugger.finishSession exit)) := by
  refine teardown_flows (close_ended session request exit).state rfl ?_
  rw [apply_outbox]
  exact ⟨_, rfl⟩

theorem releaseIfReady_flows (session : Session) :
    Flows session (session.modifyDebugger (·.releaseIfReady)) := by
  obtain ⟨control, same, rfl | ⟨_, _, done⟩⟩ := session.debugger.releaseIfReady_spec
  · simp only [modifyDebugger, same]
    exact .refl session
  · obtain ⟨initializing, rfl⟩ := Execution.Control.configurationDone_eq_some.mp done
    simp only [modifyDebugger, same]
    exact flows_unhalting (fun ends => by simp [initializing] at ends) rfl
      (List.append_nil _).symm (by simp [Unhalting])

theorem answer_flows (session : Session) (request : Request) (outcome : Except Failure Body) :
    Flows session (session.answer request outcome) :=
  flows_unhalting id rfl rfl (by simp [Unhalting])

theorem carryOut_output {debugger : Debugger} {command : ControlCommand} {request : Request}
    {change : Change} (carried : debugger.carryOut command request = .ok change)
    (lasts : (Command.control command).endsSession = false) :
    change.debugger.output = debugger.output ∧ Unhalting change.before ∧
      Unhalting (change.after.map .event) ∧
      (debugger.control.state = .terminated → change.debugger.control.state = .terminated) := by
  cases command with
  | handshake | setBreakpoints | setExceptionBreakpoints | pause =>
    obtain ⟨before, after, control, _, _, _, _, _, same, asked, _⟩ :=
      Debugger.carryOut_adjusts carried rfl
    rw [before, same]
    refine ⟨rfl, by simp [Unhalting], ?_, ?_⟩
    · rcases after with after | after
      all_goals rw [after]
      all_goals simp [Unhalting, Event.halts]
    · rcases asked with rfl | ⟨_, paused⟩
      · exact id
      · rw [(Execution.Control.requestPause_keeps paused).1]
        exact id
  | launch | attach =>
    obtain ⟨_, _, events, _, _, _, _, incidental, rfl⟩ := Debugger.start_spec carried
    exact ⟨rfl, (news_events incidental).unhalting, by simp [Unhalting], id⟩
  | configurationDone =>
    obtain ⟨_, rfl⟩ := Debugger.configurationDone_spec carried
    exact ⟨rfl, by simp [Unhalting], by simp [Unhalting], id⟩
  | terminate | disconnect => contradiction

theorem conclude_flows (session : Session) (command : ControlCommand) (request : Request) :
    Flows session (session.conclude request (session.debugger.carryOut command request)).1 := by
  cases outcome : session.debugger.carryOut command request with
  | error failure => exact (answer_flows session request _).trans (releaseIfReady_flows _)
  | ok change =>
    have applied : Flows session (session.apply request change) := by
      cases ending : (Command.control command).endsSession with
      | false =>
        obtain ⟨output, before, after, live⟩ := carryOut_output outcome ending
        have answered : Unhalting [.response request.seq request.command (.ok change.body)] := by
          simp [Unhalting]
        exact flows_unhalting live output (apply_outbox session request change)
          (before.append (answered.append after))
      | true =>
        obtain ⟨exit, finished⟩ := Debugger.carryOut_ends request ending
        cases (finished session.debugger).symm.trans outcome
        exact close_flows session request exit
    exact applied.trans (releaseIfReady_flows _)

theorem handle_flows (session : Session) (request : Request) :
    Flows session (session.handle request).1 := by
  cases session.handling request with
  | other _ taken =>
    rw [taken]
    exact .refl session
  | unknown _ _ taken | late _ _ _ _ _ taken | unserved _ _ _ _ _ taken =>
    rw [taken]
    exact answer_flows session request _
  | control command _ _ _ taken =>
    rw [taken]
    exact conclude_flows session command request
  | deferred _ _ _ _ _ taken =>
    rw [taken]
    exact flows_silent rfl rfl rfl

theorem handleAll_flows (session : Session) (requests : List Request) :
    Flows session (session.handleAll requests).1 := by
  induction requests generalizing session with
  | nil => exact .refl session
  | cons request rest ih => exact (handle_flows session request).trans (ih _)

theorem returned_flows (session : Session) (call : Call) (value : Bool) :
    Flows session (session.returned call value) := by
  unfold returned
  split
  · exact flows_silent rfl rfl rfl
  · split
    · exact (shutdown_flows session).trans (flows_silent rfl rfl rfl)
    · exact flows_silent rfl rfl rfl

theorem release_flows (session : Session) (stop : Stop) : Flows session (session.release stop) := by
  have let_go : Flows session ({ session with stopped := none }.modifyDebugger
      (runThreads · stop.call.thread)) := flows_silent rfl rfl rfl
  rw [release_eq]
  exact let_go.trans (returned_flows _ stop.call true)

theorem resume_flows (live : session.debugger.control.state ≠ .terminated) (stop : Stop)
    (how : Resume) : Flows session (session.resume stop how) := by
  unfold resume
  dsimp only
  split
  · rename_i control resumed
    have refused : Flows session ({ session with
        debugger := { session.debugger with control, queue := [] } }.send
          (session.debugger.queue.map (Debugger.refusal .released))) :=
      flows_unhalting (fun ends => absurd ends live) rfl rfl (refusals_unhalting _ _)
    exact refused.trans (release_flows _ stop)
  · exact release_flows session stop

/-- The stopped thread answers one request, and may run on. -/
theorem serveNext_flows (coherent : session.Coherent) : Flows session session.serveNext := by
  unfold serveNext
  split
  · rename_i stop deferred rest held waiting
    obtain ⟨reason, state⟩ := coherent.queued.state (by simp [waiting])
    have live : session.debugger.control.state ≠ .terminated := by simp [state]
    dsimp only
    generalize outcome : (Debugger.inspect _ stop deferred).outcome = answer
    cases answer with
    | error failure =>
      have refused : Unhalting
          [.response deferred.request.seq deferred.request.command (.error failure)] := by
        simp [Unhalting]
      exact flows_unhalting id rfl rfl refused
    | ok reply =>
      obtain ⟨sources, same⟩ := Debugger.inspect_sources outcome
      have incidental := Debugger.inspect_incidental outcome
      have control : reply.debugger.control = session.debugger.control := by rw [same]; rfl
      have output : reply.debugger.output = session.debugger.output := by rw [same]; rfl
      have replied : ∀ next : Session, next.debugger = reply.debugger →
          next.outbox = session.outbox ++ (reply.events.map .event ++
            [.response deferred.request.seq deferred.request.command (.ok reply.body)]) →
          Flows session next := by
        intro next debugger outbox
        refine flows_unhalting ?_ (debugger ▸ output) outbox
          ((news_events incidental).unhalting.append (by simp [Unhalting]))
        rw [debugger, control]
        exact id
      have lasts : reply.debugger.control.state ≠ .terminated := control ▸ live
      simp only [Session.reply]
      split
      · refine (replied _ rfl ?_).trans (resume_flows lasts _ _)
        simp only [answer, emit, send, note, modifyDebugger, List.append_assoc]
      · refine replied _ rfl ?_
        simp only [answer, emit, send, note, modifyDebugger, List.append_assoc]
  · exact .refl session

theorem rounds_flows (requests : List Deferred) (coherent : session.Coherent) :
    Flows session (requests.foldl (fun session _ => session.serveNext) session) := by
  induction requests generalizing session with
  | nil => exact .refl session
  | cons request rest ih =>
    exact (serveNext_flows coherent).trans (ih ((serveNext_acts coherent).coherent coherent))

theorem leaveAll_flows (session : Session) (calls : List Call) :
    Flows session (calls.foldl leave session) := by
  induction calls generalizing session with
  | nil => exact .refl session
  | cons call rest ih => exact (returned_flows session call false).trans (ih _)

theorem settle_flows (coherent : session.Coherent) (drained : session.debugger.queue = []) :
    Flows session session.settle := by
  by_cases ends : session.debugger.control.state = .terminated
  · simp only [settle, (isTerminated_iff coherent).mpr ends, if_true]
    cases session.stopped with
    | none =>
      have emptied : Flows session { session with blocked := [] } := flows_silent rfl rfl rfl
      exact emptied.trans (leaveAll_flows _ _)
    | some stop =>
      have emptied : Flows (session.release stop) { session.release stop with blocked := [] } :=
        flows_silent rfl rfl rfl
      exact ((release_flows session stop).trans emptied).trans (leaveAll_flows _ _)
  · have settled : session.Settled := ⟨coherent, drained, fun ended => absurd ended ends⟩
    exact (settle_advances settled).flows

/-- Requests that are taken are served, and then the program goes on. -/
theorem serve_flows (coherent : session.Coherent) : Flows session session.serve.settle := by
  obtain ⟨served, drained⟩ := serve_acts coherent
  exact (rounds_flows session.debugger.queue coherent).trans
    (settle_flows (served.coherent coherent) drained)

theorem batch_flows (coherent : session.Coherent) (requests : List Request) :
    Flows session (session.batch requests).1 := by
  rcases batch_gathers session requests with ⟨_, same⟩ | ⟨middle, gathers, same⟩
  · rw [same]
    exact .refl session
  · rw [same]
    refine Flows.trans ?_ (serve_flows (gathers.coherent coherent))
    cases gathers with
    | turns => exact handleAll_flows session requests
    | busy first rest asked outcome =>
      have noted : Aside session (session.note asked) := .note asked
      exact (noted.flows.trans (handleAll_flows _ rest)).trans (answer_flows _ first _)

theorem detach_flows (valid : session.debugger.control.Valid) (handle : Nat) (announce : Bool) :
    Flows session (session.detach handle announce).1 := by
  obtain ⟨registry, control, news, incidental, _, _, _, changed, same⟩ :=
    detach_spec valid handle announce
  rw [same]
  refine flows_unhalting ?_ rfl rfl incidental.unhalting
  rcases changed with rfl | ⟨⟨kind, stepping⟩, rfl⟩
  · exact id
  · simp [stepping]

theorem configure_flows (session : Session) (change : Except Config.Error Config.Store) :
    Flows session (session.configure change).1 := by
  obtain ⟨config, mapping, sources, filters, news, incidental, same⟩ := configure_spec session change
  rw [same]
  exact flows_unhalting id rfl rfl incidental.unhalting

theorem origin_flows (session : Session) (place : Option (Interpreter × Nat)) :
    Flows session (session.origin place).1 := by
  cases place with
  | none => exact .refl session
  | some place => exact (Aside.discover place.1 place.1.chunk).flows

/-- A step that hands nothing to the pipeline loses no text, and announces what it announces after
all of it. -/
theorem perform_flows (settled : session.Settled) {step : Step}
    (uncaptured : step.captured? session = none) : Flows session (session.perform step).1 := by
  have coherent := settled.coherent
  cases step with
  | request request =>
    exact (handle_flows session request).trans
      (serve_flows ((handle_acts coherent request).coherent coherent))
  | batch requests => exact batch_flows coherent requests
  | hook | lines | exception | panic | attach => exact (perform_advances settled rfl).flows
  | detach handle announce => exact detach_flows coherent.control handle announce
  | print bytes place =>
    have located : Flows session (session.located place) := origin_flows session place
    rw [perform_print]
    simp only [Step.captured?] at uncaptured
    split at uncaptured
    · rename_i ended
      have late : (session.located place).isTerminated = true :=
        (origin_terminated session place).trans ended
      simp only [capture_late late, ite_self]
      exact located
    · split at uncaptured
      · contradiction
      · rename_i unchosen
        simp only [if_neg unchosen]
        exact located
  | capture category bytes place =>
    simp only [Step.captured?] at uncaptured
    split at uncaptured
    · rename_i ended
      have late : (session.origin place).1.isTerminated = true :=
        (origin_terminated session place).trans ended
      simp only [perform, capture_late late]
      exact origin_flows session place
    · contradiction
  | native stream bytes =>
    simp only [Step.captured?] at uncaptured
    simp only [perform, native]
    split at uncaptured
    · rename_i ended
      split
      · simp only [capture_late ended]
        exact .refl session
      · exact .refl session
    · split at uncaptured
      · contradiction
      · rename_i given
        simp only [if_neg given]
        exact .refl session
  | updateConfig update => exact configure_flows session _
  | loadDefaults path content => exact configure_flows session _
  | config => exact .refl session
  | shutdown =>
    have ended : Acts session [] session.shutdown.1 := .still .shutdown
    exact (shutdown_flows session).trans
      (settle_flows (ended.coherent coherent) (ended.drained settled.drained))

/-- Other steps look up where the output comes from and feed it to the pipeline. -/
theorem perform_captures {step : Step} {category : Category} {bytes : List UInt8}
    (captured : step.captured? session = some (category, bytes)) :
    ∃ place attribution, (session.perform step).1 =
      (session.origin place).1.capture category bytes attribution := by
  unfold Step.captured? at captured
  split at captured
  · contradiction
  · split at captured
    · rename_i place
      cases captured
      exact ⟨place, _, rfl⟩
    · rename_i place
      split at captured
      · rename_i chosen
        cases captured
        refine ⟨place, (session.origin place).2, ?_⟩
        rw [perform_print, if_pos chosen]
        rfl
      · contradiction
    · split at captured
      · rename_i redirected
        cases captured
        refine ⟨none, none, ?_⟩
        simp only [perform, native, if_pos redirected]
        rfl
      · contradiction
    · contradiction

theorem capture_carries (live : session.isTerminated = false)
    (lasts : session.debugger.control.state ≠ .terminated)
    {streams : Category → List UInt8} (carries : session.Carries streams) (category : Category)
    (bytes : List UInt8) (attribution : Option Output.Attribution) :
    (session.capture category bytes attribution).Carries fun other =>
      streams other ++ if category = other then bytes else [] := by
  have running : ¬session.debugger.isTerminated = true := by
    rw [Bool.not_eq_true]
    exact live
  obtain ⟨parser, others, runs, categories⟩ := session.debugger.output.capture_spec category bytes
    session.debugger.mapping.consoleCoding attribution
  simp only [capture, Debugger.capture, if_neg running]
  generalize session.debugger.output.capture category bytes _ _ = captured at *
  obtain ⟨output, chunks⟩ := captured
  dsimp only at parser others runs categories ⊢
  have shown := fun other => shown_chunks other session.debugger chunks
  intro other
  obtain ⟨mode, sent, whole, delivered⟩ := carries other
  by_cases own : category = other
  · subst own
    obtain ⟨pieces, texts, complete⟩ := Parser.feed_pending session.debugger.mapping.consoleCoding
      (session.debugger.output.get category).parser bytes
    have all : chunks.filter (·.category = category) = chunks :=
      List.filter_eq_self.mpr fun chunk member => by simpa using categories chunk member
    have sentTexts : chunks.map (·.run.text) =
        pieces.map session.debugger.mapping.consoleCoding.decode := by
      rw [← texts, ← runs, List.map_map]
      rfl
    have ownShown := shown category
    rw [all, sentTexts] at ownShown
    simp only [if_true, emit, send, List.foldl_append]
    refine ⟨fun _ => ?_, sent ++ pieces.flatten, ?_, delivered.more ownShown⟩
    · rw [parser, Parser.feed_mode, mode lasts]
    · rw [parser, List.append_assoc, complete, ← List.append_assoc, whole, mode lasts,
        Mode.texts_append]
  · have none : chunks.filter (·.category = other) = [] := by
      rw [List.filter_eq_nil_iff]
      intro chunk member same
      exact own ((categories chunk member).symm.trans (by simpa using same))
    simp only [if_neg own, List.append_nil, emit, send, others other (Ne.symm own)]
    exact ⟨mode, sent, whole, delivered.append _⟩

theorem perform_carries (settled : session.Settled) {streams : Category → List UInt8}
    (carries : session.Carries streams) (step : Step) :
    (session.perform step).1.Carries fun category =>
      streams category ++ step.adds session category := by
  cases captured : step.captured? session with
  | none =>
    simp only [Step.adds, captured, List.append_nil]
    exact (perform_flows settled captured).carries carries
  | some output =>
    obtain ⟨category, bytes⟩ := output
    obtain ⟨place, attribution, same⟩ := perform_captures captured
    have running : session.isTerminated = false := by
      by_contra ended
      simp [Step.captured?, ended] at captured
    have found := origin_flows session place
    have still : (session.origin place).1.isTerminated = false :=
      (origin_terminated session place).trans running
    have lasts : (session.origin place).1.debugger.control.state ≠ .terminated := by
      obtain ⟨acts, placed⟩ := origin_moves settled place
      exact (isTerminated_iff placed.coherent).not.mp (by simp [still])
    simp only [Step.adds, captured, same]
    exact capture_carries still lasts (found.carries carries) category bytes attribution

theorem carries_new : ({} : Session).Carries fun _ => [] := by
  intro category
  have fresh : (({} : Session).debugger.output.get category).parser = {} := by
    cases category <;> rfl
  rw [fresh]
  exact ⟨fun _ => rfl, [], rfl, [], rfl, List.nil_sublist _⟩

theorem run_carries (steps : List Step) :
    (({} : Session).run steps).Carries fun category => ({} : Session).stream category steps := by
  induction steps using List.reverseRecOn with
  | nil => exact carries_new
  | append_singleton steps step ih =>
    simp only [run_append, stream_append]
    exact perform_carries (run_settled steps) ih step

theorem captures_unhalting {step : Step} {category : Category} {bytes : List UInt8}
    (captured : step.captured? session = some (category, bytes)) :
    ∃ sent, (session.perform step).1.outbox = session.outbox ++ sent ∧ Unhalting sent := by
  obtain ⟨place, attribution, same⟩ := perform_captures captured
  obtain ⟨found, located, looked⟩ : ∃ found,
      (session.origin place).1.outbox = session.outbox ++ found ∧ Unhalting found := by
    cases place with
    | none => exact ⟨[], (List.append_nil _).symm, by simp [Unhalting]⟩
    | some place =>
      obtain ⟨_, _, news, incidental, resolved⟩ :=
        discover_spec session place.1 place.1.chunk
      exact ⟨news, congrArg Session.outbox resolved, incidental.unhalting⟩
  obtain ⟨_, news, incidental, shown⟩ :=
    capture_spec (session.origin place).1 category bytes attribution
  refine ⟨found ++ news, ?_, looked.append incidental.unhalting⟩
  rw [same, shown, ← List.append_assoc, ← located]

/-- Whatever announces a stop or the end leaves nothing pending, and all text that was captured
before is in output that was sent before it. -/
theorem output_precedes_halts (steps : List Step) (step : Step) :
    let session := ({} : Session).run steps
    let next := (session.perform step).1
    ∃ sent, next.outbox = session.outbox ++ sent ∧
      ∀ before event after, sent = before ++ .event event :: after → event.halts = true →
        step.captured? session = none ∧ next.debugger.output.Drained ∧
          ∀ category, Delivered category
            (Mode.texts .ground (({} : Session).stream category steps))
            (session.outbox ++ before) := by
  intro session next
  have settled : session.Settled := run_settled steps
  cases captured : step.captured? session with
  | none =>
    obtain ⟨sent, outbox, told⟩ := (perform_flows settled captured).outbox
    refine ⟨sent, outbox, fun before event after split halts => ?_⟩
    obtain ⟨drained, delivered⟩ := told before event after split halts
    exact ⟨rfl, drained, delivered (run_carries steps)⟩
  | some output =>
    obtain ⟨sent, outbox, unhalting⟩ := captures_unhalting captured
    refine ⟨sent, outbox, ?_⟩
    rintro before event after rfl halts
    have none := unhalting event (by simp)
    rw [none] at halts
    contradiction

/-- Printed text without a line end, with a sequence that is not complete yet, is out before the
stop at entry. -/
theorem entry_after_print :
    let steps : List Step := [
      .request { seq := 1, command := "configurationDone" },
      .request {
        seq := 2
        command := "launch"
        arguments := some (.object [
          ("outputCapture", .array [.string "print"]), ("stopOnEntry", .bool true)]) },
      .print [0x61, 0x1B, 0x5B] none]
    let session := ({} : Session).run steps
    let next := (session.perform (.hook 1 (.blank [] 1) (.line 3))).1
    ∃ before exception after,
      next.outbox = session.outbox ++ (before ++ .event (.stopped 1 .entry exception) :: after) ∧
        next.debugger.output.Drained ∧ Delivered .stdout [0x61] (session.outbox ++ before) := by
  intro steps session next
  obtain ⟨sent, outbox, told⟩ := output_precedes_halts steps (.hook 1 (.blank [] 1) (.line 3))
  have marked : marks next.outbox = [.stopped 1 .entry] := by decide +kernel
  have unmarked : marks session.outbox = [] := by decide +kernel
  have text : Mode.texts .ground (({} : Session).stream .stdout steps) = [0x61] := by
    decide +kernel
  rw [outbox, marks_append, unmarked, List.nil_append] at marked
  obtain ⟨exception, member⟩ := stopped_of_marks (marked ▸ List.mem_singleton_self _)
  obtain ⟨before, after, split⟩ := List.append_of_mem member
  obtain ⟨_, drained, delivered⟩ := told before _ after split rfl
  have shown := delivered .stdout
  rw [text] at shown
  exact ⟨before, exception, after, split ▸ outbox, drained, shown⟩

end Session
end DebugAdapter
