import DebugAdapter.Proofs.Session.Calling

/-! The requests that a session takes, defers and answers are moves of the client, and so is the end
of the session. -/
namespace DebugAdapter

open Debugger

namespace Session

variable {session middle next : Session} {taken : List Request} {stop : Stop} {deferred : Deferred}

theorem Acts.step (acts : Acts session taken middle) (act : Act middle none next) :
    Acts session taken next := by
  simpa using acts.tail act

theorem Acts.one {request : Request} (act : Act session (some request) next) :
    Acts session [request] next :=
  (Acts.refl session).tail act

theorem Acts.still (act : Act session none next) : Acts session [] next :=
  (Acts.refl session).step act

theorem Acts.trans {more : List Request} (first : Acts session taken middle)
    (last : Acts middle more next) : Acts session (taken ++ more) next := by
  induction last with
  | refl => simpa using first
  | tail _ act ih =>
    rw [← List.append_assoc]
    exact ih.tail act

theorem Acts.quietly (first : Acts session taken middle) (last : Acts middle [] next) :
    Acts session taken next := by
  simpa using first.trans last

/-- What every move without a request keeps, such moves keep together. -/
theorem Acts.unasked {P : Session → Prop} (acts : Acts session [] next) (start : P session)
    (keep : ∀ {middle later : Session}, Acts session [] middle → Act middle none later →
      P middle → P later) : P next := by
  generalize untaken : ([] : List Request) = taken at acts
  induction acts with
  | refl => exact start
  | @tail middle later taken request acts act ih =>
    obtain ⟨rfl, none⟩ := List.append_eq_nil_iff.mp untaken.symm
    obtain rfl := Option.toList_eq_nil_iff.mp none
    exact keep acts act (ih rfl)

/-- The session once a call has returned; a panic ends it. -/
def returned (session : Session) (call : Call) (value : Bool) : Session :=
  match call.errand with
  | .line .. => session.finish call.handle none
  | .exception record =>
    if record.fatal then session.shutdown.1.finish call.handle none
    else session.finish call.handle (some value)

theorem leave_eq (session : Session) (call : Call) : session.leave call = session.returned call false :=
  rfl

theorem release_eq (session : Session) (stop : Stop) :
    session.release stop = ({ session with stopped := none }.modifyDebugger
      (runThreads · stop.call.thread)).returned stop.call true := rfl

theorem returned_acts (session : Session) (call : Call) (value : Bool) :
    Acts session [] (session.returned call value) := by
  unfold returned
  split
  · exact .still (.aside (.finish call.handle none))
  · split
    · exact (Acts.still .shutdown).step (.aside (.finish call.handle none))
    · exact .still (.aside (.finish call.handle (some value)))

/-- A return leaves the other calls as they are, and a session that is over stays so. -/
theorem returned_spec (session : Session) (call : Call) (value : Bool) :
    (session.returned call value).stopped = session.stopped ∧
      (session.returned call value).blocked = session.blocked ∧
      (session.debugger.control.state = .terminated →
        (session.returned call value).debugger.control.state = .terminated) := by
  unfold returned
  split
  · exact ⟨rfl, rfl, id⟩
  · split
    · exact ⟨rfl, rfl, fun _ => (shutdown_ended session).state⟩
    · exact ⟨rfl, rfl, id⟩

/-- The thread that serves requests can be let go. -/
theorem Coherent.resumes (coherent : session.Coherent) (waiting : session.debugger.queue ≠ [])
    (held : session.stopped = some stop) (how : Resume) :
    ∃ control, session.debugger.control.resume stop.call.thread how.stepKind
      stop.call.interpreter.depth = some control := by
  obtain ⟨other, stopped, stopper⟩ := coherent.serving waiting
  cases held.symm.trans stopped
  exact ⟨_, Execution.Control.resume_eq_some.mpr ⟨stopper, rfl⟩⟩

/-- The stopped thread runs on once it has answered. -/
theorem resume_acts (coherent : session.Coherent) {rest : List Deferred} {how : Resume}
    (waiting : session.debugger.queue = deferred :: rest) (held : session.stopped = some stop)
    (resumes : deferred.command.resumption? = some how) (body : Body) :
    Acts session []
      ((({ session with stopped := some stop }.modifyDebugger fun debugger =>
        { debugger with queue := rest }).answer deferred.request (.ok body)).resume stop how) := by
  obtain ⟨control, resumed⟩ := coherent.resumes (by simp [waiting]) held how
  have gone : Act session none (session.letGo stop deferred.request body control rest) :=
    .resume deferred rest stop how body control waiting held resumes resumed
  have messages : session.outbox ++ .response deferred.request.seq deferred.request.command
      (.ok body) :: rest.map (refusal .released) = session.outbox ++
      [.response deferred.request.seq deferred.request.command (.ok body)] ++
      rest.map (refusal .released) := by simp
  have left := returned_acts (session.letGo stop deferred.request body control rest) stop.call true
  simp only [resume, modifyDebugger, answer, send, resumed, release_eq]
  simp only [letGo, send, messages] at gone left
  exact (Acts.still gone).quietly left

theorem reply_acts (coherent : session.Coherent) {rest : List Deferred}
    {outcome : Except Failure Reply} (waiting : session.debugger.queue = deferred :: rest)
    (held : session.stopped = some stop)
    (inspects : Inspects { session.debugger with queue := rest } stop deferred.command outcome) :
    Acts session [] ((session.modifyDebugger fun debugger => { debugger with queue := rest }).reply
      stop deferred.request outcome) := by
  have silent : session.outbox ++ [] = session.outbox := List.append_nil _
  cases inspects with
  | fail failure => exact .still (.decline deferred rest failure waiting)
  | answer body framesFetched stays lists =>
    have answered := Act.reply deferred rest stop body framesFetched waiting held stays lists
    simp only [reply, emit, send, List.map_nil, silent, modifyDebugger]
    exact .still answered
  | resume how body resumes =>
    have resumed := resume_acts coherent waiting held resumes body
    simp only [reply, emit, send, List.map_nil, silent, modifyDebugger]
    exact resumed

/-- The session once some frames are shown. -/
def showing (session : Session) (shown : Shown) : Session :=
  ({ session with debugger := { shown.debugger with queue := session.debugger.queue } }.note
    shown.callbacks).emit shown.events

theorem showing_add (interpreter : Interpreter) (shown : Shown) (entry : Frame × Nat) :
    Acts (session.showing shown) [] (session.showing (Shown.add interpreter shown entry)) := by
  obtain ⟨frame, index⟩ := entry
  unfold Shown.add
  dsimp only
  split
  · exact .refl _
  · rename_i chunk _
    have found : Act (session.showing shown) none
        ((session.showing shown).discover interpreter chunk) :=
      .aside (.discover interpreter chunk)
    simp only [showing, discover, emit, note, send, resolve_queue, List.append_assoc,
      ← List.map_append] at found ⊢
    exact .still found

theorem showing_foldl (interpreter : Interpreter) (entries : List (Frame × Nat)) (shown : Shown) :
    Acts (session.showing shown) []
      (session.showing (entries.foldl (Shown.add interpreter) shown)) := by
  induction entries generalizing shown with
  | nil => exact .refl _
  | cons entry rest ih => exact (showing_add interpreter shown entry).quietly (ih _)

theorem showing_reply (coherent : session.Coherent) {rest : List Deferred} {shown : Shown}
    {entries : List (DebugAdapter.Frame × Nat)}
    (waiting : session.debugger.queue = deferred :: rest) (held : session.stopped = some stop)
    (stack : deferred.command = .stackTrace)
    (shows : shown = entries.foldl (Shown.add stop.call.interpreter)
      { debugger := { session.debugger with queue := rest } })
    (callbacks : List Callback) (body : Body) :
    Acts session [] (((session.modifyDebugger fun debugger => { debugger with queue := rest }).note
      (callbacks ++ shown.callbacks)).reply stop deferred.request (.ok {
        debugger := shown.debugger, events := shown.events, body, framesFetched := true })) := by
  have noted : Acts session [] (session.note callbacks) := .still (.aside (.note callbacks))
  have begins : (session.note callbacks).showing
      { debugger := { session.debugger with queue := rest } } = session.note callbacks := by
    simp [showing, emit, send, note]
  have resolved := @showing_foldl (session.note callbacks) stop.call.interpreter entries
    { debugger := { session.debugger with queue := rest } }
  rw [begins, ← shows] at resolved
  have shownActs := noted.quietly resolved
  have queue : shown.debugger.queue = rest := by
    obtain ⟨sources, kept⟩ := Shown.foldl_sources stop.call.interpreter entries
      { debugger := { session.debugger with queue := rest } }
    rw [shows, kept]
  have same : { shown.debugger with queue := shown.debugger.queue } = shown.debugger := rfl
  have replied := reply_acts (shownActs.coherent coherent) waiting held
    (.answer body true (by rw [stack]; rfl) (by simp [stack]))
  rw [queue] at same
  simp only [showing, note, emit, send, modifyDebugger, reply, same, List.append_assoc,
    List.map_nil, List.append_nil] at replied shownActs ⊢
  exact shownActs.quietly replied

/-- The stopped thread takes one request. -/
theorem serveNext_acts (coherent : session.Coherent) : Acts session [] session.serveNext := by
  unfold serveNext
  split
  · rename_i stop deferred rest held waiting
    have replies : ∀ callbacks (outcome : Except Failure Reply),
        Inspects { session.debugger with queue := rest } stop deferred.command outcome →
        Acts session [] (((session.modifyDebugger fun debugger =>
          { debugger with queue := rest }).note callbacks).reply stop deferred.request outcome) := by
      intro callbacks outcome inspects
      have noted : Acts session [] (session.note callbacks) := .still (.aside (.note callbacks))
      exact noted.quietly (reply_acts (noted.coherent coherent) waiting held inspects)
    by_cases stack : deferred.command = .stackTrace
    · simp only [inspect, stack, withArguments]
      split
      · rename_i arguments _
        rcases inspectStack_spec (session.modifyDebugger fun debugger =>
            { debugger with queue := rest }).debugger stop arguments with
          refused | ⟨shown, entries, body, shows, same⟩
        · exact replies _ _ (stack ▸ refused)
        · rw [same]
          exact showing_reply coherent waiting held stack shows _ body
      · exact replies _ _ (.fail _)
    · exact replies _ _ (inspect_inspects _ stop stack)
  · exact .refl _

/-- A move that takes no request queues none. -/
theorem Act.queue (act : Act session none next) :
    next.debugger.queue = [] ∨ next.debugger.queue <:+ session.debugger.queue := by
  cases act with
  | aside aside => exact Or.inr (aside.quiet.queue ▸ List.suffix_refl _)
  | decline deferred rest _ waiting | reply deferred rest _ _ _ waiting =>
    exact Or.inr (waiting ▸ List.suffix_cons deferred rest)
  | resume => exact Or.inl rfl
  | release | dismiss => exact Or.inr (List.suffix_refl _)
  | detach handle announce =>
    refine Or.inr ?_
    cases detached : session.debugger.detach handle announce with
    | none => simp only [Session.detach, detached, List.suffix_refl]
    | some result =>
      obtain ⟨debugger, events⟩ := result
      obtain ⟨⟨registry, thread, _, rfl⟩, _⟩ := Debugger.detach_spec detached
      simp only [Session.detach, detached, emit, send, List.suffix_refl]
  | capture category bytes attribution =>
    exact Or.inr ((capture_quiet session category bytes attribution).queue ▸ List.suffix_refl _)
  | reconfigure change =>
    exact Or.inr ((configure_quiet session change).queue ▸ List.suffix_refl _)
  | shutdown =>
    obtain ⟨_, _, ⟨_, empty, _⟩ | ⟨_, same, _⟩⟩ := (shutdown_ended session).outbox
    · exact Or.inl empty
    · exact Or.inr (same ▸ List.suffix_refl _)

theorem Acts.queue (acts : Acts session [] next) :
    next.debugger.queue = [] ∨ next.debugger.queue <:+ session.debugger.queue := by
  let Shorter (later : Session) : Prop :=
    later.debugger.queue = [] ∨ later.debugger.queue <:+ session.debugger.queue
  refine acts.unasked (P := Shorter) (.inr (List.suffix_refl _)) fun _ act ih => ?_
  rcases act.queue, ih with ⟨empty | shorter, earlier | earlier⟩
  · exact Or.inl empty
  · exact Or.inl empty
  · exact Or.inl (List.suffix_nil.mp (earlier ▸ shorter))
  · exact Or.inr (shorter.trans earlier)

theorem Acts.drained (acts : Acts session [] next) (drained : session.debugger.queue = []) :
    next.debugger.queue = [] := by
  rcases acts.queue with empty | shorter
  · exact empty
  · exact List.suffix_nil.mp (drained ▸ shorter)

theorem Acts.queue_length (acts : Acts session [] next) :
    next.debugger.queue.length ≤ session.debugger.queue.length := by
  rcases acts.queue with empty | shorter
  · simp [empty]
  · exact shorter.length_le

theorem release_queue (session : Session) (stop : Stop) :
    (session.release stop).debugger.queue.length ≤ session.debugger.queue.length := by
  rw [release_eq]
  exact (returned_acts _ stop.call true).queue_length

theorem resume_queue (session : Session) (stop : Stop) (how : Resume) :
    (session.resume stop how).debugger.queue.length ≤ session.debugger.queue.length := by
  unfold resume
  dsimp only
  split
  · exact Nat.le_trans (release_queue _ _) (Nat.zero_le _)
  · exact release_queue _ _

theorem reply_queue (session : Session) (stop : Stop) (request : Request)
    {outcome : Except Failure Reply} (kept : ∀ reply, outcome = .ok reply →
      reply.debugger.queue = session.debugger.queue) :
    (session.reply stop request outcome).debugger.queue.length ≤
      session.debugger.queue.length := by
  cases outcome with
  | error failure => exact Nat.le_refl _
  | ok reply =>
    have same := congrArg List.length (kept reply rfl)
    simp only [Session.reply]
    split
    · exact Nat.le_trans (resume_queue _ _ _) (Nat.le_of_eq same)
    · exact Nat.le_of_eq same

/-- The stopped thread takes a request from the queue if there is one. -/
theorem serveNext_queue (coherent : session.Coherent) :
    session.serveNext.debugger.queue.length ≤ session.debugger.queue.length - 1 := by
  unfold serveNext
  split
  · rename_i stop deferred rest stopped waiting
    rw [waiting]
    refine reply_queue _ stop deferred.request fun reply answers => ?_
    obtain ⟨sources, same⟩ := inspect_sources answers
    have kept : _ = rest := congrArg Debugger.queue same
    exact kept
  · rename_i unserved
    cases waiting : session.debugger.queue with
    | nil => simp
    | cons deferred rest =>
      obtain ⟨stop, stopped, _⟩ := coherent.serving (by simp [waiting])
      exact (unserved stop deferred rest stopped waiting).elim

theorem rounds_acts (requests : List Deferred) (coherent : session.Coherent)
    (short : session.debugger.queue.length ≤ requests.length) :
    Acts session [] (requests.foldl (fun session _ => session.serveNext) session) ∧
      (requests.foldl (fun session _ => session.serveNext) session).debugger.queue = [] := by
  induction requests generalizing session with
  | nil => exact ⟨.refl session, List.length_eq_zero_iff.mp (Nat.le_zero.mp short)⟩
  | cons request requests ih =>
    have served := serveNext_acts coherent
    have fewer := Nat.le_trans (serveNext_queue coherent) (Nat.sub_le_iff_le_add.mpr short)
    obtain ⟨later, empty⟩ := ih (served.coherent coherent) fewer
    exact ⟨served.quietly later, empty⟩

theorem serve_drained (drained : session.debugger.queue = []) : session.serve = session := by
  rw [serve, drained, List.foldl_nil]

theorem serve_acts (coherent : session.Coherent) :
    Acts session [] session.serve ∧ session.serve.debugger.queue = [] :=
  rounds_acts session.debugger.queue coherent (Nat.le_refl _)

end Session
end DebugAdapter
