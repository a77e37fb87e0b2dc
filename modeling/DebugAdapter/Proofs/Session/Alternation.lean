import DebugAdapter.Proofs.Session.Stepping

/-! Stops and resumptions take turns. The client can tell from the messages alone which thread is
stopped, and for what reason. -/
namespace DebugAdapter

open Execution (StopReason)

/-- What a client follows: that a thread stops, that it is let go, and that the session is over. -/
inductive Mark where
  | stopped (thread : Nat) (reason : StopReason)
  | resumed
  | terminated
  deriving DecidableEq, Repr

def resumptions : List String := ["continue", "next", "stepIn", "stepOut"]

def Message.mark? : Message → Option Mark
  | .event (.stopped thread reason _) => some (.stopped thread reason)
  | .event .terminated => some .terminated
  | .response _ command (.ok _) => if command ∈ resumptions then some .resumed else none
  | _ => none

def marks (messages : List Message) : List Mark :=
  messages.filterMap Message.mark?

/-- Whose turn it is: the program's, or the client's while a thread is stopped, or nobody's. -/
inductive Turn where
  | program
  | client (thread : Nat) (reason : StopReason)
  | nobody
  deriving DecidableEq, Repr

def Turn.next? : Turn → Mark → Option Turn
  | .program, .stopped thread reason => some (.client thread reason)
  | .client .., .resumed => some .program
  | .program, .terminated => some .nobody
  | .client .., .terminated => some .nobody
  | _, _ => none

/-- Whose turn it is after some messages, unless they come out of turn. -/
def Turn.follow? (turn : Turn) (messages : List Message) : Option Turn :=
  (marks messages).foldlM Turn.next? turn

def Execution.Control.turn (control : Execution.Control) : Turn :=
  match control.state, control.stopper with
  | .stopped reason, some thread => .client thread reason
  | .terminated, _ => .nobody
  | _, _ => .program

theorem marks_append (messages others : List Message) :
    marks (messages ++ others) = marks messages ++ marks others :=
  List.filterMap_append

theorem Turn.follow?_append {turn middle : Turn} {messages : List Message}
    (first : turn.follow? messages = some middle) (others : List Message) :
    turn.follow? (messages ++ others) = middle.follow? others := by
  simp only [follow?, marks_append, List.foldlM_append] at first ⊢
  rw [first]
  rfl

theorem Turn.follow?_unmarked {messages : List Message} (turn : Turn)
    (unmarked : marks messages = []) : turn.follow? messages = some turn := by
  simp only [follow?, unmarked, List.foldlM_nil]
  rfl

/-- Without a resumption and without an end, the turn stays with the client. -/
theorem Turn.follow?_client {thread : Nat} {reason : StopReason} {messages : List Message}
    {turn : Turn} (follows : (Turn.client thread reason).follow? messages = some turn)
    (resumed : .resumed ∉ marks messages) (terminated : .terminated ∉ marks messages) :
    marks messages = [] := by
  cases sent : marks messages with
  | nil => rfl
  | cons mark rest =>
    rw [Turn.follow?, sent, List.foldlM_cons] at follows
    cases mark with
    | stopped => simp [Turn.next?] at follows
    | resumed => simp [sent] at resumed
    | terminated => simp [sent] at terminated

/-- After the end nothing is marked any more. -/
theorem Turn.foldlM_nobody {marks : List Mark} {turn : Turn}
    (follows : marks.foldlM Turn.next? .nobody = some turn) : marks = [] ∧ turn = .nobody := by
  cases marks with
  | nil => exact ⟨rfl, (Option.some.inj follows).symm⟩
  | cons mark rest => simp [Turn.next?] at follows

theorem News.unmarked {messages : List Message} (news : News messages) : marks messages = [] := by
  apply List.filterMap_eq_nil_iff.mpr
  intro message member
  obtain ⟨event, rfl, incidental⟩ := news message member
  cases event with
  | thread | output | loadedSource => rfl
  | initialized | stopped | terminated => exact incidental.elim

theorem refusals_unmarked (queue : List Deferred) (failure : Failure) :
    marks (queue.map (Debugger.refusal failure)) = [] := by
  apply List.filterMap_eq_nil_iff.mpr
  intro message member
  obtain ⟨deferred, _, rfl⟩ := List.mem_map.mp member
  rfl

theorem marks_stopped {messages : List Message} {thread : Nat} {reason : StopReason}
    {exception : Option ExceptionRecord}
    (member : .event (.stopped thread reason exception) ∈ messages) :
    .stopped thread reason ∈ marks messages :=
  List.mem_filterMap.mpr ⟨_, member, rfl⟩

theorem stopped_of_marks {messages : List Message} {thread : Nat} {reason : StopReason}
    (marked : .stopped thread reason ∈ marks messages) :
    ∃ exception, .event (.stopped thread reason exception) ∈ messages := by
  obtain ⟨message, member, shows⟩ := List.mem_filterMap.mp marked
  unfold Message.mark? at shows
  split at shows
  · cases shows
    exact ⟨_, member⟩
  · cases shows
  · split at shows <;> cases shows
  · cases shows

/-- Whether a command lets the stopped thread go. -/
def Command.resumes : Command → Bool
  | .control _ => false
  | .stopped command => command.resumption?.isSome

theorem mem_resumptions {name : String} {command : Command}
    (named : Command.ofName? name = some command) : name ∈ resumptions ↔ command.resumes = true := by
  have table : ∀ entry ∈ Command.table, entry.1 ∈ resumptions ↔ entry.2.resumes = true := by decide
  exact table (name, command) (Command.mem_table named)

theorem granted_marks (request : Request) {command : Command} (body : Body)
    (named : Command.ofName? request.command = some command) :
    marks [.response request.seq request.command (.ok body)] =
      if command.resumes then [.resumed] else [] := by
  simp only [marks, List.filterMap_cons, List.filterMap_nil, Message.mark?,
    mem_resumptions named]
  split <;> simp_all

namespace Execution.Control

variable {control next : Control} {thread : Nat} {reason : StopReason}

theorem turn_stopped (state : control.state = .stopped reason)
    (stopper : control.stopper = some thread) : control.turn = .client thread reason := by
  simp only [turn, state, stopper]

theorem turn_over (ends : control.state = .terminated) : control.turn = .nobody := by
  simp only [turn, ends]

theorem turn_program (live : control.state ≠ .terminated) (free : control.stopper = none) :
    control.turn = .program := by
  unfold turn
  split
  · simp_all
  · contradiction
  · rfl

theorem turn_live (live : control.state ≠ .terminated) : control.turn ≠ .nobody := by
  unfold turn
  split
  · simp
  · contradiction
  · simp

theorem turn_eq_nobody : control.turn = .nobody ↔ control.state = .terminated :=
  ⟨fun nobody => by_contra fun live => turn_live live nobody, turn_over⟩

theorem turn_congr (state : next.state = control.state) (stopper : next.stopper = control.stopper) :
    next.turn = control.turn := by
  simp only [turn, state, stopper]

theorem turn_running (live : control.state ≠ .terminated)
    (unstopped : ∀ reason, control.state ≠ .stopped reason) : control.turn = .program := by
  unfold turn
  split
  · rename_i reason _ stopped _
    exact absurd stopped (unstopped reason)
  · contradiction
  · rfl

theorem turn_eq_client (turns : control.turn = .client thread reason) :
    control.state = .stopped reason ∧ control.stopper = some thread := by
  unfold turn at turns
  split at turns
  · cases turns
    exact ⟨by assumption, by assumption⟩
  · contradiction
  · contradiction

end Execution.Control

namespace Session

def turn (session : Session) : Turn :=
  session.debugger.control.turn

variable {session middle next : Session} {request : Option Request}

/-- The client follows what is sent, and no thread has stopped. -/
structure Follows (session next : Session) (sent : List Message) : Prop where
  outbox : next.outbox = session.outbox ++ sent
  turn : session.turn.follow? sent = some next.turn
  unstopped : ∀ thread reason, Mark.stopped thread reason ∉ marks sent

theorem Quiet.passes (quiet : Quiet session next) :
    ∃ sent, next.outbox = session.outbox ++ sent ∧ marks sent = [] ∧ next.turn = session.turn := by
  obtain ⟨news, incidental, outbox⟩ := quiet.outbox
  exact ⟨news, outbox, incidental.unmarked, by rw [turn, quiet.control, turn]⟩

/-- Threads that advance only stop, one at a time. -/
theorem Advance.passes (advance : Advance session next) (coherent : session.Coherent) :
    ∃ sent, next.outbox = session.outbox ++ sent ∧
      ((marks sent = [] ∧ next.turn = session.turn) ∨
        ∃ thread reason, marks sent = [.stopped thread reason] ∧ session.turn = .program ∧
          next.turn = .client thread reason) := by
  rcases advance.effect with
    quiet | ⟨call, reason, exception, news, waits, free, enters, incidental, outbox, _⟩
  · obtain ⟨sent, outbox, unmarked, same⟩ := quiet.passes
    exact ⟨sent, outbox, Or.inl ⟨unmarked, same⟩⟩
  · have live := (Free.state free).1
    have alone := (coherent.alone waits free).2
    refine ⟨_, by rw [outbox, List.append_assoc], Or.inr ⟨call.thread, reason, ?_, ?_, ?_⟩⟩
    · rw [marks_append, incidental.unmarked]
      rfl
    · exact Execution.Control.turn_program live alone
    · exact Execution.Control.turn_stopped enters.state enters.stopper

theorem Advances.passes (advances : Advances session next) (coherent : session.Coherent) :
    ∃ sent, next.outbox = session.outbox ++ sent ∧
      ((marks sent = [] ∧ next.turn = session.turn) ∨
        ∃ thread reason, marks sent = [.stopped thread reason] ∧ session.turn = .program ∧
          next.turn = .client thread reason) := by
  induction advances with
  | refl => exact ⟨[], by rw [List.append_nil], Or.inl ⟨rfl, rfl⟩⟩
  | tail first last ih =>
    obtain ⟨earlier, outboxBefore, before⟩ := ih
    obtain ⟨later, outbox, after⟩ := last.passes (Advances.coherent first coherent)
    refine ⟨earlier ++ later, by rw [outbox, outboxBefore, List.append_assoc], ?_⟩
    rw [marks_append]
    rcases after with ⟨unmarked, same⟩ | ⟨thread, reason, stopped, program, turns⟩
    · rw [unmarked, List.append_nil, same]
      exact before
    · rcases before with ⟨unmarked, same⟩ | ⟨_, _, _, _, taken⟩
      · rw [unmarked, stopped]
        exact Or.inr ⟨thread, reason, rfl, same ▸ program, turns⟩
      · rw [taken] at program
        contradiction

theorem follows_unmarked {sent : List Message} (outbox : next.outbox = session.outbox ++ sent)
    (unmarked : marks sent = []) (same : next.turn = session.turn) : Follows session next sent :=
  ⟨outbox, by rw [same, Turn.follow?_unmarked _ unmarked], by simp [unmarked]⟩

theorem Follows.trans {earlier later : List Message} (first : Follows session middle earlier)
    (last : Follows middle next later) : Follows session next (earlier ++ later) := by
  refine ⟨by rw [last.outbox, first.outbox, List.append_assoc], ?_, ?_⟩
  · rw [Turn.follow?_append first.turn, last.turn]
  · intro thread reason
    rw [marks_append, List.mem_append, not_or]
    exact ⟨first.unstopped thread reason, last.unstopped thread reason⟩

theorem Quiet.follows (quiet : Quiet session next) : ∃ sent, Follows session next sent := by
  obtain ⟨sent, outbox, unmarked, same⟩ := quiet.passes
  exact ⟨sent, follows_unmarked outbox unmarked same⟩

theorem follows_over {sent : List Message} (outbox : next.outbox = session.outbox ++ sent)
    (marked : marks sent = [.terminated]) (live : session.turn ≠ .nobody) (ends : next.turn = .nobody) :
    Follows session next sent := by
  refine ⟨outbox, ?_, by simp [marked]⟩
  simp only [Turn.follow?, marked, List.foldlM_cons, List.foldlM_nil, ends]
  cases turns : session.turn with
  | program | client => rfl
  | nobody => contradiction

theorem follows_resumed {sent : List Message} {thread : Nat} {reason : StopReason}
    (outbox : next.outbox = session.outbox ++ sent) (marked : marks sent = [.resumed])
    (held : session.turn = .client thread reason) (free : next.turn = .program) :
    Follows session next sent := by
  refine ⟨outbox, ?_, by simp [marked]⟩
  simp only [Turn.follow?, marked, List.foldlM_cons, List.foldlM_nil, held, free]
  rfl

theorem Ended.follows {answers : List Message} (ended : Ended session next answers)
    (unmarked : marks answers = []) : ∃ sent, Follows session next sent := by
  have ends : next.turn = .nobody := Execution.Control.turn_over ended.state
  obtain ⟨news, incidental, ⟨live, _, outbox⟩ | ⟨ended, _, outbox⟩⟩ := ended.outbox
  · simp only [List.append_assoc] at outbox
    refine ⟨_, follows_over outbox ?_ (Execution.Control.turn_live live) ends⟩
    simp only [marks_append, refusals_unmarked, incidental.unmarked, unmarked]
    rfl
  · have same : next.turn = session.turn :=
      ends.trans (Execution.Control.turn_over ended).symm
    rw [List.append_assoc] at outbox
    refine ⟨_, follows_unmarked outbox ?_ same⟩
    rw [marks_append, incidental.unmarked, unmarked]
    rfl

/-- A request that is granted and lets no thread go changes no turn. -/
theorem apply_follows {taken : Request} {command : Command} {change : Change}
    (named : Command.ofName? taken.command = some command) (stays : command.resumes = false)
    (before : News change.before) (after : marks (change.after.map .event) = [])
    (turn : change.debugger.control.turn = session.turn) :
    ∃ sent, Follows session (session.apply taken change) sent := by
  refine ⟨_, follows_unmarked (apply_outbox session taken change) ?_ turn⟩
  rw [marks_append, marks_append, before.unmarked, granted_marks taken change.body named, stays,
    after]
  rfl

theorem releaseIfReady_follows (session : Session) :
    ∃ sent, Follows session (session.modifyDebugger (·.releaseIfReady)) sent := by
  refine ⟨[], follows_unmarked (List.append_nil _).symm rfl ?_⟩
  obtain ⟨control, same, rfl | ⟨_, _, done⟩⟩ := Debugger.releaseIfReady_spec session.debugger
  · simp only [turn, modifyDebugger, same]
  · obtain ⟨initializing, rfl⟩ := Execution.Control.configurationDone_eq_some.mp done
    simp only [turn, modifyDebugger, same]
    rw [Execution.Control.turn_running (by simp) (by simp),
      Execution.Control.turn_running (by simp [initializing]) (by simp [initializing])]

/-- The thread whose turn it was is let go. -/
theorem letGo_follows (coherent : session.Coherent) {deferred : Deferred} {rest : List Deferred}
    {stop : Stop} {how : Resume} {depth : Nat} {control : Execution.Control}
    (waiting : session.debugger.queue = deferred :: rest)
    (resumes : deferred.command.resumption? = some how)
    (resumed : session.debugger.control.resume stop.call.thread how.stepKind depth = some control)
    (body : Body) :
    ∃ sent, Follows session (session.letGo stop deferred.request body control rest) sent := by
  have named := coherent.queued.commands deferred (by simp [waiting])
  obtain ⟨reason, state⟩ := coherent.queued.state (by simp [waiting])
  have stopper := (Execution.Control.resume_eq_some.mp resumed).1
  have client : session.turn = .client stop.call.thread reason :=
    Execution.Control.turn_stopped state stopper
  obtain ⟨_, live, unstopped, _⟩ := Execution.Control.resume_runs state resumed
  have free : control.turn = .program := Execution.Control.turn_running live unstopped
  refine ⟨_, follows_resumed rfl ?_ client free⟩
  rw [← List.singleton_append, marks_append, refusals_unmarked,
    granted_marks deferred.request body named, Command.resumes, resumes]
  rfl

theorem Act.follows (act : Act session request next) (coherent : session.Coherent) :
    ∃ sent, Follows session next sent := by
  cases act with
  | aside aside => exact aside.quiet.follows
  | refuse => exact ⟨_, follows_unmarked rfl rfl rfl⟩
  | evaluate taken outcome _ named =>
    cases outcome with
    | error => exact ⟨_, follows_unmarked rfl rfl rfl⟩
    | ok body => exact ⟨_, follows_unmarked rfl (granted_marks taken body named) rfl⟩
  | adjust taken command change _ named adjusts _ carried =>
    obtain ⟨before, after, control, _, _, _, _, _, same, asked, _⟩ :=
      Debugger.carryOut_adjusts carried adjusts
    refine apply_follows named rfl (before ▸ news_nil) ?_ ?_
    · rcases after with after | after <;> rw [after] <;> rfl
    · rw [same]
      rcases asked with rfl | ⟨_, paused⟩
      · rfl
      · obtain ⟨state, stopper⟩ := Execution.Control.requestPause_keeps paused
        exact Execution.Control.turn_congr state stopper
  | start taken command change _ named _ _ started =>
    obtain ⟨_, config, events, _, _, _, _, incidental, same⟩ := Debugger.start_spec started
    have before : News change.before := same ▸ news_events incidental
    obtain ⟨sent, applied⟩ := apply_follows named rfl before (by rw [same]; rfl) (by rw [same]; rfl)
    obtain ⟨_, released⟩ := releaseIfReady_follows (session.apply taken change)
    exact ⟨_, applied.trans released⟩
  | configure taken change _ named _ done =>
    obtain ⟨_, same⟩ := Debugger.configurationDone_spec done
    have before : News change.before := same ▸ news_nil
    obtain ⟨sent, applied⟩ := apply_follows named rfl before (by rw [same]; rfl) (by rw [same]; rfl)
    obtain ⟨_, released⟩ := releaseIfReady_follows (session.apply taken change)
    exact ⟨_, applied.trans released⟩
  | close taken command exit _ named =>
    exact (close_ended session taken exit).follows (granted_marks taken .empty named)
  | defer => exact ⟨[], follows_unmarked (List.append_nil _).symm rfl rfl⟩
  | decline => exact ⟨_, follows_unmarked rfl rfl rfl⟩
  | reply deferred rest stop body fetched waiting _ stays =>
    have named := coherent.queued.commands deferred (by simp [waiting])
    refine ⟨_, follows_unmarked rfl ?_ rfl⟩
    simp [granted_marks deferred.request body named, Command.resumes, stays]
  | resume deferred rest stop how body control waiting _ resumes resumed =>
    exact letGo_follows coherent waiting resumes resumed body
  | detach handle announce =>
    obtain ⟨control, changed, quiet⟩ := detach_quiet coherent.control handle announce
    obtain ⟨sent, outbox, unmarked, same⟩ := quiet.passes
    refine ⟨sent, follows_unmarked outbox unmarked (same.trans ?_)⟩
    rcases changed with rfl | ⟨⟨kind, stepping⟩, rfl⟩
    · rfl
    · change Execution.Control.turn _ = Execution.Control.turn _
      rw [Execution.Control.turn_running (by simp [modifyDebugger]) (by simp [modifyDebugger]),
        Execution.Control.turn_running (by simp [stepping]) (by simp [stepping])]
  | capture => exact (capture_quiet _ _ _ _).follows
  | reconfigure change => exact (configure_quiet session change).follows
  | shutdown => exact (shutdown_ended session).follows rfl
  | release | dismiss => exact ⟨[], follows_unmarked (List.append_nil _).symm rfl rfl⟩

theorem Acts.follows {taken : List Request} (acts : Acts session taken next)
    (coherent : session.Coherent) : ∃ sent, Follows session next sent := by
  induction acts with
  | refl => exact ⟨[], follows_unmarked (List.append_nil _).symm rfl rfl⟩
  | tail acts act ih =>
    obtain ⟨earlier, first⟩ := ih
    obtain ⟨later, last⟩ := act.follows (acts.coherent coherent)
    exact ⟨earlier ++ later, first.trans last⟩

/-- The client acts, and then the threads advance. If a thread has stopped meanwhile, that thread is
stopped in the end. -/
theorem Acts.follows_advances {taken : List Request} (acts : Acts session taken middle)
    (coherent : session.Coherent) (advances : Advances middle next) :
    ∃ sent, next.outbox = session.outbox ++ sent ∧ session.turn.follow? sent = some next.turn ∧
      ∀ thread reason, .stopped thread reason ∈ marks sent → next.turn = .client thread reason := by
  obtain ⟨earlier, follows⟩ := acts.follows coherent
  obtain ⟨later, outbox, passes⟩ := advances.passes (acts.coherent coherent)
  refine ⟨earlier ++ later, by rw [outbox, follows.outbox, List.append_assoc], ?_, ?_⟩
  · rw [Turn.follow?_append follows.turn]
    rcases passes with ⟨unmarked, same⟩ | ⟨thread, reason, stopped, program, turns⟩
    · rw [Turn.follow?_unmarked _ unmarked, same]
    · simp only [Turn.follow?, stopped, program, turns, List.foldlM_cons, List.foldlM_nil]
      rfl
  · intro thread reason member
    rw [marks_append, List.mem_append] at member
    have last := member.resolve_left (follows.unstopped thread reason)
    rcases passes with ⟨unmarked, _⟩ | ⟨stopper, cause, stopped, _, turns⟩
    · simp [unmarked] at last
    · obtain ⟨rfl, rfl⟩ := by simpa [stopped] using last
      exact turns

/-- A step sends its marks in turn. If a thread has stopped in it, that thread is stopped after it. -/
theorem perform_follows (settled : session.Settled) (step : Step) :
    ∃ sent, (session.perform step).1.outbox = session.outbox ++ sent ∧
      session.turn.follow? sent = some (session.perform step).1.turn ∧
      ∀ thread reason, .stopped thread reason ∈ marks sent →
        (session.perform step).1.turn = .client thread reason := by
  obtain ⟨_, _, acts, _, advances, _⟩ := perform_moves settled step
  exact acts.follows_advances settled.coherent advances

theorem run_follows (steps : List Step) :
    Turn.program.follow? (({} : Session).run steps).outbox =
      some (({} : Session).run steps).turn := by
  refine run_induction (P := fun _ session =>
    Turn.program.follow? session.outbox = some session.turn) rfl ?_ steps
  intro _ session step settled followed
  obtain ⟨sent, outbox, follows, _⟩ := perform_follows settled step
  rw [outbox, Turn.follow?_append followed, follows]

/-- Stops and granted resumptions alternate, beginning with a stop, until the session is over. A
stop names the thread that is the stopper after the step, with the reason of the state, and that
thread is the one that is stopped until a resumption is granted or the session ends. -/
theorem stops_alternate (steps : List Step) :
    Turn.program.follow? (({} : Session).run steps).outbox =
        some (({} : Session).run steps).debugger.control.turn ∧
      ((({} : Session).run steps).debugger.control.state ≠ .terminated →
        (({} : Session).run steps).debugger.control.stopper =
          (({} : Session).run steps).stopped.map (·.call.thread)) ∧
      ∀ step, let after := ((({} : Session).run steps).perform step).1
        ∃ sent, after.outbox = (({} : Session).run steps).outbox ++ sent ∧
          (∀ thread reason exception, .event (.stopped thread reason exception) ∈ sent →
            after.debugger.control.state = .stopped reason ∧
              after.debugger.control.stopper = some thread) ∧
          ∀ thread reason,
            (({} : Session).run steps).debugger.control.state = .stopped reason →
            (({} : Session).run steps).debugger.control.stopper = some thread →
            .resumed ∉ marks sent → .terminated ∉ marks sent →
            marks sent = [] ∧ after.debugger.control.state = .stopped reason ∧
              after.debugger.control.stopper = some thread := by
  have settled := run_settled steps
  refine ⟨run_follows steps, settled.coherent.holder, fun step => ?_⟩
  obtain ⟨sent, outbox, follows, stops⟩ := perform_follows settled step
  refine ⟨sent, outbox, ?_, ?_⟩
  · intro thread reason exception member
    exact Execution.Control.turn_eq_client (stops thread reason (marks_stopped member))
  · intro thread reason state stopper resumed terminated
    rw [turn, Execution.Control.turn_stopped state stopper] at follows
    have unmarked := Turn.follow?_client follows resumed terminated
    rw [Turn.follow?_unmarked _ unmarked] at follows
    exact ⟨unmarked, Execution.Control.turn_eq_client (Option.some.inj follows).symm⟩

end Session
end DebugAdapter
