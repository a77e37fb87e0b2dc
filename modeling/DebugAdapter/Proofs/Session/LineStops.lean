import DebugAdapter.Proofs.Execution.Contention
import DebugAdapter.Proofs.Session.Chronicle
import DebugAdapter.Proofs.Session.Resting

/-! What the lines of threads come to, and the exceptions that they stop at, as the chronicle tells
it: a line outside of skipped files takes up the stop that is asked for, and nothing else does. -/
namespace DebugAdapter

open Execution (LineGate)

namespace Execution.Control

variable {control next : Control} {thread depth : Nat} {skipped : Bool} {gate : LineGate}

/-- A line outside of skipped files takes up what is pending, before its step and breakpoints. -/
theorem passLine_due (passed : control.passLine thread depth skipped = (next, gate)) :
    next.pending = (if skipped then control.pending else none) ∧
      if skipped then gate = .suppressed
      else match control.pending with
        | some reason => gate = .stop reason
        | none => ∀ reason, gate = .stop reason → reason = .step := by
  unfold passLine at passed
  cases skipped with
  | true =>
    cases passed
    exact ⟨rfl, rfl⟩
  | false =>
    simp only [Bool.false_eq_true, if_false] at passed ⊢
    cases asked : control.pending with
    | some reason =>
      rw [asked] at passed
      cases passed
      exact ⟨by simp [enterStop], rfl⟩
    | none =>
      simp only [asked] at passed ⊢
      split at passed
      · split at passed
        · cases passed
          exact ⟨by simp [enterStop, asked], fun _ same => (LineGate.stop.inj same).symm⟩
        · cases passed
          exact ⟨asked, nofun⟩
      · cases passed
        exact ⟨asked, nofun⟩

theorem passLine_of_lineGate (live : control.state ≠ .terminated)
    (gated : control.lineGate thread depth skipped = some (next, gate)) :
    control.passLine thread depth skipped = (next, gate) := by
  rw [lineGate, if_neg live] at gated
  split at gated
  · contradiction
  · exact Option.some.inj gated

end Execution.Control

namespace Session

variable {session middle next : Session} {call : Call} {rest : List Call}

theorem Quiet.tells (quiet : Quiet session next) : Tells session next [] := by
  obtain ⟨sent, outbox, unmarked, -⟩ := quiet.passes
  refine ⟨by simp, fun _ => ?_, ⟨sent, outbox, by simp [stopsTold, unmarked]⟩, fun live => ?_,
    fun _ => rfl⟩
  · rw [quiet.control]
    rfl
  · rwa [quiet.control] at live

theorem stopsTold_unstopped {messages : List Message}
    (unstopped : ∀ thread reason, Mark.stopped thread reason ∉ marks messages) :
    stopsTold messages = [] := by
  refine List.filterMap_eq_nil_iff.mpr fun mark member => ?_
  cases mark with
  | stopped thread reason => exact absurd member (unstopped thread reason)
  | resumed | terminated => rfl

/-- Unless a request is taken, what is pending stays so until the session is over. -/
theorem Act.pending (act : Act session none next) (coherent : session.Coherent) :
    next.debugger.control.state = .terminated ∨
      next.debugger.control.pending = session.debugger.control.pending := by
  cases act with
  | aside aside => exact .inr (congrArg _ aside.quiet.control)
  | decline | reply => exact .inr rfl
  | resume deferred queue stop how body control waiting held resumes resumed =>
    right
    obtain ⟨_, rfl⟩ := Execution.Control.resume_eq_some.mp resumed
    change Execution.Control.pending (Execution.Control.publish _) = _
    rw [Execution.Control.publish_pending]
    split
    · rfl
    · rw [Execution.Control.arm_pending]
  | detach handle announce =>
    right
    obtain ⟨control, changed, quiet⟩ := detach_quiet coherent.control handle announce
    rw [quiet.control]
    rcases changed with rfl | ⟨-, rfl⟩ <;> rfl
  | capture category bytes attribution =>
    exact .inr (congrArg _ (capture_quiet session category bytes attribution).control)
  | reconfigure change => exact .inr (congrArg _ (configure_quiet session change).control)
  | shutdown => exact .inl (shutdown_ended session).state
  | release stop ends | dismiss call rest ends => exact .inl ends

theorem Act.tells (act : Act session none next) (coherent : session.Coherent) :
    Tells session next [] := by
  have acts : Acts session [] next := .still act
  obtain ⟨sent, follows⟩ := acts.follows coherent
  refine ⟨by simp, fun live => (act.pending coherent).resolve_left live,
    ⟨sent, follows.outbox, stopsTold_unstopped follows.unstopped⟩, fun live ends => ?_,
    fun _ => rfl⟩
  exact live (acts.ended coherent ends)

theorem Acts.tells {taken : List Request} (acts : Acts session taken next) (none : taken = [])
    (coherent : session.Coherent) : Tells session next [] := by
  induction acts with
  | refl => exact .refl session
  | @tail middle next taken request acts act ih =>
    obtain ⟨rfl, untaken⟩ := List.append_eq_nil_iff.mp none
    obtain rfl : request = .none := Option.toList_eq_nil_iff.mp untaken
    exact (ih rfl).trans (act.tells (acts.coherent coherent))

/-- What the client is told of a call that goes on. -/
theorem proceed_told (coherent : (session.holding (call :: rest)).Coherent)
    (begun : session.debugger.control.state ≠ .initializing)
    (live : session.debugger.control.state ≠ .terminated) :
    ∃ sent, (session.proceed call).outbox = session.outbox ++ sent ∧
      ((session.proceed call).debugger.control = session.debugger.control → stopsTold sent = []) ∧
      ∀ reason, session.debugger.control.Enters call.thread reason
        (session.proceed call).debugger.control → session.Free call →
        stopsTold sent = if reason = .breakpoint then [] else [(call.thread, reason)] := by
  have advances : Advances (session.holding (call :: rest)) ((session.proceed call).holding rest) :=
    proceed_advances coherent.control begun live
  obtain ⟨sent, outbox, passes⟩ := advances.passes coherent
  refine ⟨sent, outbox, fun same => ?_, fun reason enters free => ?_⟩
  · have still : (session.proceed call).turn = session.turn := congrArg Execution.Control.turn same
    rcases passes with ⟨unmarked, -⟩ | ⟨thread, reason, -, program, client⟩
    · simp [stopsTold, unmarked]
    · have stays := program.symm.trans (still.symm.trans client)
      contradiction
  · have unheld := (coherent.alone (mem_holding session call rest) free).2
    have program : session.turn = .program := Execution.Control.turn_program live unheld
    have client : (session.proceed call).turn = .client call.thread reason :=
      Execution.Control.turn_stopped enters.state enters.stopper
    rcases passes with ⟨-, still⟩ | ⟨thread, cause, marked, -, turned⟩
    · have stays := program.symm.trans (still.symm.trans client)
      contradiction
    · obtain ⟨rfl, rfl⟩ := Turn.client.inj (turned.symm.trans client)
      simp only [stopsTold, marked, List.filterMap_cons, List.filterMap_nil]
      split <;> simp_all

theorem Tells.one {occurrence : Occurrence} (live : session.debugger.control.state ≠ .terminated)
    (due : occurrence.Due session.debugger.control.pending)
    (left : next.debugger.control.pending = occurrence.leaves session.debugger.control.pending)
    (told : ∃ sent, next.outbox = session.outbox ++ sent ∧
      stopsTold sent = occurrence.stop?.toList) : Tells session next [occurrence] := by
  refine ⟨fun before other after split => ?_, fun _ => left, ?_, fun _ => live,
    fun ends => absurd ends live⟩
  · obtain ⟨rfl, same⟩ : before = [] ∧ [occurrence] = other :: after := by
      cases before with
      | nil => exact ⟨rfl, split⟩
      | cons _ before => simp at split
    cases same
    exact due
  · obtain ⟨sent, outbox, same⟩ := told
    refine ⟨sent, outbox, ?_⟩
    rw [same, List.filterMap_cons]
    cases occurrence.stop? <;> rfl

theorem block_tells (session : Session) (call : Call) : Tells session (session.block call) [] := by
  have quiet : Quiet session (session.block call) :=
    quiet_silent rfl rfl rfl rfl rfl fun _ => rfl
  exact quiet.tells

theorem exception_tells {record : ExceptionRecord}
    (coherent : (session.holding (call :: rest)).Coherent)
    (begun : session.debugger.control.state ≠ .initializing)
    (live : session.debugger.control.state ≠ .terminated)
    (errand : call.errand = .exception record) :
    Tells session (session.proceed call) (session.going call) := by
  obtain ⟨sent, outbox, unstopped, stopped⟩ := proceed_told coherent begun live
  have proceeds : session.proceed call = session.beginStop call .exception (some record) := by
    simp only [proceed, errand]
  cases held : session.debugger.control.heldByOther call.thread with
  | true =>
    have blocked : session.debugger.control.beginStop call.thread .exception = none := by
      simp [Execution.Control.beginStop, live, held]
    have same : session.proceed call = session.block call := by
      rw [proceeds, beginStop, blocked]
    have occurs : session.going call = [] := by simp only [going, errand, blocked]
    rw [occurs, same]
    exact block_tells session call
  | false =>
    have enters := Execution.Control.beginStop_eq_true.mpr ⟨live, held,
      (rfl : session.debugger.control.enterStop call.thread .exception = _)⟩
    have free : session.Free call := Execution.Control.waitUntilRunnable_eq_true.mpr
      ⟨live, by simp [Execution.Control.blocks, begun, held]⟩
    have control : (session.proceed call).debugger.control =
        session.debugger.control.enterStop call.thread .exception := by
      rw [proceeds, beginStop_free live held]
      rfl
    have occurs : session.going call = [.raises call.thread] := by
      simp only [going, errand, enters]
    rw [occurs]
    refine .one live trivial ?_ ⟨sent, outbox, ?_⟩
    · rw [control]
      simp [Execution.Control.enterStop, Occurrence.leaves]
    · exact stopped .exception (control ▸ .own .exception) free

/-- What the gate says of a line holds afterwards, unless a breakpoint stops the line. -/
theorem line_control {line : Nat} {source : Source.Resolved} {control : Execution.Control}
    {gate : LineGate} (live : session.debugger.control.state ≠ .terminated)
    (errand : call.errand = .line line source)
    (gated : session.debugger.control.lineGate call.thread call.interpreter.depth source.skipped =
      some (control, gate)) :
    (session.proceed call).debugger.control = control ∨ gate = .breakpoints ∧
      (session.proceed call).debugger.control =
        session.debugger.control.enterStop call.thread .breakpoint := by
  rcases Execution.Control.lineGate_spec gated with ⟨ends, -⟩ | ⟨free, answers⟩
  · exact absurd ends live
  · have unheld : session.debugger.control.heldByOther call.thread = false :=
      (Bool.or_eq_false_iff.mp (Execution.Control.waitUntilRunnable_eq_true.mp free).2).2
    cases gate with
    | stop reason =>
      left
      simp only [proceed, errand, gated]
      rfl
    | suppressed =>
      left
      simp only [proceed, errand, gated, leave_line errand]
      rfl
    | breakpoints =>
      cases answers
      have proceeds : session.proceed call = session.visit call line source := by
        simp only [proceed, errand, gated]
        rfl
      obtain ⟨middle, looked, same | same⟩ := visit_spec live unheld errand
      · left
        rw [proceeds, same]
        exact looked.control
      · right
        rw [proceeds, same]
        exact ⟨rfl, rfl⟩
    | terminated => exact answers.elim

theorem line_tells {line : Nat} {source : Source.Resolved}
    (coherent : (session.holding (call :: rest)).Coherent)
    (begun : session.debugger.control.state ≠ .initializing)
    (live : session.debugger.control.state ≠ .terminated)
    (errand : call.errand = .line line source) :
    Tells session (session.proceed call) (session.going call) := by
  obtain ⟨sent, outbox, unstopped, stopped⟩ := proceed_told coherent begun live
  cases gated : session.debugger.control.lineGate call.thread call.interpreter.depth
      source.skipped with
  | none =>
    have same : session.proceed call = session.block call := by simp only [proceed, errand, gated]
    have occurs : session.going call = [] := by simp only [going, errand, gated]
    rw [occurs, same]
    exact block_tells session call
  | some passed =>
    obtain ⟨control, gate⟩ := passed
    rcases Execution.Control.lineGate_spec gated with ⟨ends, -⟩ | ⟨free, answers⟩
    · exact absurd ends live
    · obtain ⟨pending, due⟩ :=
        Execution.Control.passLine_due (Execution.Control.passLine_of_lineGate live gated)
      have occurs : session.going call = [.line call.thread line source gate] := by
        simp only [going, errand, gated]
        cases gate with
        | terminated => exact answers.elim
        | _ => rfl
      rw [occurs]
      rcases line_control live errand gated with after | ⟨rfl, after⟩
      · refine .one live due (after ▸ pending) ⟨sent, outbox, ?_⟩
        cases gate with
        | stop reason =>
          have cause : reason ≠ .breakpoint := by
            rintro rfl
            rcases answers.2 with asked | own
            · exact absurd (coherent.control.asked _ asked) (by simp)
            · contradiction
          rw [stopped reason (after ▸ answers.1) free, if_neg cause]
          rfl
        | suppressed | breakpoints =>
          cases answers
          exact unstopped after
        | terminated => exact answers.elim
      · cases answers
        refine .one live due ?_ ⟨sent, outbox, stopped .breakpoint (after ▸ .own _) free⟩
        rw [after]
        exact pending

/-- A call that goes on takes up what is pending if it is on a line outside of skipped files. -/
theorem proceed_tells (coherent : (session.holding (call :: rest)).Coherent)
    (begun : session.debugger.control.state ≠ .initializing)
    (live : session.debugger.control.state ≠ .terminated) :
    Tells session (session.proceed call) (session.going call) := by
  cases errand : call.errand with
  | exception record => exact exception_tells coherent begun live errand
  | line line source => exact line_tells coherent begun live errand

theorem goingAll_tells (calls : List Call) (coherent : (session.holding calls).Coherent)
    (begun : session.debugger.control.state ≠ .initializing)
    (live : session.debugger.control.state ≠ .terminated) :
    Tells session (calls.foldl proceed session) (session.goingAll calls) := by
  induction calls generalizing session with
  | nil => exact .refl session
  | cons call rest ih =>
    have gone : Advances (session.holding (call :: rest)) ((session.proceed call).holding rest) :=
      proceed_advances coherent.control begun live
    exact (proceed_tells coherent begun live).trans
      (ih (gone.coherent coherent) (gone.begun begun) (gone.live live))

theorem settle_tells (coherent : session.Coherent) (drained : session.debugger.queue = []) :
    Tells session session.settle session.settling := by
  by_cases ends : session.debugger.control.state = .terminated
  · have none : session.settling = [] := by
      rw [settling, if_pos ((isTerminated_iff coherent).mpr ends)]
    rw [none]
    exact (settle_over drained coherent ends).1.tells rfl coherent
  · have running : ¬session.isTerminated = true := (isTerminated_iff coherent).not.mpr ends
    unfold settle settling
    dsimp only
    rw [if_neg running, if_neg running]
    split
    · exact .refl session
    · rename_i released
      obtain ⟨unheld, begun⟩ := not_or.mp released
      have free : ∀ call ∈ session.blocked, session.Free call := by
        intro call _
        apply Execution.Control.waitUntilRunnable_eq_true.mpr
        simp_all [Execution.Control.blocks, Execution.Control.heldByOther]
      have woken := wakeAll_advances session.blocked (fun _ member => member) free
      have proceeds := @goingAll_tells { session.modifyDebugger (fun debugger =>
        session.blocked.foldl wake debugger) with blocked := [] } session.blocked
        (woken.coherent coherent) (woken.begun begun) (woken.live ends)
      obtain ⟨registry, same⟩ := wakeAll_spec session.blocked session.debugger
      have quiet : Quiet session { session.modifyDebugger (fun debugger =>
          session.blocked.foldl wake debugger) with blocked := [] } := by
        simp only [modifyDebugger, same]
        exact quiet_silent rfl rfl rfl rfl rfl fun _ => rfl
      exact quiet.tells.trans proceeds

theorem enter_tells (coherent : session.Coherent)
    (live : session.debugger.control.state ≠ .terminated)
    (idle : ∀ other ∈ session.calls, other.handle ≠ call.handle)
    (listed : (call.thread, call.handle) ∈ session.debugger.registry.roster) :
    Tells session (session.enter call) (session.entering call) := by
  have arrived : Advance session (session.block call) := .arrive call live idle listed
  have waits : call ∈ (session.block call).blocked := by simp [block]
  unfold enter
  split
  · rename_i held
    have quiet : Quiet session
        (session.modifyDebugger (·.modifyThread call.thread Thread.setSuspended)) :=
      quiet_silent rfl rfl rfl rfl rfl fun _ => rfl
    rw [entering, held]
    exact quiet.tells.trans (block_tells _ call)
  · rename_i ends
    simp [Execution.Control.waitUntilRunnable, live] at ends
  · rename_i free
    have woken : Advance (session.block call)
        ((session.modifyDebugger (wake · call)).holding [call]) := .wake call waits free
    obtain ⟨registry, same, _⟩ := wake_spec session.debugger call
    have quiet : Quiet session (session.modifyDebugger (wake · call)) := by
      simp only [modifyDebugger, same]
      exact quiet_silent rfl rfl rfl rfl rfl fun _ => rfl
    have coherentWoken := woken.coherent (arrived.coherent coherent)
    rw [entering, free]
    refine quiet.tells.trans (proceed_tells coherentWoken ?_ ?_)
    · rw [quiet.control]
      exact (Free.state free).2
    · rwa [quiet.control]

/-- A thread that is looked up is known or gets announced. -/
theorem findOrAttach_quiet (session : Session) (handle : Nat) :
    Quiet session (session.findOrAttach handle).1 := by
  unfold findOrAttach
  split
  · exact quiet_silent rfl rfl rfl rfl rfl fun _ => rfl
  · exact attach_quiet session handle

theorem finish_quiet (session : Session) (handle : Nat) (continues : Option Bool) :
    Quiet session (session.finish handle continues) :=
  quiet_silent rfl rfl rfl rfl rfl fun _ => rfl

/-- A line that is passed by at once leaves nothing pending behind. -/
theorem finish_tells (live : session.debugger.control.state ≠ .terminated)
    (unasked : session.debugger.control.pending = none) (handle thread line : Nat)
    (source : Source.Resolved) :
    Tells session (session.finish handle none)
      [.line thread line source (if source.skipped then .suppressed else .breakpoints)] := by
  refine .one live ?_ ?_ ⟨[], (List.append_nil _).symm, ?_⟩
  · cases skipped : source.skipped <;> simp [Occurrence.Due, skipped, unasked]
  · change session.debugger.control.pending = _
    rw [unasked, Occurrence.leaves, ite_self]
  · cases source.skipped <;> rfl

theorem hook_tells (coherent : session.Coherent) {handle : Nat}
    (idle : ∀ other ∈ session.calls, other.handle ≠ handle) (interpreter : Interpreter)
    (event : HookEvent) :
    Tells session (session.hook handle interpreter event)
      (session.hooking handle interpreter event) := by
  unfold hook hooking
  dsimp only
  split
  · exact (finish_quiet session handle none).tells
  · rename_i running
    have live : session.debugger.control.state ≠ .terminated := by
      intro ends
      have ended := coherent.control.terminated_iff.mpr ends
      exact running (by simpa [Execution.Control.isTerminated] using ended)
    obtain ⟨attached, calls, listed⟩ := findOrAttach_advances session handle
    have quiet := findOrAttach_quiet session handle
    generalize session.findOrAttach handle = known at attached calls listed quiet ⊢
    obtain ⟨attaching, thread⟩ := known
    have coherentNow := attached.coherent coherent
    have liveNow := attached.live live
    have framed : Tells attaching (attaching.finish handle none) [.frame thread.id] :=
      .one liveNow trivial rfl ⟨[], (List.append_nil _).symm, rfl⟩
    cases event with
    | call | return_ => exact quiet.tells.trans framed
    | line line =>
      dsimp only
      split
      · rename_i passes
        have free : attaching.debugger.control.quick = .running := by
          rw [quiet.control]
          exact of_decide_eq_true (Bool.and_eq_true_iff.mp passes).1
        have unasked := (coherentNow.control.idle free).2.2.1
        exact quiet.tells.trans (finish_tells liveNow unasked handle thread.id line _)
      · have found : Advances attaching (attaching.discover interpreter interpreter.chunk) :=
          .single (.aside (.discover interpreter interpreter.chunk))
        have discovered : Quiet attaching (attaching.discover interpreter interpreter.chunk) :=
          (Aside.discover interpreter interpreter.chunk).quiet
        have roster : (attaching.discover interpreter interpreter.chunk).debugger.registry =
            attaching.debugger.registry := by
          obtain ⟨sources, callbacks, news, _, same⟩ :=
            discover_spec attaching interpreter interpreter.chunk
          rw [same]
        exact quiet.tells.trans (discovered.tells.trans
          (enter_tells (found.coherent coherentNow) (found.live liveNow) (calls ▸ idle)
            (roster ▸ listed)))

theorem raising_tells (coherent : session.Coherent) {handle : Nat}
    (idle : ∀ other ∈ session.calls, other.handle ≠ handle) (interpreter : Interpreter)
    (record : ExceptionRecord) (live : session.debugger.control.state ≠ .terminated) :
    Tells session
      ((session.attach handle).1.enter {
        handle, thread := (session.attach handle).2.id, interpreter, errand := .exception record })
      (session.raising handle interpreter record) := by
  have attached : Advances session (session.attach handle).1 := .single (.attach handle)
  have listed := (Registry.attach_spec session.debugger.registry handle).1
  exact (attach_quiet session handle).tells.trans
    (enter_tells (attached.coherent coherent) (attached.live live) idle listed)

theorem exception_occurs (coherent : session.Coherent) {handle : Nat}
    (idle : ∀ other ∈ session.calls, other.handle ≠ handle) (interpreter : Interpreter)
    (kind : ExceptionKind) (message : String) :
    Tells session (session.exception handle interpreter kind message)
      (if session.isTerminated || !session.debugger.exceptionFilters.contains kind.filter then []
        else session.raising handle interpreter {
          kind := kind.filter
          message := session.debugger.mapping.exceptionMessage message
          fatal := false }) := by
  unfold exception
  split
  · exact (finish_quiet session handle (some false)).tells
  · rename_i armed
    refine raising_tells coherent idle interpreter _ fun ends => armed ?_
    simp [(isTerminated_iff coherent).mpr ends]

theorem panic_occurs (coherent : session.Coherent) {handle : Nat}
    (idle : ∀ other ∈ session.calls, other.handle ≠ handle) (interpreter : Interpreter)
    (message : String) :
    Tells session (session.panic handle interpreter message)
      (if session.isTerminated then []
        else session.raising handle interpreter {
          kind := "panic"
          message := session.debugger.mapping.exceptionMessage message
          fatal := true }) := by
  unfold panic
  split
  · exact (finish_quiet session handle none).tells
  · rename_i running
    exact raising_tells coherent idle interpreter _ fun ends =>
      running ((isTerminated_iff coherent).mpr ends)

theorem calling_tells (settled : session.Settled) {handle : Nat} {run : Session → Session}
    {first : List Occurrence}
    (advances : (∀ other ∈ session.calls, other.handle ≠ handle) → Advances session (run session))
    (tells : (∀ other ∈ session.calls, other.handle ≠ handle) → Tells session (run session) first) :
    Tells session (session.call handle run).1 (session.calling handle run first) := by
  unfold call calling
  split
  · exact .refl session
  · rename_i available
    have idle := idle_of_available available
    have after := (advances idle).settled settled
    exact (tells idle).trans (settle_tells after.coherent after.drained)

theorem hook_calling (settled : session.Settled) (handle : Nat) (interpreter : Interpreter)
    (event : HookEvent) :
    Tells session (session.call handle (·.hook handle interpreter event)).1
      (session.calling handle (·.hook handle interpreter event)
        (session.hooking handle interpreter event)) :=
  calling_tells settled (fun idle => hook_advances settled.coherent idle interpreter event)
    (fun idle => hook_tells settled.coherent idle interpreter event)

theorem lines_tell (settled : session.Settled) (handle : Nat) (places : List (Interpreter × Nat)) :
    Tells session (session.lines handle places).1 (session.lining handle places) := by
  induction places generalizing session with
  | nil => exact .refl session
  | cons place rest ih =>
    obtain ⟨interpreter, line⟩ := place
    have called := hook_calling settled handle interpreter (.line line)
    have after : (session.call handle (·.hook handle interpreter (.line line))).1.Settled :=
      (call_advances settled fun idle =>
        hook_advances settled.coherent idle interpreter (.line line)).settled settled
    unfold lines lining
    generalize session.call handle (·.hook handle interpreter (.line line)) = result
      at called after ⊢
    obtain ⟨later, state⟩ := result
    cases state with
    | done => exact called.trans (ih after)
    | stopped | blocked | busy => exact called

end Session
end DebugAdapter
