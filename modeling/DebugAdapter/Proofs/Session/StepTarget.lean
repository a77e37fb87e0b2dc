import DebugAdapter.Proofs.Session.FastPath
import DebugAdapter.Proofs.Session.Refusal

/-! A step ends on the first line of its thread that reaches its target, and nowhere else. Until
then its thread passes all breakpoints, and no other thread completes it. -/
namespace DebugAdapter.Session

variable {session next : Session} {call : Call} {target : Execution.StepTarget} {thread : Nat}

/-- A line that no step suppresses and no step stops: it is skipped, or its breakpoints are looked
at. -/
theorem proceed_elsewhere {line : Nat} {source : Source.Resolved}
    (errand : call.errand = .line line source)
    (gate : session.debugger.control.lineGate call.thread call.interpreter.depth source.skipped =
      some (session.debugger.control, if source.skipped then .suppressed else .breakpoints)) :
    session.proceed call =
      if source.skipped then session.finish call.handle none else session.visit call line source := by
  simp only [proceed, errand, gate, modifyDebugger]
  cases source.skipped with
  | true => exact leave_line errand
  | false => rfl

theorem proceed_reserves (reserves : session.debugger.control.Reserves thread)
    (live : session.debugger.control.state ≠ .terminated) (different : call.thread ≠ thread) :
    (session.proceed call).debugger.control.Reserves thread := by
  have stops (reason : Execution.StopReason) (cause : reason ≠ .step) (middle : Session)
      (exception : Option ExceptionRecord) :
      ((middle.modifyDebugger fun debugger => { debugger with
        control := session.debugger.control.enterStop call.thread reason }).stop call reason
          exception).debugger.control.Reserves thread :=
    reserves.enterStop call.thread cause
  cases errand : call.errand with
  | exception record =>
    simp only [proceed, errand]
    cases held : session.debugger.control.heldByOther call.thread with
    | true =>
      have waits : session.debugger.control.beginStop call.thread .exception = none := by
        simp [Execution.Control.beginStop, live, held]
      simp only [beginStop, waits]
      exact reserves
    | false =>
      rw [beginStop_free live held]
      exact stops .exception (by simp) session _
  | line line source =>
    cases blocked : session.debugger.control.blocks call.thread with
    | true =>
      have waits : session.debugger.control.lineGate call.thread call.interpreter.depth
          source.skipped = none := by
        simp [Execution.Control.lineGate, live, blocked]
      simp only [proceed, errand, waits]
      exact reserves
    | false =>
      have unheld : session.debugger.control.heldByOther call.thread = false :=
        (Bool.or_eq_false_iff.mp blocked).2
      have gate : session.debugger.control.lineGate call.thread call.interpreter.depth
          source.skipped = some (session.debugger.control,
            if source.skipped then .suppressed else .breakpoints) := by
        simp [Execution.Control.lineGate, live, blocked, reserves.passLine different]
      rw [proceed_elsewhere errand gate]
      split
      · exact reserves
      · obtain ⟨middle, looked, same | same⟩ := visit_spec live unheld errand
        · rw [same]
          change middle.debugger.control.Reserves thread
          rwa [looked.control]
        · rw [same]
          exact stops .breakpoint (by simp) middle none

theorem proceedAll_reserves (calls : List Call)
    (reserves : session.debugger.control.Reserves thread)
    (begun : session.debugger.control.state ≠ .initializing)
    (live : session.debugger.control.state ≠ .terminated)
    (others : ∀ call ∈ calls, call.thread ≠ thread) :
    (calls.foldl proceed session).debugger.control.Reserves thread := by
  induction calls generalizing session with
  | nil => exact reserves
  | cons call rest ih =>
    have goes : Goes session call (session.proceed call) := proceed_goes begun live
    exact ih (proceed_reserves reserves live (others call List.mem_cons_self))
      (goes.begun begun) (goes.live live)
      fun other member => others other (List.mem_cons_of_mem call member)

theorem settle_reserves (coherent : session.Coherent)
    (reserves : session.debugger.control.Reserves thread)
    (live : session.debugger.control.state ≠ .terminated)
    (others : ∀ call ∈ session.blocked, call.thread ≠ thread) :
    session.settle.debugger.control.Reserves thread := by
  have running : ¬session.isTerminated = true := (isTerminated_iff coherent).not.mpr live
  unfold settle
  dsimp only
  rw [if_neg running]
  split
  · exact reserves
  · rename_i released
    obtain ⟨_, begun⟩ := not_or.mp released
    obtain ⟨registry, woken⟩ := wakeAll_spec session.blocked session.debugger
    simp only [modifyDebugger, woken]
    exact proceedAll_reserves session.blocked reserves begun live others

/-- A step is under way, and nothing else is asked for. -/
structure Armed (session : Session) (target : Execution.StepTarget) : Prop where
  settled : session.Settled
  rested : session.Rested
  state : session.debugger.control.state = .stepping target.kind
  step : session.debugger.control.step = some target
  unasked : session.debugger.control.pending = none

namespace Armed

theorem free (armed : session.Armed target) : session.debugger.control.stopper = none :=
  armed.settled.coherent.control.stopper_none (by simp [armed.state])

theorem unstopped (armed : session.Armed target) : session.stopped = none := by
  have holder := armed.settled.coherent.holder (by simp [armed.state])
  rw [armed.free] at holder
  simpa using holder.symm

theorem unblocked (armed : session.Armed target) : session.blocked = [] := by
  by_contra waits
  rcases armed.rested.held waits with held | held
  · simp [armed.free] at held
  · simp [armed.state] at held

theorem unsuspended (armed : session.Armed target) :
    ∀ thread ∈ session.debugger.registry.threads, thread.phase ≠ .suspended := by
  intro thread member suspended
  obtain ⟨call, waits, _⟩ :=
    armed.rested.awake (by simp [armed.state]) armed.free thread member suspended
  simp [armed.unblocked] at waits

theorem reserves (armed : session.Armed target) :
    session.debugger.control.Reserves target.thread := by
  refine ⟨armed.unasked, fun other same => ?_, by simp [armed.state]⟩
  cases armed.step.symm.trans same
  rfl

theorem keep (armed : session.Armed target) (settled : next.Settled) (rested : next.Rested)
    (control : next.debugger.control = session.debugger.control) : next.Armed target :=
  ⟨settled, rested, by rw [control, armed.state], by rw [control, armed.step],
    by rw [control, armed.unasked]⟩

theorem runs (armed : session.Armed target) : session.Free call := by
  simp [Free, Execution.Control.waitUntilRunnable, Execution.Control.blocks,
    Execution.Control.heldByOther, armed.state, armed.free]

theorem waits_none (armed : session.Armed target) (call : Call) :
    (session.enter call).blocked = [] := by
  have goes : Goes session call (session.enter call) := by
    rw [enter_free armed.runs armed.unsuspended]
    exact proceed_goes (by simp [armed.state]) (by simp [armed.state])
  rw [goes.blocked (by simp [Execution.Control.heldByOther, armed.free]), armed.unblocked]

/-- What its own thread comes to on a line is the gate's decision alone. -/
theorem enter_own (armed : session.Armed target) {line : Nat} {source : Source.Resolved}
    (errand : call.errand = .line line source) (own : call.thread = target.thread) :
    session.enter call =
      if source.skipped = true ∨ target.kind.reached target.depth call.interpreter.depth = false then
        session.finish call.handle none
      else (session.modifyDebugger fun debugger => { debugger with
        control := debugger.control.enterStop call.thread .step }).stop call .step none := by
  have free : session.Free call := armed.runs
  obtain ⟨live, unblocked⟩ := Execution.Control.waitUntilRunnable_eq_true.mp free
  have gate : session.debugger.control.lineGate call.thread call.interpreter.depth source.skipped =
      some (session.debugger.control.passLine call.thread call.interpreter.depth source.skipped) := by
    simp [Execution.Control.lineGate, live, unblocked]
  have passes := Execution.Control.passLine_own armed.unasked armed.step call.interpreter.depth
    source.skipped
  rw [← own] at passes
  rw [enter_free free armed.unsuspended]
  split
  · rename_i misses
    rw [if_pos misses] at passes
    simp only [proceed, errand, gate, passes]
    exact leave_line errand
  · rename_i reaches
    rw [if_neg reaches] at passes
    simp only [proceed, errand, gate, passes]
    rfl

theorem live (armed : session.Armed target) : ¬session.isTerminated = true := by
  rw [isTerminated_iff armed.settled.coherent]
  simp [armed.state]

theorem available (armed : session.Armed target) (handle : Nat) :
    (session.isStoppedAt handle || session.isBlockedAt handle) = false := by
  simp [isStoppedAt, isBlockedAt, armed.unstopped, armed.unblocked]

end Armed

/-- The thread and the source of a line, and the session that knows them. -/
structure Place where
  session : Session
  thread : Nat
  source : Source.Resolved

def locate (session : Session) (handle : Nat) (interpreter : Interpreter) : Place :=
  let (attached, thread) := session.findOrAttach handle
  let (session, source) := attached.resolve interpreter
  { session, thread := thread.id, source }

def Place.arrival (place : Place) (handle : Nat) (interpreter : Interpreter) (line : Nat) : Call :=
  { handle, thread := place.thread, interpreter, errand := .line line place.source }

theorem attendLine_eq (session : Session) (handle : Nat) (interpreter : Interpreter) (line : Nat) :
    session.attendLine handle interpreter line = (session.locate handle interpreter).session.enter
      ((session.locate handle interpreter).arrival handle interpreter line) := rfl

/-- To locate a line, the text of its chunk is asked for at most, and the client hears of a new
thread and a new source at most. -/
structure Located (session next : Session) : Prop where
  stopped : next.stopped = session.stopped
  blocked : next.blocked = session.blocked
  control : next.debugger.control = session.debugger.control
  breakpoints : next.debugger.breakpoints = session.debugger.breakpoints
  asked : ∃ asked, next.callbacks = session.callbacks ++ asked ∧
    ∀ callback ∈ asked, ∃ chunk, callback = .chunkCode chunk
  told : ∃ told, next.outbox = session.outbox ++ told ∧ ∀ message ∈ told,
    (∃ id, message = .event (.thread .started id)) ∨
      ∃ source, message = .event (.loadedSource .new source)

theorem Located.trans {middle : Session} (first : Located session middle)
    (last : Located middle next) : Located session next := by
  obtain ⟨asked, questions, texts⟩ := first.asked
  obtain ⟨more, questionsAfter, textsAfter⟩ := last.asked
  obtain ⟨told, outbox, news⟩ := first.told
  obtain ⟨later, outboxAfter, newsAfter⟩ := last.told
  refine ⟨last.stopped.trans first.stopped, last.blocked.trans first.blocked,
    last.control.trans first.control, last.breakpoints.trans first.breakpoints,
    ⟨asked ++ more, by rw [questionsAfter, questions, List.append_assoc], ?_⟩,
    told ++ later, by rw [outboxAfter, outbox, List.append_assoc], ?_⟩
  · exact fun callback member =>
      (List.mem_append.mp member).elim (texts callback) (textsAfter callback)
  · exact fun message member =>
      (List.mem_append.mp member).elim (news message) (newsAfter message)

theorem findOrAttach_located (session : Session) (handle : Nat) :
    Located session (session.findOrAttach handle).1 := by
  unfold findOrAttach
  split
  · exact ⟨rfl, rfl, rfl, rfl, ⟨[], (List.append_nil _).symm, by simp⟩, [],
      (List.append_nil _).symm, by simp⟩
  · let events := (session.debugger.attach handle).2.2
    have started : ∀ event ∈ events, ∃ id, event = .thread .started id := by
      intro event member
      simp only [events, Debugger.attach] at member
      split at member
      · exact ⟨_, List.mem_singleton.mp member⟩
      · contradiction
    refine ⟨rfl, rfl, rfl, rfl, ⟨[], (List.append_nil _).symm, by simp⟩, events.map .event, rfl, ?_⟩
    intro message member
    obtain ⟨event, inside, rfl⟩ := List.mem_map.mp member
    obtain ⟨id, rfl⟩ := started event inside
    exact Or.inl ⟨id, rfl⟩

theorem resolve_located (session : Session) (interpreter : Interpreter) :
    Located session (session.resolve interpreter).1 := by
  cases known : session.debugger.sources.find? interpreter.chunk with
  | some source =>
    rw [resolve_known known]
    exact ⟨rfl, rfl, rfl, rfl, ⟨[], (List.append_nil _).symm, by simp⟩, [],
      (List.append_nil _).symm, by simp⟩
  | none =>
    simp only [resolve, Debugger.resolve, known]
    refine ⟨rfl, rfl, rfl, rfl, ⟨_, rfl, ?_⟩, _, rfl, ?_⟩
    · intro callback member
      unfold Debugger.originOf at member
      split at member
      · contradiction
      · dsimp only at member
        split at member
        · contradiction
        · exact ⟨_, List.mem_singleton.mp member⟩
    · intro message member
      obtain ⟨event, inside, rfl⟩ := List.mem_map.mp member
      split at inside
      · obtain rfl := List.mem_singleton.mp inside
        exact Or.inr ⟨_, rfl⟩
      · contradiction

theorem locate_located (session : Session) (handle : Nat) (interpreter : Interpreter) :
    Located session (session.locate handle interpreter).session :=
  (findOrAttach_located session handle).trans (resolve_located _ interpreter)

theorem locate_rests (settled : session.Settled) (rested : session.Rested) (handle : Nat)
    (interpreter : Interpreter) :
    (session.locate handle interpreter).session.Settled ∧
      (session.locate handle interpreter).session.Rested := by
  obtain ⟨attaching, _, _⟩ := findOrAttach_advances session handle
  have attached := attaching.settled settled
  have found : Advances (session.findOrAttach handle).1 (session.locate handle interpreter).session :=
    .single (.aside (.discover interpreter interpreter.chunk))
  exact ⟨found.settled attached,
    origin_rested (findOrAttach_rested rested handle).1 (some (interpreter, 0))⟩

theorem Armed.locate (armed : session.Armed target) (handle : Nat) (interpreter : Interpreter) :
    (session.locate handle interpreter).session.Armed target := by
  obtain ⟨settled, rested⟩ := locate_rests armed.settled armed.rested handle interpreter
  exact armed.keep settled rested (locate_located session handle interpreter).control

/-- A line while a step is under way returns or stops at once, and nothing else goes on. -/
theorem Armed.perform_hook (armed : session.Armed target) (handle : Nat) (interpreter : Interpreter)
    (line : Nat) :
    let place := session.locate handle interpreter
    let entered := place.session.enter (place.arrival handle interpreter line)
    session.perform (.hook handle interpreter (.line line)) =
      (entered, .call (entered.callState handle)) := by
  intro place entered
  have attends := hook_attends armed.settled.coherent.control armed.rested (by simp [armed.state])
    handle interpreter line
  rw [attendLine_eq] at attends
  have idle := idle_of_available (Bool.not_eq_true _ ▸ armed.available handle)
  have advances := hook_advances armed.settled.coherent idle interpreter (.line line)
  rw [attends] at advances
  have still : entered.settle = entered := by
    refine settle_unblocked ?_ ((armed.locate handle interpreter).waits_none _)
    rw [isTerminated_iff (advances.coherent armed.settled.coherent)]
    exact advances.live (by simp [armed.state])
  simp only [perform, Session.call, armed.available, Bool.false_eq_true, if_false, attends]
  change (entered.settle, StepResult.call (entered.settle.callState handle)) = _
  rw [still]

/-- A line of the thread in a skipped file, or at a depth that does not reach the target. -/
theorem Armed.misses (armed : session.Armed target) {handle line : Nat} {interpreter : Interpreter}
    (own : (session.locate handle interpreter).thread = target.thread)
    (misses : (session.locate handle interpreter).source.skipped = true ∨
      target.kind.reached target.depth interpreter.depth = false) :
    session.perform (.hook handle interpreter (.line line)) =
      ((session.locate handle interpreter).session.finish handle none, .call .done) := by
  have located := armed.locate handle interpreter
  let call := (session.locate handle interpreter).arrival handle interpreter line
  have left : (session.locate handle interpreter).session.enter call =
      (session.locate handle interpreter).session.finish handle none :=
    (located.enter_own rfl own).trans (if_pos misses)
  refine (armed.perform_hook handle interpreter line).trans ?_
  rw [left]
  simp [ callState, isStoppedAt, isBlockedAt, finish, located.unstopped, located.unblocked]

theorem Armed.reaches (armed : session.Armed target) {handle line : Nat} {interpreter : Interpreter}
    (own : (session.locate handle interpreter).thread = target.thread)
    (reaches : ¬((session.locate handle interpreter).source.skipped = true ∨
      target.kind.reached target.depth interpreter.depth = false)) :
    let outcome := session.perform (.hook handle interpreter (.line line))
    outcome.2 = .call .stopped ∧ outcome.1.debugger.control.state = .stopped .step ∧
      outcome.1.debugger.control.stopper = some target.thread ∧
      ∃ told, outcome.1.outbox = session.outbox ++ told ++
        [.event (.stopped target.thread .step none)] := by
  have located := armed.locate handle interpreter
  have performs := armed.perform_hook handle interpreter line
  dsimp only at performs ⊢
  obtain ⟨told, outbox, _⟩ := (locate_located session handle interpreter).told
  generalize session.locate handle interpreter = place at own reaches located performs outbox
  let entered := place.session.modifyDebugger fun debugger => { debugger with
    control := debugger.control.enterStop place.thread .step }
  have enters : place.session.enter (place.arrival handle interpreter line) =
      entered.stop (place.arrival handle interpreter line) .step none :=
    (located.enter_own rfl own).trans (if_neg reaches)
  obtain ⟨registry, output, news, _, _, _, stops⟩ :=
    stop_spec entered (place.arrival handle interpreter line) .step none
  rw [stops] at enters
  rw [performs, enters, ← own]
  refine ⟨by simp [callState, isStoppedAt, Place.arrival], rfl, rfl, told ++ news, ?_⟩
  rw [← List.append_assoc, ← outbox]
  rfl

theorem Armed.elsewhere (armed : session.Armed target) {handle : Nat} {interpreter : Interpreter}
    (other : (session.locate handle interpreter).thread ≠ target.thread) (line : Nat) :
    (session.perform (.hook handle interpreter (.line line))).1.debugger.control.state ≠
      .stopped .step := by
  have located := armed.locate handle interpreter
  have performs := armed.perform_hook handle interpreter line
  dsimp only at performs
  rw [performs, enter_free located.runs located.unsuspended]
  exact (proceed_reserves located.reserves (by simp [located.state]) other).incomplete

end DebugAdapter.Session
