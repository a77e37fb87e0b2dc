import DebugAdapter.Proofs.Session.Advancing

/-! The calls that the interpreter makes are moves of its threads, and so is what they let go on. -/
namespace DebugAdapter.Session

/-- A session between two steps: nothing is queued, and once it is over, no call is left. -/
structure Settled (session : Session) : Prop where
  coherent : session.Coherent
  drained : session.debugger.queue = []
  ends : session.debugger.control.state = .terminated →
    session.stopped = none ∧ session.blocked = []

theorem settled_new : ({} : Session).Settled :=
  ⟨coherent_new, rfl, fun _ => ⟨rfl, rfl⟩⟩

variable {session next : Session} {call : Call}

theorem isTerminated_iff (coherent : session.Coherent) :
    session.isTerminated = true ↔ session.debugger.control.state = .terminated :=
  coherent.control.terminated_iff

/-- All that the program comes to by itself is a stop. -/
theorem Advances.unmoved (advances : Advances session next) :
    next.debugger.control = session.debugger.control ∨
      ∃ reason, next.debugger.control.state = .stopped reason := by
  induction advances with
  | refl => exact Or.inl rfl
  | tail _ last ih =>
    rcases last.effect with quiet | ⟨_, reason, _, _, _, _, enters, _⟩
    · rwa [quiet.control]
    · exact Or.inr ⟨reason, enters.state⟩

theorem Advances.live (advances : Advances session next)
    (live : session.debugger.control.state ≠ .terminated) :
    next.debugger.control.state ≠ .terminated := by
  rcases advances.unmoved with same | ⟨reason, stopped⟩
  · rwa [same]
  · simp [stopped]

theorem Advances.begun (advances : Advances session next)
    (begun : session.debugger.control.state ≠ .initializing) :
    next.debugger.control.state ≠ .initializing := by
  rcases advances.unmoved with same | ⟨reason, stopped⟩
  · rwa [same]
  · simp [stopped]

theorem Advance.queue (advance : Advance session next) :
    next.debugger.queue = session.debugger.queue := by
  rcases advance.effect with quiet | ⟨_, _, _, _, _, _, _, _, _, queue, _⟩
  · exact quiet.queue
  · exact queue

theorem Advances.queue (advances : Advances session next) :
    next.debugger.queue = session.debugger.queue := by
  induction advances with
  | refl => rfl
  | tail _ last ih => rw [last.queue, ih]

theorem findOrAttach_advances (session : Session) (handle : Nat) :
    Advances session (session.findOrAttach handle).1 ∧
      (session.findOrAttach handle).1.calls = session.calls ∧
      ((session.findOrAttach handle).2.id, handle) ∈
        (session.findOrAttach handle).1.debugger.registry.roster := by
  unfold findOrAttach
  split
  · rename_i thread found
    obtain ⟨member, owner⟩ := Registry.findByHandle_spec found
    exact ⟨.refl, rfl, owner ▸ Registry.mem_roster member⟩
  · exact ⟨.single (.attach handle), rfl,
      (Registry.attach_spec session.debugger.registry handle).1⟩

theorem enter_advances (valid : session.debugger.control.Valid)
    (live : session.debugger.control.state ≠ .terminated)
    (idle : ∀ other ∈ session.calls, other.handle ≠ call.handle)
    (listed : (call.thread, call.handle) ∈ session.debugger.registry.roster) :
    Advances session (session.enter call) := by
  have arrived : Advance session (session.block call) := .arrive call live idle listed
  have waits : call ∈ (session.block call).blocked := by simp [block]
  unfold enter
  split
  · rename_i held
    exact (Relation.ReflTransGen.single arrived).tail (.suspend call waits held)
  · rename_i ends
    simp [Execution.Control.waitUntilRunnable, live] at ends
  · rename_i free
    have woken : Advance (session.block call)
        ((session.modifyDebugger (wake · call)).holding [call]) := .wake call waits free
    obtain ⟨registry, same, _⟩ := wake_spec session.debugger call
    have begun := (Free.state free).2
    have proceeds : Advances ((session.modifyDebugger (wake · call)).holding [call])
        (((session.modifyDebugger (wake · call)).proceed call).holding []) := by
      apply proceed_advances
      all_goals simpa only [modifyDebugger, same]
    rw [holding_nil] at proceeds
    exact ((Relation.ReflTransGen.single arrived).tail woken).trans proceeds

theorem visitLine_advances (coherent : session.Coherent) {handle thread : Nat}
    (interpreter : Interpreter) (line : Nat)
    (live : session.debugger.control.state ≠ .terminated)
    (idle : ∀ other ∈ session.calls, other.handle ≠ handle)
    (listed : (thread, handle) ∈ session.debugger.registry.roster) :
    Advances session (session.visitLine handle thread interpreter line) := by
  have found : Advances session (session.discover interpreter interpreter.chunk) :=
    .single (.aside (.discover interpreter interpreter.chunk))
  have roster : (session.discover interpreter interpreter.chunk).debugger.registry =
      session.debugger.registry := by
    obtain ⟨sources, callbacks, news, _, same⟩ :=
      discover_spec session interpreter interpreter.chunk
    rw [same]
  have entered : Advances (session.discover interpreter interpreter.chunk)
      (session.visitLine handle thread interpreter line) :=
    enter_advances (found.coherent coherent).control (found.live live) idle (roster ▸ listed)
  exact found.trans entered

theorem hook_advances (coherent : session.Coherent) {handle : Nat}
    (idle : ∀ other ∈ session.calls, other.handle ≠ handle) (interpreter : Interpreter)
    (event : HookEvent) : Advances session (session.hook handle interpreter event) := by
  unfold hook
  dsimp only
  split
  · exact .single (.aside (.finish handle none))
  · rename_i running
    have live : session.debugger.control.state ≠ .terminated := by
      intro ends
      have ended := coherent.control.terminated_iff.mpr ends
      exact running (by simpa [Execution.Control.isTerminated] using ended)
    obtain ⟨attached, calls, listed⟩ := findOrAttach_advances session handle
    generalize session.findOrAttach handle = known at attached calls listed ⊢
    obtain ⟨attaching, thread⟩ := known
    have returned : Advances session (attaching.finish handle none) :=
      attached.tail (.aside (.finish handle none))
    cases event with
    | call | return_ => exact returned
    | line line =>
      dsimp only
      split
      · exact returned
      · exact attached.trans (visitLine_advances (attached.coherent coherent) interpreter line
          (attached.live live) (calls ▸ idle) listed)

theorem raise_advances (coherent : session.Coherent) {handle : Nat}
    (idle : ∀ other ∈ session.calls, other.handle ≠ handle) (interpreter : Interpreter)
    (record : ExceptionRecord) (live : session.debugger.control.state ≠ .terminated) :
    Advances session ((session.attach handle).1.enter
      { handle, thread := (session.attach handle).2.id, interpreter, errand := .exception record }) := by
  have attached : Advances session (session.attach handle).1 := .single (.attach handle)
  have listed := (Registry.attach_spec session.debugger.registry handle).1
  exact attached.trans (enter_advances (attached.coherent coherent).control (attached.live live)
    idle listed)

theorem exception_advances (coherent : session.Coherent) {handle : Nat}
    (idle : ∀ other ∈ session.calls, other.handle ≠ handle) (interpreter : Interpreter)
    (kind : ExceptionKind) (message : String) :
    Advances session (session.exception handle interpreter kind message) := by
  unfold exception
  split
  · exact .single (.aside (.finish handle (some false)))
  · rename_i armed
    refine raise_advances coherent idle interpreter _ fun ends => armed ?_
    simp [(isTerminated_iff coherent).mpr ends]

theorem panic_advances (coherent : session.Coherent) {handle : Nat}
    (idle : ∀ other ∈ session.calls, other.handle ≠ handle) (interpreter : Interpreter)
    (message : String) : Advances session (session.panic handle interpreter message) := by
  unfold panic
  split
  · exact .single (.aside (.finish handle none))
  · rename_i running
    exact raise_advances coherent idle interpreter _ fun ends =>
      running ((isTerminated_iff coherent).mpr ends)

theorem wakeAll_advances (calls : List Call) (waits : ∀ call ∈ calls, call ∈ session.blocked)
    (free : ∀ call ∈ calls, session.Free call) :
    Advances session (session.modifyDebugger fun debugger => calls.foldl wake debugger) := by
  induction calls generalizing session with
  | nil => exact .refl
  | cons call rest ih =>
    have woken : Advance session (session.modifyDebugger (wake · call)) :=
      .wake call (waits call List.mem_cons_self) (free call List.mem_cons_self)
    obtain ⟨registry, same, _⟩ := wake_spec session.debugger call
    have later : ∀ other ∈ rest, (session.modifyDebugger (wake · call)).Free other := by
      intro other member
      simpa only [Free, modifyDebugger, same] using free other (List.mem_cons_of_mem call member)
    exact .head woken (ih (fun other member => waits other (List.mem_cons_of_mem call member)) later)

theorem proceedAll_advances (calls : List Call)
    (coherent : (session.holding calls).Coherent)
    (begun : session.debugger.control.state ≠ .initializing)
    (live : session.debugger.control.state ≠ .terminated) :
    Advances (session.holding calls) (calls.foldl proceed session) := by
  induction calls generalizing session with
  | nil =>
    rw [holding_nil]
    exact .refl
  | cons call rest ih =>
    have gone : Advances (session.holding (call :: rest)) ((session.proceed call).holding rest) :=
      proceed_advances coherent.control begun live
    exact gone.trans (ih (gone.coherent coherent) (gone.begun begun) (gone.live live))

/-- While a thread is stopped or the program is held back, no call goes on. -/
theorem settle_held (running : ¬session.isTerminated = true)
    (held : session.debugger.control.stopper.isSome ∨
      session.debugger.control.state = .initializing) : session.settle = session := by
  simp only [settle, if_neg running, held, if_true]

/-- Once a session is over and every call has returned, there is nothing to settle. -/
theorem Settled.settle_eq (settled : session.Settled)
    (ends : session.debugger.control.state = .terminated) : session.settle = session := by
  have ended := (isTerminated_iff settled.coherent).mpr ends
  obtain ⟨unstopped, empty⟩ := settled.ends ends
  obtain ⟨debugger, outbox, callbacks, finished, stopped, blocked⟩ := session
  cases unstopped
  cases empty
  simp only [settle, ended, if_true, List.foldl_nil]

theorem settle_advances (settled : session.Settled) : Advances session session.settle := by
  by_cases live : session.debugger.control.state = .terminated
  · rw [settled.settle_eq live]
  · have running : ¬session.isTerminated = true := (isTerminated_iff settled.coherent).not.mpr live
    unfold settle
    dsimp only
    rw [if_neg running]
    split
    · exact .refl
    · rename_i released
      obtain ⟨unheld, begun⟩ := not_or.mp released
      have free : ∀ call ∈ session.blocked, session.Free call := by
        intro call _
        apply Execution.Control.waitUntilRunnable_eq_true.mpr
        simp_all [Execution.Control.blocks, Execution.Control.heldByOther]
      have woken := wakeAll_advances session.blocked (fun _ member => member) free
      have proceeds := @proceedAll_advances { session.modifyDebugger (fun debugger =>
        session.blocked.foldl wake debugger) with blocked := [] } session.blocked
      refine woken.trans (proceeds (woken.coherent settled.coherent) ?_ ?_)
      · exact woken.begun begun
      · exact woken.live live

theorem Advances.settled (advances : Advances session next) (settled : session.Settled) :
    next.Settled := by
  induction advances with
  | refl => exact settled
  | @tail middle next _ last ih =>
    refine ⟨last.coherent ih.coherent, last.queue.trans ih.drained, fun ends => ?_⟩
    have ended : middle.debugger.control.state = .terminated := by
      by_contra live
      exact Advances.live (.single last) live ends
    obtain ⟨unstopped, empty⟩ := ih.ends ended
    cases last with
    | aside aside =>
      cases aside with
      | note | finish | discover => exact ⟨unstopped, empty⟩
    | attach => exact ⟨unstopped, empty⟩
    | arrive call live => exact absurd ended live
    | suspend call waits | wake call waits | say call _ waits | hit call _ _ waits =>
      simp [empty] at waits
    | leave call before after waits | stop call before after _ _ _ waits => simp [empty] at waits

theorem idle_of_available {handle : Nat}
    (available : ¬(session.isStoppedAt handle || session.isBlockedAt handle) = true) :
    ∀ other ∈ session.calls, other.handle ≠ handle := by
  simp only [Bool.or_eq_true, not_or, Bool.not_eq_true] at available
  obtain ⟨unstopped, unblocked⟩ := available
  intro other member same
  rcases List.mem_append.mp member with stopped | blocked
  · obtain ⟨stop, held, rfl⟩ := by simpa using stopped
    simp [isStoppedAt, held, same] at unstopped
  · simp only [isBlockedAt, List.any_eq_false] at unblocked
    exact unblocked other blocked (by simpa using same)

theorem call_advances (settled : session.Settled) {handle : Nat} {run : Session → Session}
    (advances : (∀ other ∈ session.calls, other.handle ≠ handle) → Advances session (run session)) :
    Advances session (session.call handle run).1 := by
  unfold call
  split
  · exact .refl
  · rename_i available
    have ran := advances (idle_of_available available)
    exact ran.trans (settle_advances (ran.settled settled))

def LineCall (handle : Nat) (session next : Session) : Prop :=
  ∃ interpreter line, next = (session.call handle (·.hook handle interpreter (.line line))).1

theorem lines_calls (session : Session) (handle : Nat) (places : List (Interpreter × Nat)) :
    Relation.ReflTransGen (LineCall handle) session (session.lines handle places).1 := by
  induction places generalizing session with
  | nil => exact .refl
  | cons place rest ih =>
    obtain ⟨interpreter, line⟩ := place
    have called : LineCall handle session
        (session.call handle (·.hook handle interpreter (.line line))).1 := ⟨interpreter, line, rfl⟩
    unfold lines
    generalize session.call handle (·.hook handle interpreter (.line line)) = result at called ⊢
    obtain ⟨later, state⟩ := result
    cases state with
    | done => exact .head called (ih later)
    | stopped | blocked | busy => exact .single called

theorem lineCalls_advances {handle : Nat}
    (calls : Relation.ReflTransGen (LineCall handle) session next) (settled : session.Settled) :
    Advances session next := by
  induction calls with
  | refl => exact .refl
  | tail _ last ih =>
    obtain ⟨interpreter, line, rfl⟩ := last
    have after := ih.settled settled
    exact ih.trans (call_advances after fun idle =>
      hook_advances after.coherent idle interpreter (.line line))

theorem lines_advances (settled : session.Settled) (handle : Nat)
    (places : List (Interpreter × Nat)) : Advances session (session.lines handle places).1 :=
  lineCalls_advances (lines_calls session handle places) settled

end DebugAdapter.Session
