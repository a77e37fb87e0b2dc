import DebugAdapter.Proofs.Session.Alternation
import DebugAdapter.Proofs.Session.Going

/-! Between two steps nothing is left to go on. Calls wait only behind a thread that is stopped, or
until the program is released, and nobody is suspended without a reason. -/
namespace DebugAdapter.Session

/-- While nobody is stopped, whoever is suspended is inside of a call that waits. -/
def Awake (session : Session) : Prop :=
  session.debugger.control.state ≠ .terminated → session.debugger.control.stopper = none →
    ∀ thread ∈ session.debugger.registry.threads, thread.phase = .suspended →
      ∃ call ∈ session.blocked, call.thread = thread.id

structure Rested (session : Session) : Prop where
  awake : session.Awake
  held : session.blocked ≠ [] →
    session.debugger.control.stopper.isSome ∨ session.debugger.control.state = .initializing

variable {session middle next : Session} {call : Call} {thread : Thread}

theorem rested_new : ({} : Session).Rested :=
  ⟨fun _ _ _ member => absurd member List.not_mem_nil, fun waits => absurd rfl waits⟩

theorem setRunning_phase (stepping : Bool) (thread : Thread) :
    (thread.setRunning stepping).phase ≠ .suspended := by
  cases stepping <;> simp [Thread.setRunning]

/-- Waking suspends nobody, and wakes the thread of a line. -/
theorem wake_suspended {debugger : Debugger}
    (member : thread ∈ (wake debugger call).registry.threads)
    (suspended : thread.phase = .suspended) :
    thread ∈ debugger.registry.threads ∧
      ((∃ line source, call.errand = .line line source) → call.thread ≠ thread.id) := by
  unfold wake at member
  split at member
  · rename_i record errand
    exact ⟨member, by simp [errand]⟩
  · obtain ⟨other, inside, rfl⟩ := Registry.of_mem_modify member fun _ => by split <;> rfl
    split at suspended
    · split at suspended
      · exact absurd suspended (setRunning_phase false other)
      · contradiction
    · rename_i different
      rw [if_neg different]
      exact ⟨inside, fun _ same => different same.symm⟩

theorem wakeAll_suspended (calls : List Call) {debugger : Debugger}
    (member : thread ∈ (calls.foldl wake debugger).registry.threads)
    (suspended : thread.phase = .suspended) :
    thread ∈ debugger.registry.threads ∧ ∀ call ∈ calls,
      (∃ line source, call.errand = .line line source) → call.thread ≠ thread.id := by
  induction calls generalizing debugger with
  | nil => exact ⟨member, by simp⟩
  | cons call rest ih =>
    obtain ⟨inside, others⟩ := ih member
    obtain ⟨before, own⟩ := wake_suspended inside suspended
    exact ⟨before, List.forall_mem_cons.mpr ⟨own, others⟩⟩

/-- A thread that is let go wakes all others. -/
theorem runThreads_running (debugger : Debugger) (id : Nat)
    (member : thread ∈ (runThreads debugger id).registry.threads) : thread.phase ≠ .suspended := by
  obtain ⟨other, _, rfl⟩ := Registry.of_mem_update member fun _ => rfl
  exact setRunning_phase _ other

/-- Fewer threads that are as they were, and no fewer calls. -/
theorem Awake.keep (awake : session.Awake)
    (live : next.debugger.control.state ≠ .terminated →
      session.debugger.control.state ≠ .terminated)
    (free : next.debugger.control.stopper = none → session.debugger.control.stopper = none)
    (threads : ∀ thread ∈ next.debugger.registry.threads, thread.phase = .suspended →
      thread ∈ session.debugger.registry.threads)
    (blocked : ∀ call ∈ session.blocked, call ∈ next.blocked) : next.Awake := by
  intro running unheld thread member suspended
  obtain ⟨call, waits, same⟩ :=
    awake (live running) (free unheld) thread (threads thread member suspended) suspended
  exact ⟨call, blocked call waits, same⟩

theorem Awake.frame (awake : session.Awake)
    (control : next.debugger.control = session.debugger.control)
    (registry : next.debugger.registry = session.debugger.registry)
    (blocked : next.blocked = session.blocked) : next.Awake := by
  refine awake.keep ?_ ?_ ?_ ?_
  · rw [control]; exact id
  · rw [control]; exact id
  · rw [registry]; exact fun _ member _ => member
  · rw [blocked]; exact fun _ member => member

theorem Aside.awake (aside : Aside session next) (awake : session.Awake) : next.Awake := by
  cases aside with
  | note | finish => exact awake.frame rfl rfl rfl
  | discover interpreter chunk =>
    obtain ⟨sources, callbacks, news, _, same⟩ := discover_spec session interpreter chunk
    rw [same]
    exact awake.frame rfl rfl rfl

theorem Awake.attach (awake : session.Awake) (handle : Nat) : (session.attach handle).1.Awake := by
  refine awake.keep id id ?_ fun _ member => member
  intro thread member suspended
  change thread ∈ (session.debugger.registry.attach handle).1.threads at member
  cases known : session.debugger.registry.findByHandle? handle with
  | some own => rwa [Registry.attach_known known] at member
  | none =>
    rw [(Registry.attach_unknown known).2.1] at member
    rcases List.mem_append.mp member with old | newest
    · exact old
    · obtain rfl := List.mem_singleton.mp newest
      contradiction

/-- A pause and a release leave the threads as they are. -/
theorem Awake.control (awake : session.Awake) {control : Execution.Control}
    (changed : control = session.debugger.control ∨
      session.debugger.control.requestPause = some control ∨
      session.debugger.control.configurationDone session.debugger.stopOnEntry = some control) :
    (session.modifyDebugger fun debugger => { debugger with control }).Awake := by
  rcases changed with rfl | paused | done
  · exact awake
  · obtain ⟨state, stopper⟩ := Execution.Control.requestPause_keeps paused
    exact awake.keep (fun live => state ▸ live) (fun free => stopper ▸ free)
      (fun _ member _ => member) fun _ member => member
  · obtain ⟨initializing, rfl⟩ := Execution.Control.configurationDone_eq_some.mp done
    exact awake.keep (fun _ => by simp [initializing]) id (fun _ member _ => member)
      fun _ member => member

theorem Awake.ended (ends : next.debugger.control.state = .terminated) : next.Awake :=
  fun live => absurd ends live

theorem Awake.release (awake : session.Awake) :
    (session.modifyDebugger (·.releaseIfReady)).Awake := by
  obtain ⟨control, same, changed⟩ := Debugger.releaseIfReady_spec session.debugger
  have granted : control = session.debugger.control ∨
      session.debugger.control.requestPause = some control ∨
      session.debugger.control.configurationDone session.debugger.stopOnEntry = some control :=
    changed.imp_right fun ⟨_, _, done⟩ => Or.inr done
  simp only [modifyDebugger, same]
  exact awake.control granted

theorem detach_threads (session : Session) (handle : Nat) (announce : Bool) :
    ∀ thread ∈ (session.detach handle announce).1.debugger.registry.threads,
      thread ∈ session.debugger.registry.threads := by
  intro thread member
  cases detached : session.debugger.detach handle announce with
  | none => simpa only [Session.detach, detached] using member
  | some result =>
    obtain ⟨debugger, events⟩ := result
    obtain ⟨⟨registry, gone, left, rfl⟩, _⟩ := Debugger.detach_spec detached
    obtain ⟨-, fewer, -⟩ := Registry.detach_eq_some left
    simp only [Session.detach, detached, emit, send, fewer] at member
    exact (List.mem_filter.mp member).1

theorem Act.awake {request : Option Request} (act : Act session request next)
    (coherent : session.Coherent) (awake : session.Awake) : next.Awake := by
  cases act with
  | aside aside => exact aside.awake awake
  | refuse | evaluate | defer | decline | reply => exact awake.frame rfl rfl rfl
  | adjust taken command change _ _ adjusts _ carried =>
    obtain ⟨_, _, control, _, _, _, _, _, same, asked, _⟩ :=
      Debugger.carryOut_adjusts carried adjusts
    refine (awake.control (asked.imp_right fun paused => Or.inl paused.2)).frame ?_ ?_ rfl
    all_goals simp only [apply, emit, send, answer, same, modifyDebugger]
  | start taken command change _ _ _ _ started =>
    obtain ⟨_, config, events, _, _, _, _, _, same⟩ := Debugger.start_spec started
    refine Awake.release (awake.frame ?_ ?_ rfl)
    all_goals simp only [apply, emit, send, answer, same, Debugger.reconfigure]
  | configure taken change _ _ _ done =>
    obtain ⟨_, same⟩ := Debugger.configurationDone_spec done
    refine Awake.release (awake.frame ?_ ?_ rfl)
    all_goals simp only [apply, emit, send, answer, same]
  | close taken command exit => exact .ended (close_ended session taken exit).state
  | shutdown => exact .ended (shutdown_ended session).state
  | resume => exact fun _ _ _ member suspended => absurd suspended (runThreads_running _ _ member)
  | detach handle announce =>
    have threads := detach_threads session handle announce
    obtain ⟨registry, control, news, _, _, _, _, changed, same⟩ :=
      detach_spec coherent.control handle announce
    rw [same] at threads ⊢
    refine awake.keep ?_ ?_ (fun thread member _ => threads thread member) fun _ member => member
    all_goals rcases changed with rfl | ⟨⟨kind, stepping⟩, rfl⟩
    · exact id
    · exact fun _ => by simp [stepping]
    · exact id
    · exact id
  | capture category bytes attribution =>
    obtain ⟨output, news, _, same⟩ := capture_spec session category bytes attribution
    rw [same]
    exact awake.frame rfl rfl rfl
  | reconfigure change =>
    obtain ⟨config, mapping, sources, filters, news, _, same⟩ := configure_spec session change
    rw [same]
    exact awake.frame rfl rfl rfl
  | release stop ends | dismiss call rest ends => exact .ended ends

theorem Acts.awake {taken : List Request} (acts : Acts session taken next)
    (coherent : session.Coherent) (awake : session.Awake) : next.Awake := by
  induction acts with
  | refl => exact awake
  | tail acts act ih => exact act.awake (acts.coherent coherent) ih

/-- A session that is over stays so. -/
theorem Acts.ended {taken : List Request} (acts : Acts session taken next)
    (coherent : session.Coherent) (ends : session.debugger.control.state = .terminated) :
    next.debugger.control.state = .terminated := by
  obtain ⟨sent, follows⟩ := acts.follows coherent
  have turns := follows.turn
  rw [turn, Execution.Control.turn_over ends] at turns
  exact Execution.Control.turn_eq_nobody.mp (Turn.foldlM_nobody turns).2

/-- Calls that all go on end with a thread that is stopped, or they were all on lines and have
returned. -/
theorem proceedAll_spec (calls : List Call)
    (begun : session.debugger.control.state ≠ .initializing)
    (live : session.debugger.control.state ≠ .terminated) :
    (calls.foldl proceed session).debugger.control.stopper.isSome ∨
      ((∀ call ∈ calls, ∃ line source, call.errand = .line line source) ∧
        (calls.foldl proceed session).debugger.control = session.debugger.control ∧
        (calls.foldl proceed session).debugger.registry = session.debugger.registry ∧
        (calls.foldl proceed session).blocked = session.blocked) := by
  induction calls generalizing session with
  | nil => exact Or.inr ⟨by simp, rfl, rfl, rfl⟩
  | cons call rest ih =>
    have goes : Goes session call (session.proceed call) := proceed_goes begun live
    rcases ih (goes.begun begun) (goes.live live) with held | ⟨lines, control, registry, blocked⟩
    · exact Or.inl held
    · cases free : (session.proceed call).debugger.control.stopper with
      | some stopper =>
        left
        rw [List.foldl_cons, control]
        simp [free]
      | none =>
        obtain ⟨line, middle, looked, same⟩ := goes.unheld free
        obtain ⟨breakpoints, callbacks, outbox, rfl⟩ := looked
        rw [same] at control registry blocked
        rw [List.foldl_cons, same]
        exact Or.inr ⟨List.forall_mem_cons.mpr ⟨line, lines⟩, control, registry, blocked⟩

theorem wakeAll_spec (calls : List Call) (debugger : Debugger) :
    ∃ registry, calls.foldl wake debugger = { debugger with registry } := by
  induction calls generalizing debugger with
  | nil => exact ⟨debugger.registry, rfl⟩
  | cons call rest ih =>
    obtain ⟨_, woken, _⟩ := wake_spec debugger call
    rw [List.foldl_cons, woken]
    obtain ⟨registry, same⟩ := ih _
    exact ⟨registry, same⟩

theorem settle_rested (coherent : session.Coherent) (drained : session.debugger.queue = [])
    (awake : session.Awake) : session.settle.Rested := by
  by_cases ends : session.debugger.control.state = .terminated
  · obtain ⟨acts, settled⟩ := settle_over drained coherent ends
    have ended := acts.ended coherent ends
    exact ⟨.ended ended, fun waits => absurd (settled.ends ended).2 waits⟩
  · have running : session.isTerminated = false := by
      rw [← Bool.not_eq_true, isTerminated_iff coherent]
      exact ends
    unfold settle
    simp only [running, Bool.false_eq_true, if_false]
    split
    · rename_i held
      exact ⟨awake, fun _ => held⟩
    · rename_i released
      obtain ⟨unheld, begun⟩ := not_or.mp released
      have suspended (thread : Thread) := @wakeAll_suspended thread session.blocked session.debugger
      obtain ⟨registry, woken⟩ := wakeAll_spec session.blocked session.debugger
      simp only [modifyDebugger, woken] at suspended ⊢
      have gone := @proceedAll_spec
        { session with debugger := { session.debugger with registry }, blocked := [] }
        session.blocked begun ends
      refine ⟨fun _ free thread member sleeps => ?_, fun waits => ?_⟩
      · rcases gone with held | ⟨lines, _, same, _⟩
        · simp [free] at held
        · rw [same] at member
          obtain ⟨before, others⟩ := suspended thread member sleeps
          have unstopped : session.debugger.control.stopper = none := by simpa using unheld
          obtain ⟨call, waits, own⟩ := awake ends unstopped thread before sleeps
          exact absurd own (others call waits (lines call waits))
      · rcases gone with held | ⟨_, _, _, blocked⟩
        · exact Or.inl held
        · exact absurd blocked waits

/-- Without calls that wait there is nothing to settle. -/
theorem settle_unblocked (running : ¬session.isTerminated = true) (empty : session.blocked = []) :
    session.settle = session := by
  obtain ⟨debugger, outbox, callbacks, finished, stopped, blocked⟩ := session
  cases empty
  unfold settle
  dsimp only
  rw [if_neg running]
  split <;> rfl

/-- In a session at rest there is nothing to settle. -/
theorem Rested.settle_eq (rested : session.Rested) (settled : session.Settled) :
    session.settle = session := by
  by_cases ends : session.debugger.control.state = .terminated
  · exact settled.settle_eq ends
  · have running : ¬session.isTerminated = true := (isTerminated_iff settled.coherent).not.mpr ends
    by_cases empty : session.blocked = []
    · exact settle_unblocked running empty
    · exact settle_held running (rested.held empty)

theorem Goes.awake (goes : Goes session call next) (awake : session.Awake) : next.Awake := by
  cases goes with
  | waits =>
    exact awake.keep id id (fun _ member _ => member) fun _ member => List.mem_append_left _ member
  | returns looked =>
    obtain ⟨_, _, _, rfl⟩ := looked
    exact awake.frame rfl rfl rfl
  | stops reason exception control looked enters =>
    intro _ free
    change control.stopper = none at free
    simp [enters.stopper] at free

theorem enter_awake (live : session.debugger.control.state ≠ .terminated)
    (awake : session.Awake) : (session.enter call).Awake := by
  unfold enter
  split
  · intro running free thread member suspended
    obtain ⟨other, inside, rfl⟩ := Registry.of_mem_modify member fun _ => rfl
    by_cases own : other.id = call.thread
    · simp only [own, if_true, Thread.setSuspended]
      exact ⟨call, by simp [block], rfl⟩
    · simp only [own, if_false] at suspended ⊢
      obtain ⟨waiting, waits, same⟩ := awake running free other inside suspended
      exact ⟨waiting, List.mem_append_left _ waits, same⟩
  · rename_i ends
    simp [Execution.Control.waitUntilRunnable, live] at ends
  · rename_i free
    have begun := (Free.state free).2
    obtain ⟨registry, same, _⟩ := wake_spec session.debugger call
    have woken : (session.modifyDebugger (wake · call)).Awake := by
      refine awake.keep ?_ ?_ (fun thread member suspended => (wake_suspended member suspended).1)
        fun _ member => member
      all_goals simp only [modifyDebugger, same]; exact id
    refine Goes.awake (proceed_goes ?_ ?_) woken
    all_goals simpa only [modifyDebugger, same]

theorem findOrAttach_awake (awake : session.Awake) (handle : Nat) :
    (session.findOrAttach handle).1.Awake ∧
      (session.findOrAttach handle).1.debugger.control = session.debugger.control := by
  unfold findOrAttach
  split
  · exact ⟨awake, rfl⟩
  · exact ⟨awake.attach handle, rfl⟩

theorem visitLine_awake (live : session.debugger.control.state ≠ .terminated)
    (awake : session.Awake) (handle thread : Nat) (interpreter : Interpreter) (line : Nat) :
    (session.visitLine handle thread interpreter line).Awake := by
  have found : (session.discover interpreter interpreter.chunk).Awake :=
    Aside.awake (.discover interpreter interpreter.chunk) awake
  obtain ⟨sources, callbacks, news, _, same⟩ :=
    discover_spec session interpreter interpreter.chunk
  refine @enter_awake (session.discover interpreter interpreter.chunk) _ ?_ found
  rwa [same]

theorem hook_awake (coherent : session.Coherent) (awake : session.Awake) (handle : Nat)
    (interpreter : Interpreter) (event : HookEvent) :
    (session.hook handle interpreter event).Awake := by
  unfold hook
  dsimp only
  split
  · exact awake.frame rfl rfl rfl
  · rename_i running
    have live : session.debugger.control.state ≠ .terminated := by
      intro ends
      have ended := coherent.control.terminated_iff.mpr ends
      exact running (by simpa [Execution.Control.isTerminated] using ended)
    obtain ⟨attached, control⟩ := findOrAttach_awake awake handle
    generalize session.findOrAttach handle = known at attached control ⊢
    obtain ⟨attaching, thread⟩ := known
    cases event with
    | call | return_ => exact attached.frame rfl rfl rfl
    | line line =>
      dsimp only
      split
      · exact attached.frame rfl rfl rfl
      · exact visitLine_awake (control ▸ live) attached handle thread.id interpreter line

theorem raise_awake (awake : session.Awake) (handle : Nat)
    (live : session.debugger.control.state ≠ .terminated) (call : Call) :
    ((session.attach handle).1.enter call).Awake :=
  @enter_awake (session.attach handle).1 call live (awake.attach handle)

theorem exception_awake (coherent : session.Coherent) (awake : session.Awake) (handle : Nat)
    (interpreter : Interpreter) (kind : ExceptionKind) (message : String) :
    (session.exception handle interpreter kind message).Awake := by
  unfold exception
  split
  · exact awake.frame rfl rfl rfl
  · rename_i armed
    refine raise_awake awake handle (fun ends => armed ?_) _
    simp [(isTerminated_iff coherent).mpr ends]

theorem panic_awake (coherent : session.Coherent) (awake : session.Awake) (handle : Nat)
    (interpreter : Interpreter) (message : String) :
    (session.panic handle interpreter message).Awake := by
  unfold panic
  split
  · exact awake.frame rfl rfl rfl
  · rename_i running
    exact raise_awake awake handle
      (fun ends => running ((isTerminated_iff coherent).mpr ends)) _

/-- Who may run and is in no call yet is alone: nobody is stopped, and no call waits. -/
theorem alone_of_free (settled : session.Settled) (rested : session.Rested)
    (free : session.Free call)
    (listed : (call.thread, call.handle) ∈ session.debugger.registry.roster)
    (available : (session.isStoppedAt call.handle || session.isBlockedAt call.handle) = false) :
    session.stopped = none ∧ session.blocked = [] ∧
      ∀ thread ∈ session.debugger.registry.threads, thread.phase ≠ .suspended := by
  obtain ⟨live, unblocked⟩ := Execution.Control.waitUntilRunnable_eq_true.mp free
  have idle := idle_of_available (Bool.not_eq_true _ ▸ available)
  have unstopped : session.stopped = none := by
    by_contra held
    obtain ⟨stop, held⟩ := Option.ne_none_iff_exists'.mp held
    have member : stop.call ∈ session.calls := by simp [calls, held]
    have stopper := settled.coherent.holder live
    rw [held, Option.map_some] at stopper
    have own : stop.call.thread = call.thread := by
      simp_all [Execution.Control.blocks, Execution.Control.heldByOther]
    have owner := (settled.coherent.callers.known stop.call member).owner call.handle (own ▸ listed)
    exact idle stop.call member owner.symm
  have unheld : session.debugger.control.stopper = none := by
    rw [settled.coherent.holder live, unstopped, Option.map_none]
  have begun := (Free.state free).2
  have empty : session.blocked = [] := by
    by_contra waits
    rcases rested.held waits with held | held
    · simp [unheld] at held
    · exact begun held
  refine ⟨unstopped, empty, fun thread member suspended => ?_⟩
  obtain ⟨waiting, waits, _⟩ := rested.awake live unheld thread member suspended
  simp [empty] at waits

/-- A call that has to wait does so, and nothing else goes on. -/
theorem enter_behind (settled : session.Settled)
    (live : session.debugger.control.state ≠ .terminated)
    (waits : session.debugger.control.blocks call.thread = true)
    (available : (session.isStoppedAt call.handle || session.isBlockedAt call.handle) = false) :
    session.enter call =
        (session.modifyDebugger (·.modifyThread call.thread Thread.setSuspended)).block call ∧
      (session.enter call).settle = session.enter call ∧
      (session.enter call).callState call.handle = .blocked := by
  have running : ¬session.isTerminated = true := (isTerminated_iff settled.coherent).not.mpr live
  have held : session.debugger.control.waitUntilRunnable call.thread = none := by
    simp [Execution.Control.waitUntilRunnable, live, waits]
  have behind : session.debugger.control.stopper.isSome ∨
      session.debugger.control.state = .initializing := by
    rcases Bool.or_eq_true_iff.mp waits with initializing | other
    · exact .inr (of_decide_eq_true initializing)
    · refine .inl (Option.isSome_iff_ne_none.mpr fun none => ?_)
      simp [Execution.Control.heldByOther, none] at other
  let waiting :=
    (session.modifyDebugger (·.modifyThread call.thread Thread.setSuspended)).block call
  have entered : session.enter call = waiting := by
    simp only [enter, held, waiting]
  have still : waiting.settle = waiting := settle_held running behind
  have unstopped : waiting.isStoppedAt call.handle = false :=
    (Bool.or_eq_false_iff.mp available).1
  have state : waiting.callState call.handle = .blocked := by
    simp only [callState, unstopped, Bool.false_eq_true, if_false]
    simp [isBlockedAt, waiting, block]
  rw [entered]
  exact ⟨rfl, still, state⟩

/-- Moves that neither start nor end a call leave a session at rest. -/
theorem Rested.still (rested : session.Rested) (awake : next.Awake)
    (blocked : next.blocked = session.blocked)
    (stopper : next.debugger.control.stopper = session.debugger.control.stopper)
    (held : session.debugger.control.state = .initializing →
      next.debugger.control.state = .initializing) : next.Rested := by
  refine ⟨awake, fun waits => ?_⟩
  rw [stopper]
  exact (rested.held (blocked ▸ waits)).imp_right held

theorem call_rested (settled : session.Settled) (rested : session.Rested) {handle : Nat}
    (run : Session → Session)
    (advances : (∀ other ∈ session.calls, other.handle ≠ handle) → Advances session (run session))
    (awake : (run session).Awake) : (session.call handle run).1.Rested := by
  unfold call
  split
  · exact rested
  · rename_i available
    have ran := (advances (idle_of_available available)).settled settled
    exact settle_rested ran.coherent ran.drained awake

theorem lineCalls_rested {handle : Nat}
    (calls : Relation.ReflTransGen (LineCall handle) session next) (settled : session.Settled)
    (rested : session.Rested) : next.Rested := by
  induction calls with
  | refl => exact rested
  | tail prior last ih =>
    obtain ⟨interpreter, line, rfl⟩ := last
    have after := (lineCalls_advances prior settled).settled settled
    exact call_rested after ih (·.hook handle interpreter (.line line))
      (fun idle => hook_advances after.coherent idle interpreter (.line line))
      (hook_awake after.coherent ih.awake handle interpreter (.line line))

theorem served_rested {taken : List Request} (acts : Acts session taken next)
    (coherent : session.Coherent) (awake : session.Awake) : next.serve.settle.Rested := by
  obtain ⟨served, drained⟩ := serve_acts (acts.coherent coherent)
  have answered := acts.quietly served
  exact settle_rested (answered.coherent coherent) drained (answered.awake coherent awake)

theorem batch_rested (settled : session.Settled) (rested : session.Rested)
    (requests : List Request) : (session.batch requests).1.Rested := by
  rcases batch_gathers session requests with ⟨_, same⟩ | ⟨middle, gathers, same⟩
  · rwa [same]
  · obtain ⟨taken, acts, _⟩ := gathers.acts settled.coherent
    rw [same]
    exact served_rested acts settled.coherent rested.awake

theorem detach_rested (settled : session.Settled) (rested : session.Rested) (handle : Nat)
    (announce : Bool) : (session.detach handle announce).1.Rested := by
  have awake := Act.awake (.detach handle announce) settled.coherent rested.awake
  obtain ⟨registry, control, news, _, _, _, _, changed, same⟩ :=
    detach_spec settled.coherent.control handle announce
  rw [same] at awake ⊢
  refine rested.still awake rfl ?_ ?_
  all_goals rcases changed with rfl | ⟨⟨kind, stepping⟩, rfl⟩
  · rfl
  · rfl
  · exact id
  · exact fun held => by simp [stepping] at held

theorem capture_rested (rested : session.Rested) (category : Output.Category)
    (bytes : List UInt8) (attribution : Option Output.Attribution) :
    (session.capture category bytes attribution).Rested := by
  obtain ⟨output, news, _, same⟩ := capture_spec session category bytes attribution
  rw [same]
  exact rested.still (rested.awake.frame rfl rfl rfl) rfl rfl id

theorem configure_rested (rested : session.Rested) (change : Except Config.Error Config.Store) :
    (session.configure change).1.Rested := by
  obtain ⟨config, mapping, sources, filters, news, _, same⟩ := configure_spec session change
  rw [same]
  exact rested.still (rested.awake.frame rfl rfl rfl) rfl rfl id

theorem origin_rested (rested : session.Rested) (place : Option (Interpreter × Nat)) :
    (session.origin place).1.Rested := by
  cases place with
  | none => exact rested
  | some place =>
    obtain ⟨interpreter, line⟩ := place
    obtain ⟨sources, callbacks, news, _, same⟩ :=
      discover_spec session interpreter interpreter.chunk
    change (session.discover interpreter interpreter.chunk).Rested
    rw [same]
    exact rested.still (rested.awake.frame rfl rfl rfl) rfl rfl id

theorem perform_rested (settled : session.Settled) (rested : session.Rested) (step : Step) :
    (session.perform step).1.Rested := by
  have coherent := settled.coherent
  have awake := rested.awake
  cases step with
  | request request => exact served_rested (handle_acts coherent request) coherent awake
  | batch requests => exact batch_rested settled rested requests
  | hook handle interpreter event =>
    exact call_rested settled rested (·.hook handle interpreter event)
      (fun idle => hook_advances coherent idle interpreter event)
      (hook_awake coherent awake handle interpreter event)
  | lines handle places =>
    exact lineCalls_rested (lines_calls session handle places) settled rested
  | exception handle interpreter kind message =>
    exact call_rested settled rested (·.exception handle interpreter kind message)
      (fun idle => exception_advances coherent idle interpreter kind message)
      (exception_awake coherent awake handle interpreter kind message)
  | panic handle interpreter message =>
    exact call_rested settled rested (·.panic handle interpreter message)
      (fun idle => panic_advances coherent idle interpreter message)
      (panic_awake coherent awake handle interpreter message)
  | attach handle => exact rested.still (awake.attach handle) rfl rfl id
  | detach handle announce => exact detach_rested settled rested handle announce
  | print bytes place =>
    have placed := origin_rested rested place
    simp only [perform, print]
    split
    · exact capture_rested placed _ _ _
    · exact placed
  | capture category bytes place => exact capture_rested (origin_rested rested place) _ _ _
  | native stream bytes =>
    simp only [perform, native]
    split
    · exact capture_rested rested _ _ _
    · exact rested
  | updateConfig update => exact configure_rested rested _
  | loadDefaults path content => exact configure_rested rested _
  | config => exact rested
  | shutdown =>
    have ended : Acts session [] session.shutdown.1 := .still .shutdown
    exact settle_rested (ended.coherent coherent) (ended.drained settled.drained)
      (ended.awake coherent awake)

theorem run_rested (steps : List Step) : (({} : Session).run steps).Rested :=
  run_induction (P := fun _ session => session.Rested) rested_new
    (fun _ _ step settled rested => perform_rested settled rested step) steps

end DebugAdapter.Session
