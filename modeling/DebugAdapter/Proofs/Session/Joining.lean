import DebugAdapter.Proofs.Session.FastPath
import DebugAdapter.Proofs.Session.Phases

/-! While a thread is stopped all others are suspended, except for those that join the program in
the meantime. Attaching a thread, and a call or a return on one that is not known yet, registers it
and lets it go on, whoever is stopped. -/
namespace DebugAdapter

open Execution (Control)

/-- The steps that register the thread of a handle and let it go on. -/
def Step.Admits (handle : Nat) : Step → Prop
  | .attach other | .hook other _ .call | .hook other _ .return_ => other = handle
  | _ => False

namespace Session

/-- A registered thread that goes on while one is stopped. -/
structure Loose (session : Session) (thread : Thread) : Prop where
  halted : ∃ reason, session.debugger.control.state = .stopped reason
  listed : thread ∈ session.debugger.registry.threads
  moves : thread.phase = .running ∨ thread.phase = .stepping

/-- The stop before a move is the one after it. -/
structure Lasts (session next : Session) : Prop where
  control : next.debugger.control = session.debugger.control
  call : next.stopped.map (·.call) = session.stopped.map (·.call)

/-- Whoever goes on after a move did so before it, during the same stop. -/
def Confines (session next : Session) : Prop :=
  ∀ thread, next.Loose thread → Lasts session next ∧ session.Loose thread

/-- Newcomers apart, whoever goes on after a move did so before it, during the same stop. -/
def ConfinesBut (newcomer : Thread → Prop) (session next : Session) : Prop :=
  ∀ thread, next.Loose thread → Lasts session next ∧ (session.Loose thread ∨ newcomer thread)

variable {session middle next : Session} {call : Call} {thread : Thread}
  {newcomer : Thread → Prop}

theorem Loose.held (loose : session.Loose thread) (valid : session.debugger.control.Valid) :
    session.debugger.control.stopper.isSome :=
  valid.stopped.mp loose.halted

namespace Lasts

theorem refl (session : Session) : Lasts session session :=
  ⟨rfl, rfl⟩

theorem trans (first : Lasts session middle) (last : Lasts middle next) : Lasts session next :=
  ⟨last.control.trans first.control, last.call.trans first.call⟩

theorem confines (lasts : Lasts session next)
    (fewer : next.debugger.registry.threads ⊆ session.debugger.registry.threads) :
    Confines session next :=
  fun _ loose => ⟨lasts, lasts.control ▸ loose.halted, fewer loose.listed, loose.moves⟩

end Lasts

theorem confines_still (lasts : Lasts session next)
    (registry : next.debugger.registry = session.debugger.registry) : Confines session next :=
  lasts.confines (registry ▸ List.Subset.refl _)

namespace Confines

theorem refl (session : Session) : Confines session session :=
  confines_still (.refl session) rfl

theorem trans (first : Confines session middle) (last : Confines middle next) :
    Confines session next := by
  intro thread loose
  obtain ⟨later, inside⟩ := last thread loose
  obtain ⟨earlier, before⟩ := first thread inside
  exact ⟨earlier.trans later, before⟩

theorem but (confines : Confines session next) : ConfinesBut newcomer session next :=
  fun thread loose => (confines thread loose).imp_right Or.inl

end Confines

theorem confines_unstopped (free : ∀ reason, next.debugger.control.state ≠ .stopped reason) :
    Confines session next :=
  fun _ loose => loose.halted.elim fun reason state => absurd state (free reason)

theorem ConfinesBut.tail (first : ConfinesBut newcomer session middle)
    (last : Confines middle next) : ConfinesBut newcomer session next := by
  intro thread loose
  obtain ⟨later, inside⟩ := last thread loose
  obtain ⟨earlier, before⟩ := first thread inside
  exact ⟨earlier.trans later, before⟩

theorem ConfinesBut.confines (nobody : ConfinesBut (fun _ => False) session next) :
    Confines session next :=
  fun thread loose => (nobody thread loose).imp_right (·.resolve_right id)

theorem Aside.confines (aside : Aside session next) : Confines session next := by
  cases aside with
  | note | finish => exact confines_still ⟨rfl, rfl⟩ rfl
  | discover interpreter chunk =>
    obtain ⟨sources, callbacks, news, _, same⟩ := discover_spec session interpreter chunk
    rw [same]
    exact confines_still ⟨rfl, rfl⟩ rfl

theorem release_confines (session : Session) :
    Confines session (session.modifyDebugger (·.releaseIfReady)) := by
  obtain ⟨control, same, rfl | ⟨_, _, done⟩⟩ := Debugger.releaseIfReady_spec session.debugger
  · simp only [modifyDebugger, same]
    exact confines_still ⟨rfl, rfl⟩ rfl
  · obtain ⟨_, rfl⟩ := Control.configurationDone_eq_some.mp done
    simp only [modifyDebugger, same]
    exact confines_unstopped fun _ stopped => by contradiction

theorem detach_confines (coherent : session.Coherent) (handle : Nat) (announce : Bool) :
    Confines session (session.detach handle announce).1 := by
  have threads := detach_threads session handle announce
  obtain ⟨registry, control, news, _, _, _, _, changed, same⟩ :=
    detach_spec coherent.control handle announce
  rw [same] at threads ⊢
  rcases changed with rfl | ⟨_, rfl⟩
  · exact Lasts.confines ⟨rfl, rfl⟩ threads
  · exact confines_unstopped fun _ stopped => by contradiction

theorem capture_confines (session : Session) (category : Output.Category) (bytes : List UInt8)
    (attribution : Option Output.Attribution) :
    Confines session (session.capture category bytes attribution) := by
  obtain ⟨output, news, _, same⟩ := capture_spec session category bytes attribution
  rw [same]
  exact confines_still ⟨rfl, rfl⟩ rfl

/-- The client lets nobody go on without the one that is stopped. -/
theorem Act.confines {request : Option Request} (act : Act session request next)
    (coherent : session.Coherent) : Confines session next := by
  cases act with
  | aside aside => exact aside.confines
  | refuse | evaluate | defer | decline => exact confines_still ⟨rfl, rfl⟩ rfl
  | reply deferred rest stop body framesFetched _ held =>
    have call : some stop.call = session.stopped.map (·.call) := by rw [held]; rfl
    exact confines_still ⟨rfl, call⟩ rfl
  | adjust taken command change _ _ adjusts _ carried =>
    obtain ⟨_, _, control, _, _, _, _, _, same, asked, _⟩ :=
      Debugger.carryOut_adjusts carried adjusts
    obtain ⟨debugger, before, body, after, exit⟩ := change
    cases same
    rcases asked with rfl | ⟨_, paused⟩
    · exact confines_still ⟨rfl, rfl⟩ rfl
    · -- A pause is asked for only while nobody is stopped.
      obtain ⟨free, _, rfl⟩ := Control.requestPause_eq_some.mp paused
      exact confines_unstopped free
  | start taken command change _ _ _ _ started =>
    obtain ⟨_, config, events, _, _, _, _, _, same⟩ := Debugger.start_spec started
    have applied : Confines session (session.apply taken change) := by
      rw [same]
      exact confines_still ⟨rfl, rfl⟩ rfl
    exact applied.trans (release_confines _)
  | configure taken change _ _ _ done =>
    obtain ⟨_, same⟩ := Debugger.configurationDone_spec done
    have applied : Confines session (session.apply taken change) := by
      rw [same]
      exact confines_still ⟨rfl, rfl⟩ rfl
    exact applied.trans (release_confines _)
  | close taken command exit =>
    exact confines_unstopped (by simp [(close_ended session taken exit).state])
  | shutdown => exact confines_unstopped (by simp [(shutdown_ended session).state])
  | resume deferred rest stop how body control waiting _ _ resumed =>
    obtain ⟨reason, state⟩ := coherent.queued.state (by simp [waiting])
    exact confines_unstopped (Control.resume_runs state resumed).2.2.1
  | detach handle announce => exact detach_confines coherent handle announce
  | capture category bytes attribution => exact capture_confines session category bytes attribution
  | reconfigure change =>
    obtain ⟨config, mapping, sources, filters, news, _, same⟩ := configure_spec session change
    rw [same]
    exact confines_still ⟨rfl, rfl⟩ rfl
  | release stop ends => exact confines_unstopped (by simp [modifyDebugger, runThreads, ends])
  | dismiss call rest ends => exact confines_unstopped (by simp [ends])

theorem Acts.confines {taken : List Request} (acts : Acts session taken next)
    (coherent : session.Coherent) : Confines session next := by
  induction acts with
  | refl => exact .refl _
  | tail acts act ih => exact ih.trans (act.confines (acts.coherent coherent))

/-- When a thread stops, all others are suspended. -/
theorem stop_tight (session : Session) (call : Call) (reason : Execution.StopReason)
    (exception : Option ExceptionRecord) : ¬(session.stop call reason exception).Loose thread := by
  intro loose
  obtain ⟨other, _, rfl⟩ := Registry.of_mem_update loose.listed fun _ => by split <;> rfl
  have moves := loose.moves
  split at moves
  · simp [Thread.setStopped] at moves
  · simp [Thread.setSuspended] at moves

theorem Goes.confines (goes : Goes session call next) : Confines session next := by
  cases goes with
  | waits => exact confines_still ⟨rfl, rfl⟩ rfl
  | returns looked =>
    obtain ⟨_, _, _, rfl⟩ := looked
    exact confines_still ⟨rfl, rfl⟩ rfl
  | stops reason exception => exact fun _ loose => absurd loose (stop_tight _ call reason exception)

theorem proceedAll_confines (calls : List Call)
    (begun : session.debugger.control.state ≠ .initializing)
    (live : session.debugger.control.state ≠ .terminated) :
    Confines session (calls.foldl proceed session) := by
  induction calls generalizing session with
  | nil => exact .refl session
  | cons call rest ih =>
    have goes : Goes session call (session.proceed call) := proceed_goes begun live
    exact goes.confines.trans (ih (goes.begun begun) (goes.live live))

theorem settle_confines (coherent : session.Coherent) (drained : session.debugger.queue = []) :
    Confines session session.settle := by
  by_cases ends : session.debugger.control.state = .terminated
  · exact (settle_over drained coherent ends).1.confines coherent
  · have running : ¬session.isTerminated = true := (isTerminated_iff coherent).not.mpr ends
    unfold settle
    dsimp only
    rw [if_neg running]
    split
    · exact .refl session
    · rename_i released
      obtain ⟨unheld, begun⟩ := not_or.mp released
      obtain ⟨registry, woken⟩ := wakeAll_spec session.blocked session.debugger
      simp only [modifyDebugger, woken]
      -- Nobody is stopped when the calls go on, so nobody is loose by then.
      intro thread loose
      obtain ⟨_, inside⟩ := @proceedAll_confines
        { session with debugger := { session.debugger with registry }, blocked := [] }
        session.blocked begun ends thread loose
      exact absurd (inside.held coherent.control) unheld

/-- The thread of a call that begins is suspended, or there is nobody who is stopped. -/
theorem enter_loose (loose : (session.enter call).Loose thread) (coherent : session.Coherent)
    (live : session.debugger.control.state ≠ .terminated)
    (idle : ∀ other ∈ session.calls, other.handle ≠ call.handle)
    (listed : (call.thread, call.handle) ∈ session.debugger.registry.roster) :
    Lasts session (session.enter call) ∧ session.Loose thread ∧ thread.id ≠ call.thread := by
  have arrived : Advance session (session.block call) := .arrive call live idle listed
  have waits : call ∈ (session.block call).blocked := by simp [block]
  cases gate : session.debugger.control.waitUntilRunnable call.thread with
  | none =>
    simp only [enter, gate] at loose ⊢
    obtain ⟨other, inside, rfl⟩ := Registry.of_mem_modify loose.listed fun _ => rfl
    have moves := loose.moves
    split at moves
    · simp [Thread.setSuspended] at moves
    · rename_i different
      simp only [different, if_false]
      exact ⟨⟨rfl, rfl⟩, ⟨loose.halted, inside, moves⟩, different⟩
  | some free =>
    cases free with
    | false => simp [Control.waitUntilRunnable, live] at gate
    | true =>
      have unheld := ((arrived.coherent coherent).alone waits gate).2
      obtain ⟨registry, same, _⟩ := wake_spec session.debugger call
      simp only [enter, gate, modifyDebugger, same] at loose
      have goes := @proceed_goes { session with debugger := { session.debugger with registry } }
        call (Free.state gate).2 live
      have held := (goes.confines thread loose).2.held coherent.control
      exact absurd unheld (Option.isSome_iff_ne_none.mp held)

theorem visitLine_loose {handle id line : Nat} {interpreter : Interpreter}
    (loose : (session.visitLine handle id interpreter line).Loose thread)
    (coherent : session.Coherent) (live : session.debugger.control.state ≠ .terminated)
    (idle : ∀ other ∈ session.calls, other.handle ≠ handle)
    (listed : (id, handle) ∈ session.debugger.registry.roster) :
    Lasts session (session.visitLine handle id interpreter line) ∧ session.Loose thread ∧
      thread.id ≠ id := by
  have found : Aside session (session.discover interpreter interpreter.chunk) :=
    .discover interpreter interpreter.chunk
  have advances : Advances session (session.discover interpreter interpreter.chunk) :=
    .single (.aside found)
  have roster : (session.discover interpreter interpreter.chunk).debugger.registry =
      session.debugger.registry := by
    obtain ⟨_, _, _, _, same⟩ := discover_spec session interpreter interpreter.chunk
    rw [same]
  obtain ⟨later, inside, other⟩ := @enter_loose (session.discover interpreter interpreter.chunk) _ _
    loose (advances.coherent coherent) (advances.live live) idle (roster ▸ listed)
  obtain ⟨earlier, before⟩ := found.confines thread inside
  exact ⟨earlier.trans later, before, other⟩

theorem attach_new {handle : Nat}
    (unknown : session.debugger.registry.findByHandle? handle = none) :
    (session.attach handle).2 = { id := session.debugger.registry.lastId + 1, handle } ∧
      (session.attach handle).1.debugger.registry.threads =
        session.debugger.registry.threads ++ [(session.attach handle).2] := by
  obtain ⟨made, threads, -⟩ := Registry.attach_unknown unknown
  simp only [Session.attach, Debugger.attach, made, emit, send, threads, and_self]

theorem attach_known {handle : Nat} {known : Thread}
    (found : session.debugger.registry.findByHandle? handle = some known) :
    (session.attach handle).1.debugger.registry = session.debugger.registry := by
  simp only [Session.attach, Debugger.attach, Registry.attach_known found, emit, send]

theorem attach_confines {handle : Nat}
    (admits : session.debugger.registry.findByHandle? handle = none →
      newcomer { id := session.debugger.registry.lastId + 1, handle }) :
    ConfinesBut newcomer session (session.attach handle).1 := by
  have lasts : Lasts session (session.attach handle).1 := ⟨rfl, rfl⟩
  cases known : session.debugger.registry.findByHandle? handle with
  | some thread => exact (confines_still lasts (attach_known known)).but
  | none =>
    obtain ⟨new, threads⟩ := attach_new known
    intro thread loose
    refine ⟨lasts, ?_⟩
    rcases List.mem_append.mp (threads ▸ loose.listed) with old | newest
    · exact Or.inl ⟨loose.halted, old, loose.moves⟩
    · rw [List.mem_singleton.mp newest, new]
      exact Or.inr (admits known)

theorem findOrAttach_confines {handle : Nat}
    (admits : session.debugger.registry.findByHandle? handle = none →
      newcomer { id := session.debugger.registry.lastId + 1, handle }) :
    ConfinesBut newcomer session (session.findOrAttach handle).1 := by
  unfold findOrAttach
  split
  · exact (Confines.refl session).but
  · exact attach_confines admits

/-- A newcomer that waits with its first call is not loose. -/
theorem ConfinesBut.waits {other : Thread} (joins : ConfinesBut (· = other) session middle)
    (waits : ∀ thread, next.Loose thread →
      Lasts middle next ∧ middle.Loose thread ∧ thread.id ≠ other.id) :
    Confines session next := by
  intro thread loose
  obtain ⟨later, inside, different⟩ := waits thread loose
  obtain ⟨earlier, before | rfl⟩ := joins thread inside
  · exact ⟨earlier.trans later, before⟩
  · exact absurd rfl different

theorem attendLine_confines (coherent : session.Coherent)
    (live : session.debugger.control.state ≠ .terminated) {handle : Nat}
    (idle : ∀ other ∈ session.calls, other.handle ≠ handle) (interpreter : Interpreter)
    (line : Nat) : Confines session (session.attendLine handle interpreter line) := by
  obtain ⟨attached, calls, listed⟩ := findOrAttach_advances session handle
  have joins : ConfinesBut (· = (session.findOrAttach handle).2) session
      (session.findOrAttach handle).1 := by
    refine findOrAttach_confines fun unknown => ?_
    simp only [findOrAttach, unknown, (attach_new unknown).1]
  exact joins.waits fun thread loose => visitLine_loose loose (attached.coherent coherent)
    (attached.live live) (calls ▸ idle) listed

theorem hook_confines (settled : session.Settled) (rested : session.Rested) {handle : Nat}
    (idle : ∀ other ∈ session.calls, other.handle ≠ handle) (interpreter : Interpreter)
    (line : Nat) : Confines session (session.hook handle interpreter (.line line)) := by
  by_cases ends : session.debugger.control.state = .terminated
  · rw [hook_over settled ends]
    exact Aside.confines (.finish handle none)
  · rw [hook_attends settled.coherent.control rested ends]
    exact attendLine_confines settled.coherent ends idle interpreter line

theorem hook_admits {handle : Nat} {event : HookEvent} (passes : event = .call ∨ event = .return_)
    (admits : session.debugger.registry.findByHandle? handle = none →
      newcomer { id := session.debugger.registry.lastId + 1, handle }) (interpreter : Interpreter) :
    ConfinesBut newcomer session (session.hook handle interpreter event) := by
  have returns (middle : Session) : Confines middle (middle.finish handle none) :=
    Aside.confines (.finish handle none)
  have joins : ConfinesBut newcomer session (session.findOrAttach handle).1 :=
    findOrAttach_confines admits
  unfold hook
  dsimp only
  split
  · exact (returns session).but
  · rcases passes with rfl | rfl
    · exact joins.tail (returns _)
    · exact joins.tail (returns _)

theorem raise_confines (coherent : session.Coherent) {handle : Nat}
    (idle : ∀ other ∈ session.calls, other.handle ≠ handle) (interpreter : Interpreter)
    (record : ExceptionRecord) (live : session.debugger.control.state ≠ .terminated) :
    Confines session ((session.attach handle).1.enter {
      handle
      thread := (session.attach handle).2.id
      interpreter
      errand := .exception record }) := by
  have attached : Advances session (session.attach handle).1 := .single (.attach handle)
  have listed := (Registry.attach_spec session.debugger.registry handle).1
  have joins : ConfinesBut (· = (session.attach handle).2) session (session.attach handle).1 :=
    attach_confines fun unknown => (attach_new unknown).1.symm
  exact joins.waits fun thread loose => enter_loose loose (attached.coherent coherent)
    (attached.live live) idle listed

theorem exception_confines (coherent : session.Coherent) {handle : Nat}
    (idle : ∀ other ∈ session.calls, other.handle ≠ handle) (interpreter : Interpreter)
    (kind : ExceptionKind) (message : String) :
    Confines session (session.exception handle interpreter kind message) := by
  unfold exception
  split
  · exact Aside.confines (.finish handle (some false))
  · rename_i armed
    refine raise_confines coherent idle interpreter _ fun ends => armed ?_
    simp [(isTerminated_iff coherent).mpr ends]

theorem panic_confines (coherent : session.Coherent) {handle : Nat}
    (idle : ∀ other ∈ session.calls, other.handle ≠ handle) (interpreter : Interpreter)
    (message : String) : Confines session (session.panic handle interpreter message) := by
  unfold panic
  split
  · exact Aside.confines (.finish handle none)
  · rename_i running
    exact raise_confines coherent idle interpreter _ fun ends =>
      running ((isTerminated_iff coherent).mpr ends)

theorem call_confines (settled : session.Settled) {handle : Nat} (run : Session → Session)
    (advances : (∀ other ∈ session.calls, other.handle ≠ handle) → Advances session (run session))
    (confines : (∀ other ∈ session.calls, other.handle ≠ handle) →
      ConfinesBut newcomer session (run session)) :
    ConfinesBut newcomer session (session.call handle run).1 := by
  unfold call
  split
  · exact (Confines.refl session).but
  · rename_i available
    have idle := idle_of_available available
    have ran := (advances idle).settled settled
    exact (confines idle).tail (settle_confines ran.coherent ran.drained)

theorem lineCalls_confines {handle : Nat}
    (calls : Relation.ReflTransGen (LineCall handle) session next) (settled : session.Settled)
    (rested : session.Rested) : Confines session next := by
  induction calls with
  | refl => exact .refl session
  | tail prior last ih =>
    obtain ⟨interpreter, line, rfl⟩ := last
    have after := (lineCalls_advances prior settled).settled settled
    have calm := lineCalls_rested prior settled rested
    exact ih.trans (call_confines after (·.hook handle interpreter (.line line))
      (fun idle => hook_advances after.coherent idle interpreter (.line line))
      fun idle => (hook_confines after calm idle interpreter line).but).confines

theorem served_confines {taken : List Request} (acts : Acts session taken next)
    (coherent : session.Coherent) : Confines session next.serve.settle := by
  obtain ⟨served, drained⟩ := serve_acts (acts.coherent coherent)
  have answered := acts.quietly served
  exact (answered.confines coherent).trans (settle_confines (answered.coherent coherent) drained)

theorem batch_confines (coherent : session.Coherent) (requests : List Request) :
    Confines session (session.batch requests).1 := by
  rcases batch_gathers session requests with ⟨_, same⟩ | ⟨middle, gathers, same⟩
  · rw [same]
    exact .refl session
  · obtain ⟨taken, acts, _⟩ := gathers.acts coherent
    rw [same]
    exact served_confines acts coherent

theorem origin_confines (session : Session) (place : Option (Interpreter × Nat)) :
    Confines session (session.origin place).1 := by
  cases place with
  | none => exact .refl session
  | some place =>
    obtain ⟨interpreter, line⟩ := place
    exact Aside.confines (.discover interpreter interpreter.chunk)

/-- Only the steps that are said to admit a thread do so, and only one that is not registered. -/
theorem perform_confines (settled : session.Settled) (rested : session.Rested) (step : Step) :
    ConfinesBut (fun thread => step.Admits thread.handle ∧
        session.debugger.registry.findByHandle? thread.handle = none)
      session (session.perform step).1 := by
  have coherent := settled.coherent
  cases step with
  | request request => exact (served_confines (handle_acts coherent request) coherent).but
  | batch requests => exact (batch_confines coherent requests).but
  | hook handle interpreter event =>
    refine call_confines settled (·.hook handle interpreter event)
      (fun idle => hook_advances coherent idle interpreter event) fun idle => ?_
    cases event with
    | line line => exact (hook_confines settled rested idle interpreter line).but
    | call => exact hook_admits (Or.inl rfl) (fun unknown => ⟨rfl, unknown⟩) interpreter
    | return_ => exact hook_admits (Or.inr rfl) (fun unknown => ⟨rfl, unknown⟩) interpreter
  | lines handle places =>
    exact (lineCalls_confines (lines_calls session handle places) settled rested).but
  | exception handle interpreter kind message =>
    exact call_confines settled (·.exception handle interpreter kind message)
      (fun idle => exception_advances coherent idle interpreter kind message)
      fun idle => (exception_confines coherent idle interpreter kind message).but
  | panic handle interpreter message =>
    exact call_confines settled (·.panic handle interpreter message)
      (fun idle => panic_advances coherent idle interpreter message)
      fun idle => (panic_confines coherent idle interpreter message).but
  | attach handle => exact attach_confines fun unknown => ⟨rfl, unknown⟩
  | detach handle announce => exact (detach_confines coherent handle announce).but
  | print bytes place =>
    have placed := origin_confines session place
    simp only [perform, print]
    split
    · exact (placed.trans (capture_confines _ _ _ _)).but
    · exact placed.but
  | capture category bytes place =>
    exact ((origin_confines session place).trans (capture_confines _ _ _ _)).but
  | native stream bytes =>
    simp only [perform, native]
    split
    · exact (capture_confines _ _ _ _).but
    · exact (Confines.refl session).but
  | updateConfig update =>
    have act : Act session none (session.updateConfig update).1 :=
      .reconfigure _ (Or.inl ⟨update, rfl⟩)
    exact (act.confines coherent).but
  | loadDefaults path content =>
    have act : Act session none (session.loadDefaults path content).1 :=
      .reconfigure _ (Or.inr ⟨path, content, rfl⟩)
    exact (act.confines coherent).but
  | config => exact (Confines.refl session).but
  | shutdown =>
    have ended : Acts session [] session.shutdown.1 := .still .shutdown
    exact ((ended.confines coherent).trans
      (settle_confines (ended.coherent coherent) (ended.drained settled.drained))).but

/-- Every thread that goes on during a stop has joined in the course of that stop. -/
theorem run_loose (steps : List Step) (loose : (({} : Session).run steps).Loose thread) :
    ∃ before join after, steps = before ++ join :: after ∧ join.Admits thread.handle ∧
      (({} : Session).run before).debugger.registry.findByHandle? thread.handle = none ∧
      ∀ later, later <+: join :: after →
        Lasts (({} : Session).run (before ++ later)) (({} : Session).run steps) := by
  induction steps using List.reverseRecOn with
  | nil => exact absurd loose.listed List.not_mem_nil
  | append_singleton steps step ih =>
    have confines := perform_confines (run_settled steps) (run_rested steps) step
    rw [run_append] at loose ⊢
    obtain ⟨lasts, old | ⟨admits, unknown⟩⟩ := confines thread loose
    · obtain ⟨before, join, after, rfl, admits, unknown, earlier⟩ := ih old
      refine ⟨before, join, after ++ [step], by simp, admits, unknown, fun later part => ?_⟩
      rw [← List.cons_append, List.prefix_concat_iff] at part
      rcases part with rfl | inside
      · rw [← List.append_assoc, run_append]
        exact .refl _
      · exact (earlier later inside).trans lasts
    · refine ⟨steps, step, [], rfl, admits, unknown, fun later part => ?_⟩
      rw [← List.nil_append [step], List.prefix_concat_iff, List.prefix_nil] at part
      rcases part with rfl | rfl
      · rw [List.nil_append, run_append]
        exact .refl _
      · rwa [List.append_nil]

theorem Loose.running {last : Option Notice} (loose : session.Loose thread)
    (valid : session.debugger.control.Valid) (phased : session.debugger.Phased last) :
    thread.phase = .running := by
  obtain ⟨reason, state⟩ := loose.halted
  have still := valid.step_none (by simp [state])
  have fits := (phased.fits thread loose.listed).stepping
  exact loose.moves.resolve_right (by simp [fits, still])

theorem call_idle {handle : Nat} (idle : ∀ other ∈ session.calls, other.handle ≠ handle)
    (run : Session → Session) : (session.call handle run).1 = (run session).settle := by
  have unblocked : session.isBlockedAt handle = false := by
    simp only [isBlockedAt, List.any_eq_false, decide_eq_true_eq]
    exact fun call waits => idle call (List.mem_append_right _ waits)
  have unstopped : session.isStoppedAt handle = false := by
    simp only [isStoppedAt, Option.any_eq_false, decide_eq_false_iff_not]
    exact fun stop held => idle stop.call (by simp [calls, held])
  simp only [call, unblocked, unstopped, Bool.or_self, Bool.false_eq_true, if_false]

/-- A thread that joins during a stop goes on. -/
theorem perform_admits (settled : session.Settled) {handle : Nat}
    (held : session.debugger.control.stopper.isSome)
    (unknown : session.debugger.registry.findByHandle? handle = none)
    (idle : ∀ call ∈ session.calls, call.handle ≠ handle) {step : Step}
    (admits : step.Admits handle) :
    Lasts session (session.perform step).1 ∧
      (session.perform step).1.Loose { id := session.debugger.registry.lastId + 1, handle } := by
  have halted := settled.coherent.control.stopped.mpr held
  obtain ⟨new, threads⟩ := attach_new unknown
  have joined (next : Session) (control : next.debugger.control = session.debugger.control)
      (registry : next.debugger.registry = (session.attach handle).1.debugger.registry) :
      next.Loose { id := session.debugger.registry.lastId + 1, handle } := by
    refine ⟨control ▸ halted, ?_, Or.inl rfl⟩
    rw [registry, threads, new]
    exact List.mem_append_right _ (List.mem_singleton_self _)
  cases step with
  | attach other =>
    obtain rfl : other = handle := admits
    exact ⟨⟨rfl, rfl⟩, joined _ rfl rfl⟩
  | hook other interpreter event =>
    have live : ¬session.isTerminated = true := by
      obtain ⟨reason, state⟩ := halted
      simp [isTerminated_iff settled.coherent, state]
    have lasts : ¬session.debugger.control.quick = .terminated := by
      simpa [isTerminated, Debugger.isTerminated, Control.isTerminated] using live
    -- The call returns at once, and nothing is left to settle.
    have returns (passes : event = .call ∨ event = .return_) (own : other = handle) :
        (session.perform (.hook other interpreter event)).1 =
          (session.attach handle).1.finish handle none := by
      have found : session.findOrAttach handle = session.attach handle := by
        simp only [findOrAttach, unknown]
      have hooked : session.hook handle interpreter event =
          (session.attach handle).1.finish handle none := by
        rcases passes with rfl | rfl
        all_goals simp only [hook, lasts, if_false, found]
      have rests := @settle_held ((session.attach handle).1.finish handle none) live (Or.inl held)
      simp only [perform, own, call_idle idle, hooked, rests]
    cases event with
    | line line => exact admits.elim
    | call =>
      rw [returns (Or.inl rfl) admits]
      exact ⟨⟨rfl, rfl⟩, joined _ rfl rfl⟩
    | return_ =>
      rw [returns (Or.inr rfl) admits]
      exact ⟨⟨rfl, rfl⟩, joined _ rfl rfl⟩
  | _ => exact admits.elim

/-- While a thread is stopped nobody goes on but those that have joined during that stop. They run
and do not step, each was registered by a step that admits it, and the same call has been stopped
ever since. Every such step on a handle that is new and in no call lets a thread run. -/
theorem newcomers_run (steps : List Step) :
    let session := ({} : Session).run steps
    (∀ thread, session.Loose thread → thread.phase = .running ∧
      ∃ before join after, steps = before ++ join :: after ∧ join.Admits thread.handle ∧
        (({} : Session).run before).debugger.registry.findByHandle? thread.handle = none ∧
        ∀ later, later <+: join :: after → Lasts (({} : Session).run (before ++ later)) session) ∧
    ∀ handle step, session.debugger.control.stopper.isSome → step.Admits handle →
      session.debugger.registry.findByHandle? handle = none →
      (∀ call ∈ session.calls, call.handle ≠ handle) →
      let next := (session.perform step).1
      Lasts session next ∧ ∃ thread, next.Loose thread ∧ thread.handle = handle := by
  intro session
  have settled : session.Settled := run_settled steps
  refine ⟨fun thread loose => ?_, fun handle step held admits unknown idle => ?_⟩
  · exact ⟨loose.running settled.coherent.control (run_phased steps), run_loose steps loose⟩
  · obtain ⟨lasts, loose⟩ := perform_admits settled held unknown idle admits
    exact ⟨lasts, _, loose, rfl⟩

/-- Beside a thread that is stopped on an exception one is attached and another comes to a call, and
both go on; so does one that comes to a return after that. -/
theorem newcomers_beside_exception :
    let steps : List Step := [
      .request { seq := 1, command := "configurationDone" },
      .request { seq := 2, command := "launch", arguments := some (.object []) },
      .exception 1 (.blank [] 1) .uncaught "failed",
      .attach 2,
      .hook 3 (.blank [] 1) .call]
    let session := ({} : Session).run steps
    let newest : Thread := { id := 3, handle := 3 }
    (session.Loose newest ∧ newest.phase = .running ∧
      ∃ before join after, steps = before ++ join :: after ∧ join.Admits newest.handle ∧
        (({} : Session).run before).debugger.registry.findByHandle? newest.handle = none ∧
        ∀ later, later <+: join :: after → Lasts (({} : Session).run (before ++ later)) session) ∧
    ∃ thread, (session.perform (.hook 4 (.blank [] 1) .return_)).1.Loose thread ∧
      thread.handle = 4 := by
  intro steps session newest
  have loose : session.Loose newest :=
    ⟨⟨.exception, by decide +kernel⟩, by decide +kernel, Or.inl rfl⟩
  have held : session.debugger.control.stopper.isSome := by decide +kernel
  have unknown : session.debugger.registry.findByHandle? 4 = none := by decide +kernel
  have idle : ∀ call ∈ session.calls, call.handle ≠ 4 := by decide +kernel
  obtain ⟨joined, joins⟩ := newcomers_run steps
  obtain ⟨_, goes⟩ := joins 4 (.hook 4 (.blank [] 1) .return_) held rfl unknown idle
  exact ⟨⟨loose, joined newest loose⟩, goes⟩

/-- A thread that is attached while another one is stopped runs. -/
theorem attached_not_suspended :
    ¬∀ steps reason, let session := ({} : Session).run steps
      session.debugger.control.state = .stopped reason →
        ∀ thread ∈ session.debugger.registry.threads,
          thread.phase ≠ .running ∧ thread.phase ≠ .stepping := by
  intro suspends
  let steps : List Step := [
    .request { seq := 1, command := "configurationDone" },
    .request { seq := 2, command := "launch", arguments := some (.object []) },
    .exception 1 (.blank [] 1) .uncaught "failed",
    .attach 2]
  have listed : ({ id := 2, handle := 2 } : Thread) ∈
      (({} : Session).run steps).debugger.registry.threads := by decide +kernel
  exact (suspends steps .exception (by decide +kernel) _ listed).1 rfl

end Session
end DebugAdapter
