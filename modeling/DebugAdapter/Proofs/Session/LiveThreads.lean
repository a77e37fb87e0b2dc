import DebugAdapter.Proofs.Session.FastPath

/-! Stops and steps concern threads that are registered, as long as a thread detaches only while it
is in no call. A step that is under way is dropped when its thread detaches; but a thread that
detaches inside of a call may yet be said to stop, and be let go with a step that none is left to
make. -/
namespace DebugAdapter

/-- A thread that detaches is in no call. -/
def Step.Orderly (session : Session) : Step → Prop
  | .detach handle _ => ∀ call ∈ session.calls, call.handle ≠ handle
  | _ => True

namespace Session

variable {session middle next : Session}

def Orderly (session : Session) : List Step → Prop
  | [] => True
  | step :: rest => step.Orderly session ∧ (session.perform step).1.Orderly rest

/-- As long as a session lasts, its calls are on registered threads, and so is the step that is
under way. -/
structure Attended (session : Session) : Prop where
  callers : session.debugger.control.state ≠ .terminated → ∀ call ∈ session.calls,
    (call.thread, call.handle) ∈ session.debugger.registry.roster
  stepper : session.debugger.control.state ≠ .terminated →
    ∀ target, session.debugger.control.step = some target →
      ∃ handle, (target.thread, handle) ∈ session.debugger.registry.roster

theorem attended_new : ({} : Session).Attended :=
  ⟨fun _ _ member => absurd member List.not_mem_nil, fun _ _ armed => by contradiction⟩

theorem attended_over (ends : next.debugger.control.state = .terminated) : next.Attended :=
  ⟨fun live => absurd ends live, fun live => absurd ends live⟩

theorem Attended.frame (attended : session.Attended)
    (live : session.debugger.control.state = .terminated →
      next.debugger.control.state = .terminated)
    (roster : session.debugger.registry.roster ⊆ next.debugger.registry.roster)
    (calls : next.calls ⊆ session.calls)
    (step : ∀ target, next.debugger.control.step = some target →
      session.debugger.control.step = some target) : next.Attended := by
  refine ⟨fun lasts call member => ?_, fun lasts target armed => ?_⟩
  · exact roster (attended.callers (mt live lasts) call (calls member))
  · obtain ⟨handle, listed⟩ := attended.stepper (mt live lasts) target (step target armed)
    exact ⟨handle, roster listed⟩

theorem Attended.same (attended : session.Attended)
    (control : next.debugger.control = session.debugger.control)
    (roster : next.debugger.registry.roster = session.debugger.registry.roster)
    (calls : next.calls = session.calls) : next.Attended :=
  attended.frame (control ▸ id) (roster ▸ List.Subset.refl _) (calls ▸ List.Subset.refl _)
    (control ▸ fun _ => id)

theorem Aside.attended (aside : Aside session next) (attended : session.Attended) :
    next.Attended := by
  cases aside with
  | note | finish => exact attended.same rfl rfl rfl
  | discover interpreter chunk =>
    obtain ⟨_, _, _, _, same⟩ := discover_spec session interpreter chunk
    rw [same]
    exact attended.same rfl rfl rfl

theorem attach_attended (attended : session.Attended) (handle : Nat) :
    (session.attach handle).1.Attended := by
  have grows : session.debugger.registry.roster ⊆
      (session.debugger.registry.attach handle).1.roster := by
    rcases (Registry.attach_spec session.debugger.registry handle).2 with
      ⟨_, same⟩ | ⟨_, _, roster, _⟩
    · rw [same]
      exact List.Subset.refl _
    · rw [roster]
      exact List.subset_append_left _ _
  exact attended.frame id grows (List.Subset.refl _) fun _ => id

theorem Advance.attended (advance : Advance session next) (attended : session.Attended) :
    next.Attended := by
  cases advance with
  | aside aside => exact aside.attended attended
  | attach handle => exact attach_attended attended handle
  | arrive call live idle listed =>
    refine ⟨fun lasts other member => ?_, attended.stepper⟩
    have arrived : (session.block call).calls = session.calls ++ [call] := by
      simp only [Session.calls, block, List.append_assoc]
    rw [arrived] at member
    rcases List.mem_append.mp member with old | newest
    · exact attended.callers lasts other old
    · obtain rfl := List.mem_singleton.mp newest
      exact listed
  | suspend call =>
    exact attended.same rfl (Registry.modify_roster _ _ fun _ => rfl) rfl
  | wake call =>
    obtain ⟨registry, same, roster, _⟩ := wake_spec session.debugger call
    simp only [modifyDebugger, same]
    exact attended.same rfl roster rfl
  | say | hit => exact attended.same rfl rfl rfl
  | leave call before after waits =>
    refine attended.frame id (List.Subset.refl _) ?_ fun _ => id
    simp only [calls, waits]
    exact ((List.sublist_cons_self call after).append_left before).append_left _ |>.subset
  | stop call before after reason exception control waits free enters =>
    obtain ⟨registry, output, news, _, roster, _, same⟩ := stop_spec { session with
      debugger := { session.debugger with control }
      blocked := before ++ after } call reason exception
    rw [same]
    refine attended.frame (fun ends => absurd ends (Free.state free).1)
      (roster ▸ List.Subset.refl _) ?_ fun target armed => ?_
    · have moved : (call :: (before ++ after)).Perm (before ++ call :: after) :=
        List.perm_middle.symm
      simp only [calls, waits]
      exact List.Subset.trans moved.subset (List.subset_append_right _ _)
    · cases enters.still.symm.trans armed

theorem Advances.attended (advances : Advances session next) (attended : session.Attended) :
    next.Attended := by
  induction advances with
  | refl => exact attended
  | tail _ last ih => exact last.attended ih

theorem releaseIfReady_threads (debugger : Debugger) :
    debugger.releaseIfReady.registry = debugger.registry ∧
      debugger.releaseIfReady.control.step = debugger.control.step ∧
      (debugger.control.state = .terminated →
        debugger.releaseIfReady.control.state = .terminated) := by
  obtain ⟨control, same, rfl | ⟨_, _, done⟩⟩ := debugger.releaseIfReady_spec
  · rw [same]
    exact ⟨rfl, rfl, id⟩
  · obtain ⟨initializing, rfl⟩ := Execution.Control.configurationDone_eq_some.mp done
    rw [same]
    exact ⟨rfl, rfl, fun ends => by simp [initializing] at ends⟩

theorem carryOut_threads {debugger : Debugger} {command : ControlCommand} {request : Request}
    {change : Change} (carried : debugger.carryOut command request = .ok change)
    (lasts : (Command.control command).endsSession = false) :
    change.debugger.registry = debugger.registry ∧
      change.debugger.control.step = debugger.control.step := by
  cases command with
  | handshake | setBreakpoints | setExceptionBreakpoints | pause =>
    obtain ⟨_, _, control, _, _, _, _, _, same, asked, _⟩ := Debugger.carryOut_adjusts carried rfl
    rw [same]
    refine ⟨rfl, ?_⟩
    rcases asked with rfl | ⟨_, paused⟩
    · rfl
    · obtain ⟨_, _, rfl⟩ := Execution.Control.requestPause_eq_some.mp paused
      rfl
  | launch | attach =>
    obtain ⟨_, _, _, _, _, _, _, _, rfl⟩ := Debugger.start_spec carried
    exact ⟨rfl, rfl⟩
  | configurationDone =>
    obtain ⟨_, rfl⟩ := Debugger.configurationDone_spec carried
    exact ⟨rfl, rfl⟩
  | terminate | disconnect => contradiction

theorem conclude_threads (session : Session) (command : ControlCommand) (request : Request) :
    let next := (session.conclude request (session.debugger.carryOut command request)).1
    next.debugger.control.state = .terminated ∨
      (next.debugger.registry = session.debugger.registry ∧
        next.debugger.control.step = session.debugger.control.step) := by
  intro next
  cases outcome : session.debugger.carryOut command request with
  | error failure =>
    obtain ⟨registry, step, _⟩ := releaseIfReady_threads session.debugger
    simp only [next, outcome]
    exact Or.inr ⟨registry, step⟩
  | ok change =>
    obtain ⟨registry, step, ends⟩ := releaseIfReady_threads change.debugger
    simp only [next, outcome]
    cases ending : (Command.control command).endsSession with
    | false =>
      obtain ⟨kept, still⟩ := carryOut_threads outcome ending
      exact Or.inr ⟨registry.trans kept, step.trans still⟩
    | true =>
      obtain ⟨exit, finished⟩ := Debugger.carryOut_ends request ending
      cases (finished session.debugger).symm.trans outcome
      exact Or.inl (ends (close_ended session request exit).state)

theorem handle_threads (session : Session) (request : Request) :
    let next := (session.handle request).1
    next.debugger.control.state = .terminated ∨
      (next.debugger.registry = session.debugger.registry ∧
        next.debugger.control.step = session.debugger.control.step) := by
  cases session.handling request with
  | other _ taken | unknown _ _ taken | late _ _ _ _ _ taken | deferred _ _ _ _ _ taken
  | unserved _ _ _ _ _ taken =>
    rw [taken]
    exact Or.inr ⟨rfl, rfl⟩
  | control command _ _ _ taken =>
    rw [taken]
    exact conclude_threads session command request

theorem handle_attended (coherent : session.Coherent) (attended : session.Attended)
    (request : Request) : (session.handle request).1.Attended := by
  rcases handle_threads session request with ends | ⟨registry, step⟩
  · exact attended_over ends
  · obtain ⟨stopped, blocked, _⟩ := handle_calls session request
    have same : (session.handle request).1.calls = session.calls := by
      simp only [calls, stopped, blocked]
    exact attended.frame ((handle_acts coherent request).ended coherent)
      (registry ▸ List.Subset.refl _) (same ▸ List.Subset.refl _) fun _ armed => step ▸ armed

theorem handleAll_attended (coherent : session.Coherent) (attended : session.Attended)
    (requests : List Request) : (session.handleAll requests).1.Attended := by
  induction requests generalizing session with
  | nil => exact attended
  | cons request rest ih =>
    exact ih ((handle_acts coherent request).coherent coherent)
      (handle_attended coherent attended request)

theorem returned_attended {call : Call} {value : Bool} (attended : session.Attended) :
    (session.returned call value).Attended := by
  unfold returned
  split
  · exact attended.same rfl rfl rfl
  · split
    · exact attended_over (shutdown_ended session).state
    · exact attended.same rfl rfl rfl

theorem release_attended {stop : Stop} (attended : session.Attended) :
    (session.release stop).Attended := by
  have roster := runThreads_roster session.debugger stop.call.thread
  have fewer : session.blocked ⊆ session.calls := List.subset_append_right _ _
  rw [release_eq]
  exact returned_attended (attended.frame id (roster ▸ List.Subset.refl _) fewer fun _ => id)

/-- The thread that is let go is registered, and no other may step. -/
theorem resume_attended (valid : session.debugger.control.Valid) (attended : session.Attended)
    {reason : Execution.StopReason} (state : session.debugger.control.state = .stopped reason)
    {stop : Stop} (held : session.stopped = some stop) {how : Resume} :
    (session.resume stop how).Attended := by
  have live : session.debugger.control.state ≠ .terminated := by simp [state]
  unfold resume
  dsimp only
  split
  · rename_i control resumed
    refine release_attended ⟨fun _ => attended.callers live, fun _ target armed => ?_⟩
    have own := Execution.Control.resume_owner valid state resumed target armed
    rw [own]
    exact ⟨stop.call.handle, attended.callers live stop.call (by simp [calls, held])⟩
  · exact release_attended attended

theorem serveNext_attended (coherent : session.Coherent) (attended : session.Attended) :
    session.serveNext.Attended := by
  unfold serveNext
  split
  · rename_i stop deferred rest held waiting
    obtain ⟨reason, state⟩ := coherent.queued.state (by simp [waiting])
    dsimp only
    generalize outcome : (Debugger.inspect _ stop deferred).outcome = answer
    cases answer with
    | error failure => exact attended.same rfl rfl rfl
    | ok reply =>
      obtain ⟨sources, same⟩ := Debugger.inspect_sources outcome
      have control : reply.debugger.control = session.debugger.control := by rw [same]; rfl
      have roster : reply.debugger.registry.roster = session.debugger.registry.roster := by
        rw [same]; rfl
      have replied : ∀ next : Session, next.debugger = reply.debugger →
          next.stopped = some { stop with framesFetched := reply.framesFetched } →
          next.blocked = session.blocked → next.Attended := by
        intro next debugger stopped blocked
        refine attended.same (debugger ▸ control) (debugger ▸ roster) ?_
        simp only [Session.calls, stopped, blocked, held, Option.map_some]
      simp only [Session.reply]
      split
      · have valid : reply.debugger.control.Valid := control ▸ coherent.control
        have stays : reply.debugger.control.state = .stopped reason := control ▸ state
        apply resume_attended
        · exact valid
        · exact replied _ rfl rfl rfl
        · exact stays
        · rfl
      · exact replied _ rfl rfl rfl
  · exact attended

theorem rounds_attended (requests : List Deferred) (coherent : session.Coherent)
    (attended : session.Attended) :
    (requests.foldl (fun session _ => session.serveNext) session).Attended := by
  induction requests generalizing session with
  | nil => exact attended
  | cons request rest ih =>
    exact ih ((serveNext_acts coherent).coherent coherent) (serveNext_attended coherent attended)

theorem settle_attended (coherent : session.Coherent) (drained : session.debugger.queue = [])
    (attended : session.Attended) : session.settle.Attended := by
  by_cases ends : session.debugger.control.state = .terminated
  · exact attended_over ((settle_over drained coherent ends).1.ended coherent ends)
  · have settled : session.Settled := ⟨coherent, drained, fun ended => absurd ended ends⟩
    exact (settle_advances settled).attended attended

theorem serve_attended (coherent : session.Coherent) (attended : session.Attended) :
    session.serve.settle.Attended := by
  obtain ⟨served, drained⟩ := serve_acts coherent
  exact settle_attended (served.coherent coherent) drained
    (rounds_attended session.debugger.queue coherent attended)

theorem batch_attended (coherent : session.Coherent) (attended : session.Attended)
    (requests : List Request) : (session.batch requests).1.Attended := by
  rcases batch_gathers session requests with ⟨_, same⟩ | ⟨middle, gathers, same⟩
  · rwa [same]
  · rw [same]
    refine serve_attended (gathers.coherent coherent) ?_
    cases gathers with
    | turns => exact handleAll_attended coherent attended requests
    | busy first rest asked outcome =>
      have handled :=
        handleAll_attended (coherent.note asked) (attended.same rfl rfl rfl) rest
      exact handled.same rfl rfl rfl

/-- A thread that is in no call takes nothing with it but a step that it makes, and that is dropped. -/
theorem detach_attended (coherent : session.Coherent) (attended : session.Attended) {handle : Nat}
    (idle : ∀ call ∈ session.calls, call.handle ≠ handle) (announce : Bool) :
    (session.detach handle announce).1.Attended := by
  cases detached : session.debugger.detach handle announce with
  | none =>
    simp only [detach, detached]
    exact attended
  | some result =>
    obtain ⟨debugger, events⟩ := result
    obtain ⟨⟨registry, gone, left, rfl⟩, _⟩ := Debugger.detach_spec detached
    obtain ⟨listed, stay⟩ := Registry.detach_others left
    have fewer := (Registry.detach_spec left).1
    simp only [detach, detached]
    cases abandoned : session.debugger.control.abandonStep gone.id with
    | some control =>
      obtain ⟨⟨target, armed, _⟩, rfl⟩ :=
        Execution.Control.abandonStep_spec coherent.control abandoned
      have live : session.debugger.control.state ≠ .terminated := fun ends => by
        simp [coherent.control.step_none (by simp [ends])] at armed
      refine ⟨fun _ call member => ?_, fun _ other armed => by contradiction⟩
      exact stay _ (attended.callers live call member) (idle call member)
    | none =>
      have unarmed := Execution.Control.abandonStep_eq_none.mp abandoned
      refine ⟨fun live call member => ?_, fun live target armed => ?_⟩
      · exact stay _ (attended.callers live call member) (idle call member)
      · obtain ⟨other, registered⟩ := attended.stepper live target armed
        refine ⟨other, stay _ registered fun same => unarmed target armed ?_⟩
        exact coherent.callers.registry.holder listed (same ▸ registered)

/-- Detaching the thread that makes the step under way lets the program run. -/
theorem detach_runs (valid : session.debugger.control.Valid) {handle : Nat} {thread : Thread}
    (known : session.debugger.registry.findByHandle? handle = some thread)
    {target : Execution.StepTarget} (armed : session.debugger.control.step = some target)
    (own : target.thread = thread.id) (announce : Bool) :
    (session.detach handle announce).1.debugger.control.state = .running ∧
      (session.detach handle announce).1.debugger.control.step = none := by
  cases abandoned : session.debugger.control.abandonStep thread.id with
  | none => exact absurd own (Execution.Control.abandonStep_eq_none.mp abandoned target armed)
  | some control =>
    obtain ⟨_, rfl⟩ := Execution.Control.abandonStep_spec valid abandoned
    obtain ⟨rest, gone, -, -⟩ := Registry.detach_known known
    simp only [detach, Debugger.detach, gone, Option.map_some, abandoned, emit, send]
    exact ⟨rfl, rfl⟩

theorem capture_attended (attended : session.Attended) (category : Output.Category)
    (bytes : List UInt8) (attribution : Option Output.Attribution) :
    (session.capture category bytes attribution).Attended := by
  obtain ⟨_, _, _, same⟩ := capture_spec session category bytes attribution
  rw [same]
  exact attended.same rfl rfl rfl

theorem configure_attended (attended : session.Attended)
    (change : Except Config.Error Config.Store) : (session.configure change).1.Attended := by
  obtain ⟨_, _, _, _, _, _, same⟩ := configure_spec session change
  rw [same]
  exact attended.same rfl rfl rfl

theorem origin_attended (attended : session.Attended) (place : Option (Interpreter × Nat)) :
    (session.origin place).1.Attended := by
  cases place with
  | none => exact attended
  | some place => exact (Aside.discover place.1 place.1.chunk).attended attended

theorem perform_attended (settled : session.Settled) (attended : session.Attended) {step : Step}
    (orderly : step.Orderly session) : (session.perform step).1.Attended := by
  have coherent := settled.coherent
  cases step with
  | request request =>
    exact serve_attended ((handle_acts coherent request).coherent coherent)
      (handle_attended coherent attended request)
  | batch requests => exact batch_attended coherent attended requests
  | hook | lines | exception | panic | attach =>
    exact (perform_advances settled rfl).attended attended
  | detach handle announce => exact detach_attended coherent attended orderly announce
  | print bytes place =>
    have found := origin_attended attended place
    simp only [perform, print]
    split
    · exact capture_attended found _ _ _
    · exact found
  | capture category bytes place =>
    exact capture_attended (origin_attended attended place) category bytes _
  | native stream bytes =>
    simp only [perform, native]
    split
    · exact capture_attended attended _ _ _
    · exact attended
  | updateConfig update => exact configure_attended attended _
  | loadDefaults path content => exact configure_attended attended _
  | config => exact attended
  | shutdown =>
    have ended : Act session none session.shutdown.1 := .shutdown
    exact settle_attended (ended.coherent coherent) ((Acts.still ended).drained settled.drained)
      (attended_over (shutdown_ended session).state)

theorem run_attended (settled : session.Settled) (attended : session.Attended) {steps : List Step}
    (orderly : session.Orderly steps) : (session.run steps).Attended := by
  induction steps generalizing session with
  | nil => exact attended
  | cons step rest ih =>
    obtain ⟨first, later⟩ := orderly
    exact ih (perform_settled settled step) (perform_attended settled attended first) later

theorem Orderly.last {steps : List Step} {step : Step} (orderly : session.Orderly (steps ++ [step])) :
    session.Orderly steps ∧ step.Orderly (session.run steps) := by
  induction steps generalizing session with
  | nil => exact ⟨trivial, orderly.1⟩
  | cons first rest ih =>
    obtain ⟨now, later⟩ := orderly
    obtain ⟨before, last⟩ := ih later
    exact ⟨⟨now, before⟩, last⟩

def Registers (session : Session) (id : Nat) : Prop :=
  ∃ thread ∈ session.debugger.registry.threads, thread.id = id

theorem registers_of_roster {id handle : Nat}
    (listed : (id, handle) ∈ session.debugger.registry.roster) : session.Registers id := by
  obtain ⟨thread, member, same⟩ := List.mem_map.mp listed
  exact ⟨thread, member, (Prod.mk.inj same).1⟩

/-- If threads detach only while they are in no call, every stop that a client is told of is on a
registered thread, and so is every step that is under way. When the thread of a step detaches, the
step is dropped and the program runs. -/
theorem stops_and_steps_live (steps : List Step) (step : Step) :
    let session := ({} : Session).run steps
    let next := (session.perform step).1
    (({} : Session).Orderly (steps ++ [step]) →
      (∃ sent, next.outbox = session.outbox ++ sent ∧
        ∀ thread reason exception, .event (.stopped thread reason exception) ∈ sent →
          next.Registers thread) ∧
      ∀ kind, next.debugger.control.state = .stepping kind →
        ∃ target, next.debugger.control.step = some target ∧ next.Registers target.thread) ∧
    ∀ handle announce thread target,
      session.debugger.registry.findByHandle? handle = some thread →
      session.debugger.control.step = some target → target.thread = thread.id →
      (session.detach handle announce).1.debugger.control.state = .running ∧
        (session.detach handle announce).1.debugger.control.step = none := by
  intro session next
  have settled : session.Settled := run_settled steps
  have after : next.Settled := perform_settled settled step
  refine ⟨fun orderly => ?_, fun handle announce thread target known armed own =>
    detach_runs settled.coherent.control known armed own announce⟩
  obtain ⟨before, last⟩ := orderly.last
  have attended : next.Attended :=
    perform_attended settled (run_attended settled_new attended_new before) last
  refine ⟨?_, fun kind state => ?_⟩
  · obtain ⟨sent, outbox, _, stops⟩ := perform_follows settled step
    refine ⟨sent, outbox, fun thread reason exception member => ?_⟩
    obtain ⟨state, stopper⟩ :=
      Execution.Control.turn_eq_client (stops thread reason (marks_stopped member))
    have live : next.debugger.control.state ≠ .terminated := by simp [next, state]
    obtain ⟨stop, held, rfl⟩ :=
      Option.map_eq_some_iff.mp ((after.coherent.holder live).symm.trans stopper)
    exact registers_of_roster (attended.callers live stop.call (by simp [calls, held]))
  · obtain ⟨target, armed, _⟩ :=
      Option.map_eq_some_iff.mp ((after.coherent.control.stepping kind).mp state)
    obtain ⟨handle, listed⟩ := attended.stepper (by simp [state]) target armed
    exact ⟨target, armed, registers_of_roster listed⟩

/-- While one thread is stopped another one detaches, and then the first begins a step. -/
theorem step_live :
    let start : List Step := [
      .request { seq := 1, command := "configurationDone" },
      .request { seq := 2, command := "launch", arguments := some (.object []) },
      .attach 2,
      .exception 1 (.blank [] 1) .uncaught "failed",
      .detach 2 true]
    let asked : Step := .request {
      seq := 3, command := "next", arguments := some (.object [("threadId", .ofNat 2)]) }
    let begun := ((({} : Session).run start).perform asked).1
    begun.debugger.control.state = .stepping .over ∧
      ∃ target, begun.debugger.control.step = some target ∧ begun.Registers target.thread := by
  intro start asked begun
  have stepping : begun.debugger.control.state = .stepping .over := by decide +kernel
  have idle : ∀ call ∈ (({} : Session).run (start.take 4)).calls, call.handle ≠ 2 := by
    decide +kernel
  have orderly : ({} : Session).Orderly (start ++ [asked]) :=
    ⟨trivial, trivial, trivial, trivial, idle, trivial, trivial⟩
  exact ⟨stepping, ((stops_and_steps_live start asked).1 orderly).2 .over stepping⟩

/-- A thread that detaches while it is held back is still stopped on entry, and one that detaches
while it is stopped can still be let go with a step. -/
theorem detached_stops_and_steps :
    (¬∀ steps step, let session := ({} : Session).run steps
      let next := (session.perform step).1
      ∃ sent, next.outbox = session.outbox ++ sent ∧
        ∀ thread reason exception, .event (.stopped thread reason exception) ∈ sent →
          next.Registers thread) ∧
      ¬∀ steps kind, let session := ({} : Session).run steps
        session.debugger.control.state = .stepping kind →
          ∃ target, session.debugger.control.step = some target ∧
            session.Registers target.thread := by
  refine ⟨fun stops => ?_, fun stepping => ?_⟩
  · let start : List Step := [
      .hook 1 (.blank [] 1) (.line 3),
      .detach 1 true,
      .request { seq := 1, command := "configurationDone" }]
    let launch : Step := .request {
      seq := 2
      command := "launch"
      arguments := some (.object [("stopOnEntry", .bool true)]) }
    obtain ⟨sent, outbox, registered⟩ := stops start launch
    have marked : marks ((({} : Session).run start).perform launch).1.outbox =
        [.stopped 1 .entry] := by decide +kernel
    have unmarked : marks (({} : Session).run start).outbox = [] := by decide +kernel
    rw [outbox, marks_append, unmarked, List.nil_append] at marked
    obtain ⟨exception, member⟩ := stopped_of_marks (marked ▸ List.mem_singleton_self _)
    obtain ⟨thread, listed, _⟩ := registered 1 .entry exception member
    have bare : ((({} : Session).run start).perform launch).1.debugger.registry.threads = [] := by
      decide +kernel
    simp [bare] at listed
  · let steps : List Step := [
      .request { seq := 1, command := "configurationDone" },
      .request { seq := 2, command := "launch", arguments := some (.object []) },
      .exception 1 (.blank [] 1) .uncaught "failed",
      .detach 1 true,
      .request { seq := 3, command := "next", arguments := some (.object [("threadId", .ofNat 1)]) }]
    obtain ⟨target, _, thread, listed, _⟩ := stepping steps .over (by decide +kernel)
    have bare : (({} : Session).run steps).debugger.registry.threads = [] := by decide +kernel
    simp [bare] at listed

end Session
end DebugAdapter
