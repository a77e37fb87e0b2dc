import DebugAdapter.Proofs.Session.Effect
import Mathlib.Data.List.Perm.Subperm

/-! The control, the stopped call, the calls that wait and the queue of a session fit together, and
every move keeps them so. -/
namespace DebugAdapter.Session

/-- Each call is on a thread of its own, and the registry gives its identifier to nobody else. -/
structure Callers (session : Session) : Prop where
  registry : session.debugger.registry.Valid
  handles : (session.calls.map (·.handle)).Nodup
  threads : (session.calls.map (·.thread)).Nodup
  known : ∀ call ∈ session.calls, session.debugger.registry.Knows call.thread call.handle

/-- Requests are queued only while a thread is stopped, and only such as it answers. -/
structure Queued (session : Session) : Prop where
  commands : ∀ deferred ∈ session.debugger.queue,
    Command.ofName? deferred.request.command = some (.stopped deferred.command)
  served : session.debugger.queue ≠ [] → session.debugger.control.isStopped none = true

structure Coherent (session : Session) : Prop where
  control : session.debugger.control.Valid
  released : session.debugger.configured = true → session.debugger.launched = true →
    session.debugger.control.state ≠ .initializing
  holder : session.debugger.control.state ≠ .terminated →
    session.debugger.control.stopper = session.stopped.map (·.call.thread)
  queued : session.Queued
  callers : session.Callers

/-- What the coherence of a session rests on is the same in both. -/
structure Unmoved (session next : Session) : Prop where
  control : next.debugger.control = session.debugger.control
  configured : next.debugger.configured = session.debugger.configured
  launched : next.debugger.launched = session.debugger.launched
  queue : next.debugger.queue = session.debugger.queue
  roster : next.debugger.registry.roster = session.debugger.registry.roster
  lastId : next.debugger.registry.lastId = session.debugger.registry.lastId
  stopped : next.stopped.map (·.call) = session.stopped.map (·.call)
  blocked : next.blocked = session.blocked

variable {session next : Session} {call : Call} {request : Option Request}

theorem Unmoved.calls (unmoved : Unmoved session next) : next.calls = session.calls := by
  simp only [Session.calls, unmoved.stopped, unmoved.blocked]

theorem Callers.shrink (callers : session.Callers) (fewer : next.calls.Subperm session.calls)
    (kept : next.debugger.registry.roster.Sublist session.debugger.registry.roster)
    (same : next.debugger.registry.lastId = session.debugger.registry.lastId) : next.Callers := by
  obtain ⟨some, permuted, sublist⟩ := fewer
  refine ⟨next.debugger.registry.valid, ?_, ?_, ?_⟩
  · exact (permuted.map _).nodup_iff.mp (callers.handles.sublist (sublist.map _))
  · exact (permuted.map _).nodup_iff.mp (callers.threads.sublist (sublist.map _))
  · intro call member
    exact (callers.known call (sublist.subset (permuted.mem_iff.mpr member))).sublist kept same

theorem Callers.unmoved (callers : session.Callers) (unmoved : Unmoved session next) : next.Callers :=
  callers.shrink (unmoved.calls ▸ List.Subperm.refl _) (unmoved.roster ▸ List.Sublist.refl _) unmoved.lastId

theorem Queued.unmoved (queued : session.Queued) (unmoved : Unmoved session next) : next.Queued :=
  ⟨by rw [unmoved.queue]; exact queued.commands,
    by rw [unmoved.queue, unmoved.control]; exact queued.served⟩

theorem Coherent.unmoved (coherent : session.Coherent) (unmoved : Unmoved session next) :
    next.Coherent := by
  have thread : next.stopped.map (·.call.thread) = session.stopped.map (·.call.thread) := by
    have same := congrArg (Option.map Call.thread) unmoved.stopped
    simpa only [Option.map_map, Function.comp_def] using same
  refine ⟨?_, ?_, ?_, coherent.queued.unmoved unmoved, coherent.callers.unmoved unmoved⟩
  · rw [unmoved.control]
    exact coherent.control
  · rw [unmoved.control, unmoved.configured, unmoved.launched]
    exact coherent.released
  · rw [unmoved.control, thread]
    exact coherent.holder

theorem coherent_new : ({} : Session).Coherent where
  control := Execution.Control.valid_new
  released := by simp
  holder := by simp
  queued := ⟨by simp, by simp⟩
  callers := ⟨Registry.valid _, by simp [calls], by simp [calls], by simp [calls]⟩

/-- The calls that wait are on other threads than the one that is stopped. -/
theorem Callers.others (callers : session.Callers) {stop : Stop} (held : session.stopped = some stop)
    (member : call ∈ session.blocked) : call.thread ≠ stop.call.thread := by
  have distinct := callers.threads
  simp only [calls, held, Option.map_some, Option.toList_some, List.singleton_append,
    List.map_cons, List.nodup_cons] at distinct
  exact fun same => distinct.1 (List.mem_map.mpr ⟨call, member, same⟩)

/-- A call that waits may run only if no thread is stopped. -/
theorem Coherent.alone (coherent : session.Coherent) (member : call ∈ session.blocked)
    (free : session.Free call) :
    session.stopped = none ∧ session.debugger.control.stopper = none := by
  obtain ⟨live, unblocked⟩ := Execution.Control.waitUntilRunnable_eq_true.mp free
  have holder := coherent.holder live
  cases stopped : session.stopped with
  | none => exact ⟨rfl, by rw [holder, stopped]; rfl⟩
  | some stop =>
    have same : stop.call.thread = call.thread := by
      simpa [Execution.Control.blocks, Execution.Control.heldByOther, holder, stopped] using
        (Bool.or_eq_false_iff.mp unblocked).2
    exact absurd same.symm (coherent.callers.others stopped member)

theorem Coherent.queue_of_unstopped (coherent : session.Coherent)
    (free : session.debugger.control.stopper = none) : session.debugger.queue = [] := by
  by_contra waiting
  have stopped := coherent.queued.served waiting
  unfold Execution.Control.isStopped at stopped
  split at stopped
  · rename_i held
    simp [free] at held
  · contradiction

theorem Queued.state (queued : session.Queued) (waiting : session.debugger.queue ≠ []) :
    ∃ reason, session.debugger.control.state = .stopped reason := by
  have stopped := queued.served waiting
  unfold Execution.Control.isStopped at stopped
  split at stopped
  · rename_i reason _ state _
    exact ⟨reason, state⟩
  · contradiction

/-- Requests are queued only for a thread that is stopped. -/
theorem Coherent.serving (coherent : session.Coherent) (waiting : session.debugger.queue ≠ []) :
    ∃ stop, session.stopped = some stop ∧
      session.debugger.control.stopper = some stop.call.thread := by
  obtain ⟨reason, state⟩ := coherent.queued.state waiting
  have held := coherent.control.stopped.mp ⟨reason, state⟩
  have holder := coherent.holder (by simp [state])
  cases stopped : session.stopped with
  | none => simp [holder, stopped] at held
  | some stop => exact ⟨stop, rfl, by rw [holder, stopped]; rfl⟩

/-- A thread that is stopped answers requests, as long as the session lasts. -/
theorem Coherent.isStopped (coherent : session.Coherent)
    (live : session.debugger.control.state ≠ .terminated) {stop : Stop}
    (held : session.stopped = some stop) : session.debugger.control.isStopped none = true := by
  have stopper : session.debugger.control.stopper = some stop.call.thread := by
    rw [coherent.holder live, held, Option.map_some]
  obtain ⟨reason, state⟩ := coherent.control.stopped.mpr (by simp [stopper])
  simp [Execution.Control.isStopped, state, stopper]

theorem Aside.coherent (aside : Aside session next) (coherent : session.Coherent) :
    next.Coherent := by
  cases aside with
  | note | finish => exact coherent.unmoved ⟨rfl, rfl, rfl, rfl, rfl, rfl, rfl, rfl⟩
  | discover interpreter chunk =>
    obtain ⟨sources, callbacks, news, _, same⟩ := discover_spec session interpreter chunk
    rw [same]
    exact coherent.unmoved ⟨rfl, rfl, rfl, rfl, rfl, rfl, rfl, rfl⟩

theorem Coherent.attach (coherent : session.Coherent) (handle : Nat) :
    (session.attach handle).1.Coherent := by
  refine ⟨coherent.control, coherent.released, coherent.holder, ⟨?_, ?_⟩, ?_⟩
  · exact coherent.queued.commands
  · exact coherent.queued.served
  · refine ⟨Registry.valid _, coherent.callers.handles,
      coherent.callers.threads, ?_⟩
    intro call member
    exact (coherent.callers.known call member).attach handle

theorem Coherent.arrive (coherent : session.Coherent)
    (idle : ∀ other ∈ session.calls, other.handle ≠ call.handle)
    (listed : (call.thread, call.handle) ∈ session.debugger.registry.roster) :
    (session.block call).Coherent := by
  have calls : (session.block call).calls = session.calls ++ [call] := by
    simp only [Session.calls, block, List.append_assoc]
  refine ⟨coherent.control, coherent.released, coherent.holder,
    ⟨coherent.queued.commands, coherent.queued.served⟩, coherent.callers.registry, ?_, ?_, ?_⟩
  · rw [calls, List.map_append, List.nodup_append]
    refine ⟨coherent.callers.handles, by simp, ?_⟩
    intro handle member last newest
    obtain ⟨other, inside, rfl⟩ := List.mem_map.mp member
    obtain rfl : last = call.handle := by simpa using newest
    exact idle other inside
  · rw [calls, List.map_append, List.nodup_append]
    refine ⟨coherent.callers.threads, by simp, ?_⟩
    intro thread member last newest
    obtain ⟨other, inside, rfl⟩ := List.mem_map.mp member
    obtain rfl : last = call.thread := by simpa using newest
    intro same
    have owner := (coherent.callers.known other inside).owner call.handle (same ▸ listed)
    exact idle other inside owner.symm
  · intro other member
    rw [calls] at member
    rcases List.mem_append.mp member with old | newest
    · exact coherent.callers.known other old
    · obtain rfl := List.mem_singleton.mp newest
      exact coherent.callers.registry.knows listed

theorem Coherent.stop (coherent : session.Coherent) {before after : List Call}
    {reason : Execution.StopReason} {control : Execution.Control}
    (exception : Option ExceptionRecord) (waits : session.blocked = before ++ call :: after)
    (free : session.Free call)
    (enters : session.debugger.control.Enters call.thread reason control) :
    (Session.stop
      { session with
        debugger := { session.debugger with control }
        blocked := before ++ after } call reason exception).Coherent := by
  have member : call ∈ session.blocked := by simp [waits]
  obtain ⟨unstopped, unheld⟩ := coherent.alone member free
  have queue := coherent.queue_of_unstopped unheld
  obtain ⟨registry, output, news, _, roster, lastId, same⟩ := stop_spec { session with
    debugger := { session.debugger with control }
    blocked := before ++ after } call reason exception
  rw [same]
  refine ⟨enters.valid coherent.control, ?_, fun _ => enters.stopper,
    ⟨coherent.queued.commands, fun waiting => absurd queue waiting⟩,
    coherent.callers.shrink ?_ ?_ lastId⟩
  · intro _ _ initializing
    cases enters.state.symm.trans initializing
  · have moved : (call :: (before ++ after)).Subperm (before ++ call :: after) :=
      List.perm_middle.symm.subperm
    simp only [calls, unstopped, waits]
    exact moved
  · exact roster ▸ List.Sublist.refl _

theorem Advance.coherent (advance : Advance session next) (coherent : session.Coherent) :
    next.Coherent := by
  cases advance with
  | aside aside => exact aside.coherent coherent
  | attach handle => exact coherent.attach handle
  | arrive call _ idle listed => exact coherent.arrive idle listed
  | suspend call =>
    refine coherent.unmoved ⟨rfl, rfl, rfl, rfl, ?_, rfl, rfl, rfl⟩
    exact Registry.modify_roster _ _ fun _ => rfl
  | wake call =>
    obtain ⟨registry, same, roster, lastId⟩ := wake_spec session.debugger call
    apply coherent.unmoved
    simp only [modifyDebugger, same]
    exact ⟨rfl, rfl, rfl, rfl, roster, lastId, rfl, rfl⟩
  | say | hit => exact coherent.unmoved ⟨rfl, rfl, rfl, rfl, rfl, rfl, rfl, rfl⟩
  | leave call before after waits =>
    refine ⟨coherent.control, coherent.released, coherent.holder,
      ⟨coherent.queued.commands, coherent.queued.served⟩,
      coherent.callers.shrink ?_ (List.Sublist.refl _) rfl⟩
    simp only [calls, waits]
    exact ((List.sublist_cons_self call after).append_left before).append_left _ |>.subperm
  | stop call before after reason exception control waits free enters =>
    exact coherent.stop exception waits free enters

theorem Advances.coherent (advances : Advances session next) (coherent : session.Coherent) :
    next.Coherent := by
  induction advances with
  | refl => exact coherent
  | tail _ last ih => exact last.coherent ih

theorem Coherent.paused (coherent : session.Coherent) {control : Execution.Control}
    (paused : session.debugger.control.requestPause = some control) :
    (session.modifyDebugger fun debugger => { debugger with control }).Coherent := by
  have valid := Execution.Control.valid_requestPause coherent.control paused
  obtain ⟨_, _, rfl⟩ := Execution.Control.requestPause_eq_some.mp paused
  exact ⟨valid, coherent.released, coherent.holder,
    ⟨coherent.queued.commands, coherent.queued.served⟩,
    coherent.callers.shrink (.refl _) (.refl _) rfl⟩

/-- Once execution has been released as far as the signals allow, all is in order. -/
theorem Coherent.released_of (control : session.debugger.control.Valid)
    (holder : session.debugger.control.state ≠ .terminated →
      session.debugger.control.stopper = session.stopped.map (·.call.thread))
    (queued : session.Queued) (callers : session.Callers) :
    (session.modifyDebugger (·.releaseIfReady)).Coherent := by
  obtain ⟨next, same, unchanged | ⟨_, _, done⟩⟩ := Debugger.releaseIfReady_spec session.debugger
  · have released := Debugger.releaseIfReady_released session.debugger
    simp only [same, unchanged] at released
    simp only [modifyDebugger, same, unchanged]
    exact ⟨control, released, holder, queued, callers⟩
  · simp only [modifyDebugger, same]
    have valid := Execution.Control.valid_configurationDone control done
    obtain ⟨initializing, rfl⟩ := Execution.Control.configurationDone_eq_some.mp done
    refine ⟨valid, fun _ _ => by simp, fun _ => holder (by simp [initializing]),
      ⟨queued.commands, ?_⟩, callers.shrink (.refl _) (.refl _) rfl⟩
    intro waiting
    obtain ⟨reason, stopped⟩ := queued.state waiting
    simp [initializing] at stopped

theorem Coherent.teardown (coherent : session.Coherent) :
    ({ session with debugger := session.debugger.teardown.1 } : Session).Coherent := by
  have bare : session.debugger.registry.detachAll.1.roster.Sublist
      session.debugger.registry.roster := List.nil_sublist _
  obtain ⟨output, events, _, ⟨control, ended, same⟩ | ⟨_, same⟩⟩ :=
    Debugger.teardown_spec session.debugger
  · simp only [same]
    have valid := Execution.Control.valid_terminate ended
    obtain ⟨_, rfl⟩ := Execution.Control.terminate_eq_some.mp ended
    refine ⟨valid, fun _ _ => by simp [Debugger.bare], fun live => absurd rfl live, ⟨?_, ?_⟩,
      coherent.callers.shrink (.refl _) bare rfl⟩
    · exact fun _ member => absurd member List.not_mem_nil
    · exact fun waiting => absurd rfl waiting
  · simp only [same]
    exact ⟨coherent.control, coherent.released, coherent.holder,
      ⟨coherent.queued.commands, coherent.queued.served⟩,
      coherent.callers.shrink (.refl _) bare rfl⟩

theorem Coherent.dequeue (coherent : session.Coherent) {deferred : Deferred} {rest : List Deferred}
    (waiting : session.debugger.queue = deferred :: rest) :
    (session.modifyDebugger fun debugger => { debugger with queue := rest }).Coherent := by
  refine ⟨coherent.control, coherent.released, coherent.holder, ⟨?_, ?_⟩,
    coherent.callers.shrink (.refl _) (.refl _) rfl⟩
  · intro other member
    exact coherent.queued.commands other (waiting ▸ List.mem_cons_of_mem deferred member)
  · exact fun _ => coherent.queued.served (by simp [waiting])

theorem runThreads_roster (debugger : Debugger) (thread : Nat) :
    (runThreads debugger thread).registry.roster = debugger.registry.roster :=
  Registry.update_roster _ fun _ => rfl

theorem Coherent.letGo (coherent : session.Coherent) {stop : Stop} {depth : Nat}
    {step : Option Execution.StepKind} {control : Execution.Control} (answered : Request)
    (body : Body) (refused : List Deferred)
    (resumed : session.debugger.control.resume stop.call.thread step depth = some control) :
    (session.letGo stop answered body control refused).Coherent := by
  have valid := Execution.Control.valid_resume coherent.control resumed
  have held := (Execution.Control.resume_eq_some.mp resumed).1
  obtain ⟨reason, stopped⟩ := coherent.control.stopped.mpr (by simp [held])
  obtain ⟨begun, _, _, free⟩ := Execution.Control.resume_runs stopped resumed
  refine ⟨valid, fun _ _ => begun, fun _ => free, ⟨?_, ?_⟩, coherent.callers.shrink ?_ ?_ rfl⟩
  · exact fun _ member => absurd member List.not_mem_nil
  · exact fun waiting => absurd rfl waiting
  · simp only [calls]
    exact (List.sublist_append_right _ session.blocked).subperm
  · change List.Sublist (runThreads _ stop.call.thread).registry.roster _
    rw [runThreads_roster]

theorem Coherent.detach (coherent : session.Coherent) (handle : Nat) (announce : Bool) :
    (session.detach handle announce).1.Coherent := by
  obtain ⟨registry, control, news, _, kept, lastId, valid, changed, same⟩ :=
    detach_spec coherent.control handle announce
  have callers : ({ session with
      debugger := { session.debugger with registry, control }
      outbox := session.outbox ++ news } : Session).Callers :=
    coherent.callers.shrink (.refl _) kept lastId
  rw [same]
  rcases changed with rfl | ⟨⟨kind, stepping⟩, rfl⟩
  · exact ⟨coherent.control, coherent.released, coherent.holder,
      ⟨coherent.queued.commands, coherent.queued.served⟩, callers⟩
  · refine ⟨valid, fun _ _ => by simp, fun _ => ?_,
      ⟨coherent.queued.commands, ?_⟩, callers⟩
    · exact coherent.holder (by simp [stepping])
    · intro waiting
      obtain ⟨reason, stopped⟩ := coherent.queued.state waiting
      simp [stepping] at stopped

theorem Coherent.adjust (coherent : session.Coherent) {taken : Request} {command : ControlCommand}
    {change : Change} (adjusts : command.adjusts = true)
    (carried : session.debugger.carryOut command taken = .ok change) :
    (session.apply taken change).Coherent := by
  obtain ⟨_, _, control, breakpoints, filters, coordinates, initialized, chosen, same, asked, _⟩ :=
    Debugger.carryOut_adjusts carried adjusts
  have adjusted : (session.modifyDebugger fun debugger => { debugger with control }).Coherent := by
    rcases asked with rfl | ⟨_, paused⟩
    · exact coherent
    · exact coherent.paused paused
  apply adjusted.unmoved
  simp only [apply, same]
  exact ⟨rfl, rfl, rfl, rfl, rfl, rfl, rfl, rfl⟩

theorem Act.coherent (act : Act session request next) (coherent : session.Coherent) :
    next.Coherent := by
  cases act with
  | aside aside => exact aside.coherent coherent
  | refuse | evaluate => exact coherent.unmoved ⟨rfl, rfl, rfl, rfl, rfl, rfl, rfl, rfl⟩
  | adjust taken command change _ _ adjusts _ carried => exact coherent.adjust adjusts carried
  | start taken command change _ _ _ _ started =>
    obtain ⟨_, config, events, _, _, _, _, _, rfl⟩ := Debugger.start_spec started
    exact Coherent.released_of coherent.control coherent.holder
      ⟨coherent.queued.commands, coherent.queued.served⟩
      (coherent.callers.shrink (.refl _) (.refl _) rfl)
  | configure taken change _ _ _ done =>
    obtain ⟨_, rfl⟩ := Debugger.configurationDone_spec done
    exact Coherent.released_of coherent.control coherent.holder
      ⟨coherent.queued.commands, coherent.queued.served⟩
      (coherent.callers.shrink (.refl _) (.refl _) rfl)
  | close | shutdown =>
    exact coherent.teardown.unmoved ⟨rfl, rfl, rfl, rfl, rfl, rfl, rfl, rfl⟩
  | defer taken command _ named stopped =>
    refine ⟨coherent.control, coherent.released, coherent.holder, ⟨?_, fun _ => stopped⟩,
      coherent.callers.shrink (.refl _) (.refl _) rfl⟩
    intro deferred member
    rcases List.mem_append.mp member with old | newest
    · exact coherent.queued.commands deferred old
    · obtain rfl := List.mem_singleton.mp newest
      exact named
  | decline deferred rest failure waiting =>
    exact (coherent.dequeue waiting).unmoved ⟨rfl, rfl, rfl, rfl, rfl, rfl, rfl, rfl⟩
  | reply deferred rest stop body fetched waiting stopped =>
    refine (coherent.dequeue waiting).unmoved ⟨rfl, rfl, rfl, rfl, rfl, rfl, ?_, rfl⟩
    simp only [answer, send, modifyDebugger, stopped, Option.map_some]
  | resume deferred rest stop how body control waiting _ _ resumed =>
    exact coherent.letGo deferred.request body rest resumed
  | detach handle announce => exact coherent.detach handle announce
  | capture category bytes attribution =>
    obtain ⟨output, news, _, same⟩ := capture_spec session category bytes attribution
    rw [same]
    exact coherent.unmoved ⟨rfl, rfl, rfl, rfl, rfl, rfl, rfl, rfl⟩
  | reconfigure change =>
    obtain ⟨config, mapping, sources, filters, news, _, same⟩ := configure_spec session change
    rw [same]
    exact coherent.unmoved ⟨rfl, rfl, rfl, rfl, rfl, rfl, rfl, rfl⟩
  | release stop ends stopped =>
    refine ⟨coherent.control, coherent.released, fun live => absurd ends live,
      ⟨coherent.queued.commands, coherent.queued.served⟩, coherent.callers.shrink ?_ ?_ rfl⟩
    · exact (List.sublist_append_right _ session.blocked).subperm
    · change List.Sublist (runThreads _ stop.call.thread).registry.roster _
      rw [runThreads_roster]
  | dismiss call rest ends waits =>
    refine ⟨coherent.control, coherent.released, coherent.holder,
      ⟨coherent.queued.commands, coherent.queued.served⟩,
      coherent.callers.shrink ?_ (.refl _) rfl⟩
    simp only [calls, waits]
    exact ((List.sublist_cons_self call rest).append_left _).subperm

theorem Acts.coherent {taken : List Request} (acts : Acts session taken next)
    (coherent : session.Coherent) : next.Coherent := by
  induction acts with
  | refl => exact coherent
  | tail _ last ih => exact last.coherent ih

end DebugAdapter.Session
