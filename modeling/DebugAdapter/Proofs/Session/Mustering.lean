import DebugAdapter.Proofs.Session.LateEvents

/-! What a session tells of its threads. A thread comes in with an event that it has started, and it
is detached with an event that it has exited; no other move of a session tells of any thread. -/
namespace DebugAdapter

/-- The thread that an event is about, if it tells that a thread has started, or has exited. -/
def Event.thread? (reason : ThreadReason) : Event → Option Nat
  | .thread given id => if given = reason then some id else none
  | _ => none

/-- The threads that messages say to have started, or to have exited, in order. -/
def reported (reason : ThreadReason) (messages : List Message) : List Nat :=
  (events messages).filterMap (Event.thread? reason)

def Event.OfThread : Event → Prop
  | .thread .. => True
  | _ => False

variable {reason : ThreadReason} {id : Nat} {messages more : List Message}

theorem reported_append (reason : ThreadReason) (messages more : List Message) :
    reported reason (messages ++ more) = reported reason messages ++ reported reason more := by
  rw [reported, events_append, List.filterMap_append]
  rfl

theorem mem_reported :
    id ∈ reported reason messages ↔ .event (.thread reason id) ∈ messages := by
  simp only [reported, events, List.mem_filterMap]
  constructor
  · rintro ⟨event, ⟨message, member, sent⟩, about⟩
    cases message with
    | response => contradiction
    | event other =>
      obtain rfl := Option.some.inj sent
      cases other with
      | thread given other =>
        obtain ⟨rfl, rfl⟩ : given = reason ∧ other = id := by simpa [Event.thread?] using about
        exact member
      | _ => contradiction
  · exact fun member => ⟨_, ⟨_, member, rfl⟩, if_pos rfl⟩

theorem thread?_other {sent : List Event} (other : ∀ event ∈ sent, ¬event.OfThread) :
    sent.filterMap (Event.thread? reason) = [] := by
  refine List.filterMap_eq_nil_iff.mpr fun event member => ?_
  cases event with
  | thread => exact absurd trivial (other _ member)
  | _ => rfl

theorem events_refused (failure : Failure) (deferred : List Deferred) :
    events (deferred.map (Debugger.refusal failure)) = [] := by
  rw [events, List.filterMap_map]
  exact List.filterMap_eq_nil_iff.mpr fun _ _ => rfl

namespace Debugger

variable {debugger : Debugger} {event : Event}

theorem flushOutput_other (member : event ∈ debugger.flushOutput.2) : ¬event.OfThread := by
  obtain ⟨chunk, _, rfl⟩ := List.mem_map.mp member
  exact id

theorem capture_other {category : Output.Category} {bytes : List UInt8}
    {attribution : Option Output.Attribution}
    (member : event ∈ (debugger.capture category bytes attribution).2) : ¬event.OfThread := by
  unfold capture at member
  split at member
  · contradiction
  · obtain ⟨chunk, _, rfl⟩ := List.mem_map.mp member
    exact id

theorem resolve_other {interpreter : Interpreter} {chunk : List UInt8}
    (member : event ∈ (debugger.resolve interpreter chunk).events) : ¬event.OfThread := by
  obtain ⟨source, rfl⟩ := Session.resolve_sources event member
  exact id

theorem movedBy_other {change : Except Config.Error Config.Store}
    (member : event ∈ debugger.movedBy change) : ¬event.OfThread := by
  obtain ⟨source, rfl⟩ := Session.movedBy_sources event member
  exact id

theorem teardown_other (member : event ∈ events debugger.teardown.2.1) : ¬event.OfThread := by
  unfold teardown at member
  split at member
  rename_i ending refused first torn
  have none : events refused = [] := by
    split at torn
    · cases torn
      exact events_refused _ _
    · cases torn
      rfl
  rw [events_append, none, events_map] at member
  exact flushOutput_other member

end Debugger

namespace Session

variable {session middle next : Session} {sent : List Event} {handle : Nat}

/-- Nothing is said of threads, and no thread comes in. -/
structure Unheard (session next : Session) : Prop where
  sends : ∃ sent, Sends session next sent ∧ ∀ event ∈ sent, ¬event.OfThread
  ended : next.debugger.control.state = .terminated →
    session.debugger.control.state = .terminated ∨ .event .terminated ∈ next.outbox
  roster : next.debugger.registry.roster ⊆ session.debugger.registry.roster
  lastId : next.debugger.registry.lastId = session.debugger.registry.lastId

/-- A thread comes in under a new identifier; that is said unless the session is over. -/
structure Joins (session next : Session) (handle : Nat) : Prop where
  sends : Sends session next (if session.debugger.control.state = .terminated then []
    else [.thread .started (session.debugger.registry.lastId + 1)])
  state : next.debugger.control.state = session.debugger.control.state
  roster : next.debugger.registry.roster =
    session.debugger.registry.roster ++ [(session.debugger.registry.lastId + 1, handle)]
  lastId : next.debugger.registry.lastId = session.debugger.registry.lastId + 1

/-- A thread goes out, and that is said. -/
structure Parts (session next : Session) (id handle : Nat) : Prop where
  sends : Sends session next [.thread .exited id]
  ended : next.debugger.control.state = .terminated →
    session.debugger.control.state = .terminated
  listed : (id, handle) ∈ session.debugger.registry.roster
  roster : ∀ entry, entry ∈ next.debugger.registry.roster ↔
    entry ∈ session.debugger.registry.roster ∧ entry.2 ≠ handle
  lastId : next.debugger.registry.lastId = session.debugger.registry.lastId

theorem Sends.reports (sends : Sends session next sent) :
    ∃ messages, next.outbox = session.outbox ++ messages ∧
      ∀ reason, reported reason messages = sent.filterMap (Event.thread? reason) := by
  obtain ⟨messages, outbox, rfl⟩ := sends
  exact ⟨messages, outbox, fun _ => rfl⟩

theorem apply_sends (session : Session) (request : Request) (change : Change) :
    Sends session (session.apply request change) (events change.before ++ change.after) := by
  refine ⟨_, apply_outbox session request change, ?_⟩
  simp only [events_append, events_map]
  rfl

theorem shutdown_sends (session : Session) : Sends session session.shutdown.1
    (events session.debugger.teardown.2.1 ++
      if session.debugger.teardown.2.2 then [.terminated] else []) := by
  have first : Sends session ({ session with debugger := session.debugger.teardown.1 }.send
    session.debugger.teardown.2.1) (events session.debugger.teardown.2.1) := ⟨_, rfl, rfl⟩
  exact first.trans (emit_sends _ _)

theorem Unheard.reports (unheard : Unheard session next) :
    ∃ messages, next.outbox = session.outbox ++ messages ∧
      ∀ reason, reported reason messages = [] := by
  obtain ⟨_, sends, other⟩ := unheard.sends
  obtain ⟨messages, outbox, said⟩ := sends.reports
  exact ⟨messages, outbox, fun reason => (said reason).trans (thread?_other other)⟩

theorem Joins.reports (joins : Joins session next handle) :
    ∃ messages, next.outbox = session.outbox ++ messages ∧ reported .exited messages = [] ∧
      (reported .started messages = [] ∧ session.debugger.control.state = .terminated ∨
        reported .started messages = [session.debugger.registry.lastId + 1]) := by
  obtain ⟨messages, outbox, said⟩ := joins.sends.reports
  refine ⟨messages, outbox, ?_, ?_⟩
  · rw [said]
    split <;> rfl
  · rw [said]
    split
    · rename_i ends
      exact .inl ⟨rfl, ends⟩
    · exact .inr rfl

theorem Parts.reports {id : Nat} (parts : Parts session next id handle) :
    ∃ messages, next.outbox = session.outbox ++ messages ∧ reported .exited messages = [id] ∧
      reported .started messages = [] := by
  obtain ⟨messages, outbox, said⟩ := parts.sends.reports
  exact ⟨messages, outbox, said .exited, said .started⟩

/-- Nothing that this depends on is different. -/
theorem unheard_same (sends : Sends session next sent) (other : ∀ event ∈ sent, ¬event.OfThread)
    (state : next.debugger.control.state = .terminated →
      session.debugger.control.state = .terminated)
    (roster : next.debugger.registry.roster = session.debugger.registry.roster)
    (lastId : next.debugger.registry.lastId = session.debugger.registry.lastId) :
    Unheard session next :=
  ⟨⟨sent, sends, other⟩, fun ends => .inl (state ends), roster ▸ List.Subset.refl _, lastId⟩

theorem unheard_silent (outbox : next.outbox = session.outbox)
    (debugger : next.debugger = session.debugger) : Unheard session next :=
  unheard_same (sends_nothing outbox) (List.forall_mem_nil _)
    (fun ends => (congrArg (·.control.state) debugger).symm.trans ends)
    (congrArg (·.registry.roster) debugger) (congrArg (·.registry.lastId) debugger)

theorem Aside.unheard (aside : Aside session next) : Unheard session next := by
  cases aside with
  | note | finish => exact unheard_silent rfl rfl
  | discover interpreter chunk =>
    obtain ⟨⟨sources, same⟩, -⟩ := Debugger.resolve_spec session.debugger interpreter chunk
    have debugger : (session.discover interpreter chunk).debugger =
      { session.debugger with sources } := same
    refine unheard_same ⟨_, rfl, events_map _⟩ (fun _ => Debugger.resolve_other) ?_ ?_ ?_
    all_goals simp only [debugger, imp_self]

theorem attach_joins (coherent : session.Coherent) (handle : Nat) :
    Unheard session (session.attach handle).1 ∨ Joins session (session.attach handle).1 handle := by
  cases known : session.debugger.registry.findByHandle? handle with
  | some thread =>
    have same : session.attach handle = (session.emit [], thread) := by
      simp only [attach, Debugger.attach, Registry.attach_known known, Bool.false_and,
        Bool.false_eq_true, if_false]
    rw [same]
    exact .inl (unheard_same (emit_sends session []) (List.forall_mem_nil _) id rfl rfl)
  | none =>
    right
    obtain ⟨made, threads, lastId⟩ := Registry.attach_unknown known
    have ended : session.debugger.isTerminated = true ↔
        session.debugger.control.state = .terminated := isTerminated_iff coherent
    refine ⟨?_, rfl, ?_, ?_⟩
    · simp only [attach, Debugger.attach, made, ← ended]
      cases session.debugger.isTerminated
      · exact ⟨_, rfl, events_map _⟩
      · exact ⟨_, rfl, events_map _⟩
    · simp [attach, Debugger.attach, threads, emit, send, Registry.roster]
    · exact lastId

/-- All that the program does to threads by itself is that they come in. -/
theorem Advance.musters (advance : Advance session next) (coherent : session.Coherent) :
    Unheard session next ∨ ∃ handle, Joins session next handle := by
  cases advance with
  | aside aside => exact .inl aside.unheard
  | attach handle => exact (attach_joins coherent handle).imp_right fun joins => ⟨handle, joins⟩
  | arrive | leave => exact .inl (unheard_silent rfl rfl)
  | hit => exact .inl (unheard_same (sends_nothing rfl) (List.forall_mem_nil _) id rfl rfl)
  | suspend call =>
    exact .inl (unheard_same (sends_nothing rfl) (List.forall_mem_nil _) id
      (Registry.modify_roster _ _ fun _ => rfl) rfl)
  | wake call =>
    obtain ⟨registry, same, roster, lastId⟩ := wake_spec session.debugger call
    simp only [modifyDebugger, same]
    exact .inl (unheard_same (sends_nothing rfl) (List.forall_mem_nil _) id roster lastId)
  | say call text =>
    refine .inl (unheard_same (emit_sends session [.output text]) ?_ id rfl rfl)
    exact List.forall_mem_singleton.mpr not_false
  | stop call before after reason exception control _ _ enters =>
    left
    obtain ⟨registry, output, news, _, roster, lastId, same⟩ := stop_spec { session with
      debugger := { session.debugger with control }
      blocked := before ++ after } call reason exception
    refine unheard_same ⟨_, rfl, events_map _⟩ ?_ ?_ ?_ ?_
    · refine List.forall_mem_append.mpr ⟨fun _ => Debugger.flushOutput_other, ?_⟩
      exact List.forall_mem_singleton.mpr not_false
    · rw [same]
      exact fun ends => absurd (enters.state.symm.trans ends) (by simp)
    · rw [same]
      exact roster
    · rw [same]
      exact lastId

theorem detach_lasts (coherent : session.Coherent) {announce : Bool}
    (ends : (session.detach handle announce).1.debugger.control.state = .terminated) :
    session.debugger.control.state = .terminated := by
  obtain ⟨_, control, _, _, _, _, _, changed, same⟩ :=
    detach_spec coherent.control handle announce
  rw [same] at ends
  rcases changed with rfl | ⟨_, rfl⟩
  · exact ends
  · contradiction

theorem detach_unheard (coherent : session.Coherent) (handle : Nat) :
    Unheard session (session.detach handle false).1 := by
  obtain ⟨registry, control, _, _, kept, lastId, _, _, same⟩ :=
    detach_spec coherent.control handle false
  refine ⟨⟨[], detach_sends session handle false, List.forall_mem_nil _⟩,
    fun ends => .inl (detach_lasts coherent ends), ?_, ?_⟩
  · rw [same]
    exact kept.subset
  · rw [same]
    exact lastId

/-- A handle that is not known can not be detached. -/
theorem detach_parts (coherent : session.Coherent) (handle : Nat) :
    (session.detach handle true).1 = session ∨
      ∃ id, Parts session (session.detach handle true).1 id handle := by
  have sends := detach_sends session handle true
  cases known : session.debugger.registry.findByHandle? handle with
  | none =>
    left
    simp only [detach, Debugger.detach, Registry.detach_unknown known, Option.map_none]
  | some thread =>
    obtain ⟨member, rfl⟩ := Registry.findByHandle_spec known
    obtain ⟨rest, gone, fewer, lastId⟩ := Registry.detach_known known
    have registry : (session.detach thread.handle true).1.debugger.registry = rest := by
      simp only [detach, Debugger.detach, gone, Option.map_some, emit, send]
    rw [known] at sends
    refine .inr ⟨thread.id, sends, detach_lasts coherent, Registry.mem_roster member,
      fun entry => ?_, registry ▸ lastId⟩
    rw [registry]
    simp only [Registry.roster, fewer, List.mem_map, List.mem_filter, decide_eq_true_eq]
    constructor
    · rintro ⟨other, ⟨inside, apart⟩, rfl⟩
      exact ⟨⟨other, inside, rfl⟩, apart⟩
    · rintro ⟨⟨other, inside, rfl⟩, apart⟩
      exact ⟨other, ⟨inside, apart⟩, rfl⟩

theorem releaseIfReady_unheard (sends : Sends session next sent)
    (other : ∀ event ∈ sent, ¬event.OfThread)
    (state : next.debugger.control.state = .terminated →
      session.debugger.control.state = .terminated)
    (registry : next.debugger.registry = session.debugger.registry) :
    Unheard session (next.modifyDebugger (·.releaseIfReady)) := by
  obtain ⟨control, same, _⟩ := next.debugger.releaseIfReady_spec
  refine unheard_same sends other (fun ends => state ?_) ?_ ?_
  · have whole := releaseIfReady_over ends
    rwa [modifyDebugger, whole] at ends
  · simp only [modifyDebugger, same, registry]
  · simp only [modifyDebugger, same, registry]

theorem start_unheard {request : Request} {change : Change}
    (started : session.debugger.start request = .ok change) :
    Unheard session ((session.apply request change).modifyDebugger (·.releaseIfReady)) := by
  simp only [Debugger.start] at started
  split at started
  · contradiction
  · split at started
    · contradiction
    · rename_i config applied
      cases started
      refine releaseIfReady_unheard (apply_sends _ _ _) ?_ id rfl
      rw [events_map, List.append_nil]
      intro event member
      have moved : event ∈ session.debugger.movedBy (.ok config) := member
      exact Debugger.movedBy_other moved

/-- The end of a session, which leaves no thread, is not said of any of them. -/
theorem ends_unheard {answer : List Message} (ended : Ended session next answer)
    (debugger : next.debugger = session.debugger.teardown.1)
    (sends : Sends session next (events session.debugger.teardown.2.1 ++
      if session.debugger.teardown.2.2 then [.terminated] else [])) : Unheard session next := by
  obtain ⟨output, _, _, torn⟩ := Debugger.teardown_spec session.debugger
  have registry : next.debugger.registry = session.debugger.registry.detachAll.1 := by
    rw [debugger]
    rcases torn with ⟨_, _, same⟩ | ⟨_, same⟩
    · rw [same]
      rfl
    · rw [same]
      rfl
  refine ⟨⟨_, sends, List.forall_mem_append.mpr ⟨fun _ => Debugger.teardown_other, ?_⟩⟩,
    fun _ => ?_, ?_, ?_⟩
  · split
    · exact List.forall_mem_singleton.mpr not_false
    · exact List.forall_mem_nil _
  · obtain ⟨_, _, ⟨_, _, outbox⟩ | ⟨already, _⟩⟩ := ended.outbox
    · exact .inr (by simp [outbox])
    · exact .inl already
  · rw [registry]
    exact List.nil_subset _
  · rw [registry]
    rfl

/-- All that is done to threads from outside is that they are detached. -/
theorem Act.musters {taken : Option Request} (act : Act session taken next)
    (coherent : session.Coherent) :
    Unheard session next ∨ ∃ id handle, Parts session next id handle := by
  cases act with
  | aside aside => exact .inl aside.unheard
  | refuse request | evaluate request =>
    exact .inl (unheard_same (answer_sends session request _) (List.forall_mem_nil _) id rfl rfl)
  | adjust request command change _ _ adjusts _ carried =>
    left
    obtain ⟨before, after, control, _, _, _, _, _, same, asked, _⟩ :=
      Debugger.carryOut_adjusts carried adjusts
    have registry : (session.apply request change).debugger.registry =
        session.debugger.registry := by
      simp only [apply, emit, send, answer, same]
    refine unheard_same (apply_sends session request change) ?_ ?_ (by rw [registry])
      (by rw [registry])
    · rw [before]
      rcases after with none | initialized
      · simp [none, events]
      · simp [initialized, events, Event.OfThread]
    · simp only [apply, emit, send, answer, same]
      rcases asked with rfl | ⟨_, paused⟩
      · exact id
      · rw [(Execution.Control.requestPause_keeps paused).1]
        exact id
  | start request command change _ _ _ _ started => exact .inl (start_unheard started)
  | configure request change _ _ _ done =>
    obtain ⟨_, rfl⟩ := Debugger.configurationDone_spec done
    exact .inl (releaseIfReady_unheard (apply_sends _ _ _) (List.forall_mem_nil _) id rfl)
  | close request command exit =>
    exact .inl (ends_unheard (close_ended session request exit) rfl (apply_sends _ _ _))
  | defer => exact .inl (unheard_same (sends_nothing rfl) (List.forall_mem_nil _) id rfl rfl)
  | decline deferred rest failure =>
    exact .inl (unheard_same ⟨_, rfl, rfl⟩ (List.forall_mem_nil _) id rfl rfl)
  | reply deferred rest stop body framesFetched =>
    exact .inl (unheard_same ⟨_, rfl, rfl⟩ (List.forall_mem_nil _) id rfl rfl)
  | resume deferred rest stop how body control waiting held resumes resumed =>
    obtain ⟨reason, stopped⟩ := coherent.queued.state (by simp [waiting])
    obtain ⟨_, live, _⟩ := Execution.Control.resume_runs stopped resumed
    refine .inl (unheard_same ⟨_, rfl, events_refused .released rest⟩ (List.forall_mem_nil _)
      (fun ends => absurd ends live) (runThreads_roster _ _) rfl)
  | detach handle announce =>
    cases announce with
    | false => exact .inl (detach_unheard coherent handle)
    | true =>
      rcases detach_parts coherent handle with same | ⟨id, parts⟩
      · rw [same]
        exact .inl (unheard_silent rfl rfl)
      · exact .inr ⟨id, handle, parts⟩
  | capture category bytes attribution =>
    obtain ⟨output, _, _, same⟩ := capture_spec session category bytes attribution
    have debugger : (session.capture category bytes attribution).debugger =
      { session.debugger with output } := by rw [same]
    refine .inl (unheard_same ⟨_, rfl, events_map _⟩ (fun _ => Debugger.capture_other) ?_ ?_ ?_)
    all_goals simp only [debugger, imp_self]
  | reconfigure change =>
    obtain ⟨_, _, _, _, _, _, same⟩ := configure_spec session change
    refine .inl (unheard_same (configure_sends session change)
      (fun _ => Debugger.movedBy_other) ?_ ?_ ?_)
    all_goals simp only [same, imp_self]
  | shutdown => exact .inl (ends_unheard (shutdown_ended session) rfl (shutdown_sends session))
  | release stop =>
    exact .inl (unheard_same (sends_nothing rfl) (List.forall_mem_nil _) id
      (runThreads_roster _ _) rfl)
  | dismiss => exact .inl (unheard_silent rfl rfl)

end Session
end DebugAdapter
