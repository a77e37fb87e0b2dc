import DebugAdapter.Proofs.Config.Layers
import DebugAdapter.Proofs.Session.Stepping
import DebugAdapter.Proofs.Source.Cache

/-! What a session comes to know of sources. Whatever happens to it, either the sources and the
configuration stay, or one chunk is resolved, or an accepted configuration is taken over. -/
namespace DebugAdapter

/-- A message that neither announces a source nor lists any. -/
def Message.Sourceless : Message → Prop
  | .event (.loadedSource ..) => False
  | .event _ | .response _ _ (.error _) => True
  | .response _ command (.ok _) => command ≠ "loadedSources"

def Sourceless (messages : List Message) : Prop :=
  ∀ message ∈ messages, message.Sourceless

theorem sourceless_nil : Sourceless [] :=
  fun _ member => absurd member List.not_mem_nil

theorem Sourceless.append {messages more : List Message} (first : Sourceless messages)
    (second : Sourceless more) : Sourceless (messages ++ more) := by
  intro message member
  exact (List.mem_append.mp member).elim (first message) (second message)

theorem sourceless_one {message : Message} (sourceless : message.Sourceless) :
    Sourceless [message] := by
  intro other member
  exact List.mem_singleton.mp member ▸ sourceless

theorem sourceless_refused (failure : Failure) (deferred : List Deferred) :
    Sourceless (deferred.map (Debugger.refusal failure)) := by
  intro message member
  obtain ⟨request, _, rfl⟩ := List.mem_map.mp member
  trivial

theorem sourceless_flush (debugger : Debugger) :
    Sourceless (debugger.flushOutput.2.map .event) := by
  intro message member
  obtain ⟨event, shown, rfl⟩ := List.mem_map.mp member
  obtain ⟨chunk, _, rfl⟩ := List.mem_map.mp shown
  trivial

theorem sourceless_capture (debugger : Debugger) (category : Output.Category) (bytes : List UInt8)
    (attribution : Option Output.Attribution) :
    Sourceless ((debugger.capture category bytes attribution).2.map .event) := by
  intro message member
  obtain ⟨event, shown, rfl⟩ := List.mem_map.mp member
  unfold Debugger.capture at shown
  split at shown
  · contradiction
  · obtain ⟨chunk, _, rfl⟩ := List.mem_map.mp shown
    trivial

theorem sourceless_attach (debugger : Debugger) (handle : Nat) :
    Sourceless ((debugger.attach handle).2.2.map .event) := by
  simp only [Debugger.attach]
  split
  · exact sourceless_one trivial
  · exact sourceless_nil

theorem sourceless_teardown (debugger : Debugger) : Sourceless debugger.teardown.2.1 := by
  unfold Debugger.teardown
  split
  rename_i ending refused first torn
  have quiet : Sourceless refused := by
    split at torn
    · cases torn
      exact sourceless_refused _ _
    · cases torn
      exact sourceless_nil
  exact quiet.append (sourceless_flush _)

theorem Command.ne_list {name : String} {command : Command} (named : ofName? name = some command)
    (other : command ≠ .stopped .loadedSources) : name ≠ "loadedSources" := by
  rintro rfl
  exact other (Option.some.inj named).symm

/-- A chunk that is not known is announced if its key is new. -/
def Source.Cache.announce (cache : Source.Cache) (origin : Source.Origin) : List Event :=
  if cache.keys.contains (cache.fresh origin).key then []
  else [.loadedSource .new (cache.fresh origin).source]

namespace Debugger

open Source (Origin Cache)

variable {debugger : Debugger} {chunk : List UInt8} {resolved : Source.Resolved}

/-- The text that an interpreter has for a chunk; without any it is empty. -/
def textOf (debugger : Debugger) (interpreter : Interpreter) (chunk : List UInt8) : String :=
  ((interpreter.chunkCode.bind (· chunk)).map debugger.mapping.sourceCoding.decode).getD ""

/-- A chunk is a file if the mapping finds one by its name, and else a text. -/
theorem originOf_spec (debugger : Debugger) (interpreter : Interpreter) (chunk : List UInt8) :
    Origin.file? debugger.mapping chunk = some (debugger.originOf interpreter chunk).1 ∨
      Origin.file? debugger.mapping chunk = none ∧
        (debugger.originOf interpreter chunk).1 =
          .virtual (virtualName debugger.mapping.sourceCoding chunk)
            (debugger.textOf interpreter chunk) := by
  unfold originOf textOf
  cases named : Origin.file? debugger.mapping chunk with
  | some origin => exact Or.inl rfl
  | none =>
    refine Or.inr ⟨rfl, ?_⟩
    cases interpreter.chunkCode <;> rfl

theorem resolve_known (found : debugger.sources.find? chunk = some resolved)
    (interpreter : Interpreter) :
    debugger.resolve interpreter chunk = { debugger, resolved } := by
  simp only [resolve, found]

theorem resolve_unknown (unknown : debugger.sources.find? chunk = none)
    (interpreter : Interpreter) :
    let origin := (debugger.originOf interpreter chunk).1
    let fresh := debugger.sources.fresh origin
    let resolution := debugger.resolve interpreter chunk
    resolution.debugger =
        { debugger with sources := (debugger.sources.register chunk origin).1 } ∧
      resolution.resolved = fresh ∧
      resolution.events = debugger.sources.announce origin := by
  intro origin fresh resolution
  obtain ⟨given, _⟩ := Cache.register_unknown unknown origin
  have resolves : resolution = {
      debugger := { debugger with sources := (debugger.sources.register chunk origin).1 }
      resolved := (debugger.sources.register chunk origin).2.1
      callbacks := (debugger.originOf interpreter chunk).2
      events := if (debugger.sources.register chunk origin).2.2 then
        [.loadedSource .new (debugger.sources.register chunk origin).2.1.source] else [] } := by
    simp only [resolution, resolve, unknown, origin]
  rw [resolves, given]
  refine ⟨rfl, rfl, ?_⟩
  unfold Cache.announce
  cases debugger.sources.keys.contains (debugger.sources.fresh origin).key <;> rfl

end Debugger

namespace Session

variable {session next : Session}

/-- What is known of sources, and how they are resolved, is the same. -/
structure SameSources (session next : Session) : Prop where
  sources : next.debugger.sources = session.debugger.sources
  config : next.debugger.config = session.debugger.config
  mapping : next.debugger.mapping = session.debugger.mapping

/-- What may be learned of sources at once. -/
inductive Learns (session next : Session) : Prop
  | keeps (messages : List Message) : Sourceless messages → SameSources session next →
      next.outbox = session.outbox ++ messages → Learns session next
  | lists (seq : Nat) : SameSources session next →
      next.outbox = session.outbox ++
        [.response seq "loadedSources" (.ok (.sources session.debugger.sources.loaded))] →
      Learns session next
  | registers (chunk : List UInt8) (origin : Source.Origin) :
      session.debugger.sources.find? chunk = none →
      (Source.Origin.file? session.debugger.mapping chunk = some origin ∨
        ∃ name code, origin = .virtual name code) →
      next.debugger.sources = (session.debugger.sources.register chunk origin).1 →
      next.debugger.config = session.debugger.config →
      next.debugger.mapping = session.debugger.mapping →
      next.outbox = session.outbox ++ (session.debugger.sources.announce origin).map .event →
      Learns session next
  | reconfigures (level : Config.Level) (update : Json) (config : Config.Store)
      (messages : List Message) :
      session.debugger.config.apply level update = .ok config → Sourceless messages →
      next.debugger.sources = (session.debugger.sources.remap config.mapping).1 →
      next.debugger.config = config → next.debugger.mapping = config.mapping →
      next.outbox = session.outbox ++
        ((session.debugger.reconfigure config).2.map .event ++ messages) →
      Learns session next

theorem learns_silent (steady : SameSources session next) (outbox : next.outbox = session.outbox) :
    Learns session next :=
  .keeps [] sourceless_nil steady (by rw [outbox, List.append_nil])

theorem discover_learns (session : Session) (interpreter : Interpreter) (chunk : List UInt8) :
    Learns session (session.discover interpreter chunk) := by
  cases known : session.debugger.sources.find? chunk with
  | some resolved =>
    simp only [discover, emit, send, note, Debugger.resolve_known known, List.map_nil,
      List.append_nil]
    exact learns_silent ⟨rfl, rfl, rfl⟩ rfl
  | none =>
    obtain ⟨registered, _, announced⟩ := Debugger.resolve_unknown known interpreter
    have origin := session.debugger.originOf_spec interpreter chunk
    refine .registers chunk _ known (origin.imp_right fun text => ⟨_, _, text.2⟩) ?_ ?_ ?_ ?_
    all_goals simp only [discover, emit, send, note, registered, announced]

theorem Aside.learns (aside : Aside session next) : Learns session next := by
  cases aside with
  | note | finish => exact learns_silent ⟨rfl, rfl, rfl⟩ rfl
  | discover interpreter chunk => exact discover_learns session interpreter chunk

theorem stop_outbox (session : Session) (call : Call) (reason : Execution.StopReason)
    (exception : Option ExceptionRecord) : ∃ messages, Sourceless messages ∧
      (session.stop call reason exception).outbox = session.outbox ++ messages := by
  refine ⟨_, ?_, rfl⟩
  rw [List.map_append]
  exact (sourceless_flush _).append (sourceless_one trivial)

theorem Advance.learns (advance : Advance session next) : Learns session next := by
  cases advance with
  | aside aside => exact aside.learns
  | attach handle =>
    exact .keeps _ (sourceless_attach session.debugger handle) ⟨rfl, rfl, rfl⟩ rfl
  | arrive | suspend | hit | leave => exact learns_silent ⟨rfl, rfl, rfl⟩ rfl
  | wake call =>
    obtain ⟨registry, same, _⟩ := wake_spec session.debugger call
    simp only [modifyDebugger, same]
    exact learns_silent ⟨rfl, rfl, rfl⟩ rfl
  | say call text =>
    have sourceless : Message.Sourceless (.event (.output text)) := trivial
    exact .keeps _ (sourceless_one sourceless) ⟨rfl, rfl, rfl⟩ rfl
  | stop call before after reason exception control =>
    obtain ⟨messages, sourceless, outbox⟩ := stop_outbox { session with
      debugger := { session.debugger with control }
      blocked := before ++ after } call reason exception
    exact .keeps messages sourceless ⟨rfl, rfl, rfl⟩ outbox

theorem reconfigure_learns {level : Config.Level} {update : Json} {config : Config.Store}
    (accepted : session.debugger.config.apply level update = .ok config) :
    Learns session (session.configure (.ok config)).1 :=
  .reconfigures level update config [] accepted sourceless_nil rfl rfl rfl (by
    simp only [configure, emit, send, List.append_nil])

theorem start_learns {request : Request} {change : Change}
    (named : request.command ≠ "loadedSources")
    (started : session.debugger.start request = .ok change) :
    Learns session ((session.apply request change).modifyDebugger (·.releaseIfReady)) := by
  simp only [Debugger.start] at started
  split at started
  · contradiction
  · split at started
    · contradiction
    · rename_i config applied
      cases started
      have sourceless : Message.Sourceless
          (.response request.seq request.command (.ok .empty)) := named
      obtain ⟨control, same, _⟩ := Debugger.releaseIfReady_spec
        { (session.debugger.reconfigure config).1 with
          redirected := Debugger.redirections config.settings
          launched := true
          stopOnEntry := config.settings.stopOnEntry
          capturePrint := config.settings.captures .print }
      refine .reconfigures .launch _ config _ applied (sourceless_one sourceless) ?_ ?_ ?_ ?_
      all_goals simp only [modifyDebugger, apply, emit, send, answer, same]
      all_goals first | rfl | simp

theorem teardown_sources (debugger : Debugger) :
    debugger.teardown.1.sources = debugger.sources ∧
      debugger.teardown.1.config = debugger.config ∧
      debugger.teardown.1.mapping = debugger.mapping := by
  obtain ⟨output, events, _, ⟨control, _, torn⟩ | ⟨_, torn⟩⟩ := Debugger.teardown_spec debugger
  all_goals
    rw [torn]
    exact ⟨rfl, rfl, rfl⟩

theorem sourceless_end (first : Bool) :
    Sourceless ((if first then [Event.terminated] else []).map .event) := by
  cases first
  · exact sourceless_nil
  · exact sourceless_one trivial

theorem close_learns {request : Request} (named : request.command ≠ "loadedSources")
    (exit : Bool) :
    Learns session (session.apply request (session.debugger.finishSession exit)) := by
  obtain ⟨sources, config, mapping⟩ := teardown_sources session.debugger
  have answered : Message.Sourceless (.response request.seq request.command (.ok .empty)) := named
  exact .keeps _ ((sourceless_teardown session.debugger).append ((sourceless_one answered).append
    (sourceless_end session.debugger.teardown.2.2))) ⟨sources, config, mapping⟩ (apply_outbox _ _ _)

theorem shutdown_learns (session : Session) : Learns session session.shutdown.1 := by
  obtain ⟨sources, config, mapping⟩ := teardown_sources session.debugger
  refine .keeps _ ((sourceless_teardown session.debugger).append
    (sourceless_end session.debugger.teardown.2.2)) ⟨sources, config, mapping⟩ ?_
  simp only [shutdown, emit, send, List.append_assoc]

theorem detach_learns (session : Session) (handle : Nat) (announce : Bool) :
    Learns session (session.detach handle announce).1 := by
  unfold detach
  cases detached : session.debugger.detach handle announce with
  | none => exact learns_silent ⟨rfl, rfl, rfl⟩ rfl
  | some result =>
    obtain ⟨⟨registry, thread⟩, _, rfl⟩ := Option.map_eq_some_iff.mp detached
    refine .keeps _ ?_ ⟨rfl, rfl, rfl⟩ rfl
    split
    · exact sourceless_one trivial
    · exact sourceless_nil

theorem capture_learns (session : Session) (category : Output.Category) (bytes : List UInt8)
    (attribution : Option Output.Attribution) :
    Learns session (session.capture category bytes attribution) := by
  obtain ⟨⟨output, same⟩, _⟩ := Debugger.capture_spec session.debugger category bytes attribution
  refine .keeps _ (sourceless_capture session.debugger category bytes attribution) ?_ rfl
  simp only [capture, emit, send, same]
  exact ⟨rfl, rfl, rfl⟩

/-- The answer to a command that is named otherwise lists no sources. -/
theorem answer_learns (steady : SameSources session next) {request : Request} {body : Body}
    {messages : List Message} (named : request.command ≠ "loadedSources")
    (sourceless : Sourceless messages) (outbox : next.outbox = session.outbox ++
      (.response request.seq request.command (.ok body) :: messages)) : Learns session next := by
  have answered : Message.Sourceless (.response request.seq request.command (.ok body)) := named
  exact .keeps _ ((sourceless_one answered).append sourceless) steady outbox

theorem configure_learns {change : Except Config.Error Config.Store}
    (origin : (∃ update, change = session.debugger.config.apply .runtime update) ∨
      ∃ path content, change = session.debugger.config.loadDefaults path content) :
    Learns session (session.configure change).1 := by
  cases accepted : change with
  | error => exact learns_silent ⟨rfl, rfl, rfl⟩ rfl
  | ok config =>
    obtain ⟨level, update, applied⟩ :
        ∃ level update, session.debugger.config.apply level update = .ok config := by
      rcases origin with ⟨update, same⟩ | ⟨path, content, same⟩
      · exact ⟨.runtime, update, same.symm.trans accepted⟩
      · have loaded := same.symm.trans accepted
        obtain ⟨update, applies⟩ := Config.Store.loadDefaults_spec loaded
        exact ⟨.defaults, update, (applies _).symm.trans loaded⟩
    exact reconfigure_learns applied

theorem Act.learns {request : Option Request} (act : Act session request next)
    (coherent : session.Coherent) : Learns session next := by
  cases act with
  | aside aside => exact aside.learns
  | refuse request failure =>
    exact .keeps [.response request.seq request.command (.error failure)] (sourceless_one trivial)
      ⟨rfl, rfl, rfl⟩ rfl
  | adjust request command change _ named adjusts _ carried =>
    obtain ⟨before, after, _, _, _, _, _, _, same, _⟩ :=
      Debugger.carryOut_adjusts carried adjusts
    have sourceless : Sourceless (change.after.map .event) := by
      rcases after with none | initialized
      · rw [none]
        exact sourceless_nil
      · rw [initialized]
        exact sourceless_one trivial
    have steady : SameSources session (session.apply request change) := by
      simp only [apply, emit, send, answer, same]
      exact ⟨rfl, rfl, rfl⟩
    have outbox := apply_outbox session request change
    rw [before] at outbox
    exact answer_learns steady (Command.ne_list named (by simp)) sourceless outbox
  | start request command change _ named _ _ started =>
    exact start_learns (Command.ne_list named (by simp)) started
  | configure request change _ named _ done =>
    obtain ⟨_, rfl⟩ := Debugger.configurationDone_spec done
    obtain ⟨control, same, _⟩ :=
      Debugger.releaseIfReady_spec { session.debugger with configured := true }
    have outbox := apply_outbox session request
      { debugger := { session.debugger with configured := true } }
    refine answer_learns ?_ (Command.ne_list named (by simp)) sourceless_nil outbox
    simp only [modifyDebugger, apply, emit, send, answer, same]
    exact ⟨rfl, rfl, rfl⟩
  | close request command exit _ named => exact close_learns (Command.ne_list named (by simp)) exit
  | defer => exact learns_silent ⟨rfl, rfl, rfl⟩ rfl
  | evaluate request outcome _ named =>
    cases outcome with
    | error failure =>
      exact .keeps [.response request.seq request.command (.error failure)] (sourceless_one trivial)
        ⟨rfl, rfl, rfl⟩ rfl
    | ok body =>
      have outbox : (session.answer request (.ok body)).outbox = _ := rfl
      exact answer_learns ⟨rfl, rfl, rfl⟩ (Command.ne_list named (by simp)) sourceless_nil outbox
  | decline deferred rest failure =>
    exact .keeps [.response deferred.request.seq deferred.request.command (.error failure)]
      (sourceless_one trivial) ⟨rfl, rfl, rfl⟩ rfl
  | reply deferred rest stop body framesFetched waiting held stays lists =>
    have named := coherent.queued.commands deferred (by simp [waiting])
    by_cases listed : deferred.request.command = "loadedSources"
    · rw [listed] at named
      have lister : StoppedCommand.loadedSources = deferred.command :=
        Command.stopped.inj (Option.some.inj named)
      refine .lists deferred.request.seq ⟨rfl, rfl, rfl⟩ ?_
      simp only [answer, send, modifyDebugger, listed, lists lister.symm]
    · exact answer_learns ⟨rfl, rfl, rfl⟩ listed sourceless_nil rfl
  | resume deferred rest stop how body control waiting held resumes resumed =>
    have named := coherent.queued.commands deferred (by simp [waiting])
    have other : Command.stopped deferred.command ≠ .stopped .loadedSources := by
      intro same
      rw [Command.stopped.inj same] at resumes
      contradiction
    exact answer_learns ⟨rfl, rfl, rfl⟩ (Command.ne_list named other)
      (sourceless_refused _ rest) rfl
  | detach handle announce => exact detach_learns session handle announce
  | capture category bytes attribution => exact capture_learns session category bytes attribution
  | reconfigure change origin => exact configure_learns origin
  | shutdown => exact shutdown_learns session
  | release | dismiss => exact learns_silent ⟨rfl, rfl, rfl⟩ rfl

abbrev Learned : Session → Session → Prop := Relation.ReflTransGen Learns

theorem Advances.learned (advances : Advances session next) : Learned session next :=
  Relation.ReflTransGen.mono (fun _ _ advance => advance.learns) _ _ advances

theorem Acts.learned {taken : List Request} (acts : Acts session taken next)
    (coherent : session.Coherent) : Learned session next := by
  induction acts with
  | refl => exact .refl
  | tail acts act ih => exact ih.tail (act.learns (acts.coherent coherent))

theorem perform_learned (settled : session.Settled) (step : Step) :
    Learned session (session.perform step).1 := by
  obtain ⟨_, middle, acts, _, advances, _⟩ := perform_moves settled step
  exact (acts.learned settled.coherent).trans advances.learned

theorem run_learned (settled : session.Settled) (steps : List Step) :
    Learned session (session.run steps) := by
  induction steps generalizing session with
  | nil => exact .refl
  | cons step rest ih =>
    exact (perform_learned settled step).trans (ih (perform_settled settled step))

/-- What is kept by whatever is learned is kept by all that is. -/
theorem Learned.keep {P : Session → Prop}
    (keep : ∀ {session next}, Learns session next → P session → P next)
    (learned : Learned session next) (holds : P session) : P next := by
  induction learned with
  | refl => exact holds
  | tail _ learns ih => exact keep learns ih

end Session
end DebugAdapter
