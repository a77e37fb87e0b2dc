import DebugAdapter.Proofs.Session.Debugger
import DebugAdapter.Session.Inspection

/-! What a request comes to on the stopped thread. -/
namespace DebugAdapter

def StoppedCommand.resumption? : StoppedCommand → Option Resume
  | .continue_ => some .run
  | .next => some (.step .over)
  | .stepIn => some (.step .into)
  | .stepOut => some (.step .out)
  | _ => none

namespace Debugger

/-- A request fails, or it is answered; then the thread stays, or it runs on. The sources that are
listed are all that are loaded. -/
inductive Inspects (debugger : Debugger) (stop : Stop) (command : StoppedCommand) :
    Except Failure Reply → Prop where
  | fail (failure : Failure) : Inspects debugger stop command (.error failure)
  | answer (body : Body) (framesFetched : Bool) : command.resumption? = none →
      (command = .loadedSources → body = .sources debugger.sources.loaded) →
      Inspects debugger stop command (.ok { debugger, body, framesFetched })
  | resume (how : Resume) (body : Body) : command.resumption? = some how →
      Inspects debugger stop command
        (.ok { debugger, body, resume := some how, framesFetched := stop.framesFetched })

variable {debugger : Debugger} {stop : Stop} {command : StoppedCommand} {request : Request}
  {deferred : Deferred}

theorem withArguments_inspects {record : Json.Record α} {answer : α → Inspected}
    (inspects : ∀ arguments, Inspects debugger stop command (answer arguments).outcome) :
    Inspects debugger stop command (withArguments record request answer).outcome := by
  unfold withArguments
  split
  · exact inspects _
  · exact .fail _

theorem ask_inspects {answer : Except InterpreterError α} {body : α → Body}
    (callbacks : List Callback) (stays : command.resumption? = none)
    (lists : command ≠ .loadedSources) :
    Inspects debugger stop command (debugger.ask stop callbacks answer body).outcome := by
  unfold ask
  cases answer with
  | ok value => exact .answer _ _ stays fun listed => absurd listed lists
  | error error => exact .fail _

theorem inspectSource_inspects (arguments : Arguments.SourceText)
    (stays : command.resumption? = none) (lists : command ≠ .loadedSources) :
    Inspects debugger stop command (debugger.inspectSource stop arguments).outcome := by
  unfold inspectSource
  dsimp only
  split
  · exact .answer _ _ stays fun listed => absurd listed lists
  · exact .fail _

theorem inspectException_inspects (id : Nat) (stays : command.resumption? = none)
    (lists : command ≠ .loadedSources) :
    Inspects debugger stop command (debugger.inspectException stop id).outcome := by
  unfold inspectException
  split
  · exact .fail _
  · split
    · exact .fail _
    · split
      · exact .answer _ _ stays fun listed => absurd listed lists
      · exact .answer _ _ stays fun listed => absurd listed lists

theorem resumeAll_inspects (id : Nat) (runs : command.resumption? = some .run) :
    Inspects debugger stop command (debugger.resumeAll stop id).outcome := by
  unfold resumeAll
  split
  · exact .fail _
  · exact .resume .run _ runs

theorem step_inspects {kind : Execution.StepKind} (id : Nat)
    (steps : command.resumption? = some (.step kind)) :
    Inspects debugger stop command (debugger.step stop kind id).outcome := by
  unfold step
  split
  · split
    · exact .fail _
    · exact .fail _
  · exact .resume (.step kind) _ steps

/-- Only the stack trace changes the debugger: it resolves the sources of its frames. -/
theorem inspect_inspects (debugger : Debugger) (stop : Stop)
    (other : deferred.command ≠ .stackTrace) :
    Inspects debugger stop deferred.command (debugger.inspect stop deferred).outcome := by
  obtain ⟨request, command⟩ := deferred
  cases command with
  | stackTrace => contradiction
  | threads => exact .answer _ _ rfl (by simp)
  | loadedSources => exact .answer _ _ rfl fun _ => rfl
  | source =>
    exact withArguments_inspects fun arguments => inspectSource_inspects arguments rfl (by simp)
  | scopes | children | evaluate =>
    exact withArguments_inspects fun _ => ask_inspects _ rfl (by simp)
  | setVariable =>
    refine withArguments_inspects fun arguments => ?_
    split
    · exact ask_inspects _ rfl (by simp)
    · exact .fail _
  | exceptionInfo =>
    exact withArguments_inspects fun id => inspectException_inspects id rfl (by simp)
  | continue_ => exact withArguments_inspects fun id => resumeAll_inspects id rfl
  | next | stepIn | stepOut => exact withArguments_inspects fun id => step_inspects id rfl

theorem inspectStack_spec (debugger : Debugger) (stop : Stop) (arguments : Arguments.StackTrace) :
    Inspects debugger stop .stackTrace (debugger.inspectStack stop arguments).outcome ∨
      ∃ (shown : Shown) (entries : List (Frame × Nat)) (body : Body),
        shown = entries.foldl (Shown.add stop.call.interpreter) { debugger } ∧
        debugger.inspectStack stop arguments = {
          callbacks := fetchFrames stop ++ shown.callbacks
          outcome := .ok {
            debugger := shown.debugger, events := shown.events, body, framesFetched := true } } := by
  unfold inspectStack
  split
  · split
    · exact Or.inl (.fail _)
    · exact Or.inl (.answer _ _ rfl (by simp))
  · exact Or.inr ⟨_, _, _, rfl, rfl⟩

theorem Shown.add_sources (interpreter : Interpreter) (shown : Shown) (entry : Frame × Nat) :
    ∃ sources, (Shown.add interpreter shown entry).debugger = { shown.debugger with sources } := by
  unfold Shown.add
  dsimp only
  split
  · exact ⟨shown.debugger.sources, rfl⟩
  · rename_i chunk _
    exact (resolve_spec shown.debugger interpreter chunk).1

theorem Shown.foldl_sources (interpreter : Interpreter) (entries : List (Frame × Nat))
    (shown : Shown) : ∃ sources,
      (entries.foldl (Shown.add interpreter) shown).debugger = { shown.debugger with sources } := by
  induction entries generalizing shown with
  | nil => exact ⟨shown.debugger.sources, rfl⟩
  | cons entry rest ih =>
    obtain ⟨_, added⟩ := Shown.add_sources interpreter shown entry
    obtain ⟨sources, same⟩ := ih (Shown.add interpreter shown entry)
    exact ⟨sources, by rw [List.foldl_cons, same, added]⟩

/-- All that an answer may change is the sources that are known. -/
theorem inspect_sources {reply : Reply}
    (answers : (debugger.inspect stop deferred).outcome = .ok reply) :
    ∃ sources, reply.debugger = { debugger with sources } := by
  have steady : ∀ {command outcome}, Inspects debugger stop command outcome →
      outcome = .ok reply → ∃ sources, reply.debugger = { debugger with sources } := by
    intro command outcome inspects same
    cases inspects with
    | fail => contradiction
    | answer | resume =>
      cases same
      exact ⟨debugger.sources, rfl⟩
  by_cases stack : deferred.command = .stackTrace
  · simp only [inspect, stack, withArguments] at answers
    split at answers
    · rename_i arguments _
      rcases inspectStack_spec debugger stop arguments with
        refused | ⟨shown, entries, body, shows, same⟩
      · exact steady refused answers
      · rw [same] at answers
        cases answers
        rw [shows]
        exact Shown.foldl_sources stop.call.interpreter entries { debugger }
    · contradiction
  · exact steady (inspect_inspects debugger stop stack) answers

theorem Shown.foldl_incidental (interpreter : Interpreter) (entries : List (Frame × Nat))
    {shown : Shown} (incidental : ∀ event ∈ shown.events, event.Incidental) :
    ∀ event ∈ (entries.foldl (Shown.add interpreter) shown).events, event.Incidental := by
  induction entries generalizing shown with
  | nil => exact incidental
  | cons entry rest ih =>
    refine ih ?_
    obtain ⟨frame, index⟩ := entry
    unfold Shown.add
    dsimp only
    split
    · exact incidental
    · rename_i chunk _
      intro event member
      rcases List.mem_append.mp member with old | newest
      · exact incidental event old
      · exact (resolve_spec shown.debugger interpreter chunk).2 event newest

theorem inspect_incidental {reply : Reply}
    (answers : (debugger.inspect stop deferred).outcome = .ok reply) :
    ∀ event ∈ reply.events, event.Incidental := by
  have silent : ∀ {command outcome}, Inspects debugger stop command outcome →
      outcome = .ok reply → ∀ event ∈ reply.events, event.Incidental := by
    intro command outcome inspects same
    cases inspects with
    | fail => contradiction
    | answer | resume =>
      cases same
      simp
  by_cases stack : deferred.command = .stackTrace
  · simp only [inspect, stack, withArguments] at answers
    split at answers
    · rename_i arguments _
      rcases inspectStack_spec debugger stop arguments with
        refused | ⟨shown, entries, body, shows, same⟩
      · exact silent refused answers
      · rw [same] at answers
        cases answers
        rw [shows]
        exact Shown.foldl_incidental stop.call.interpreter entries (by simp)
    · contradiction
  · exact silent (inspect_inspects debugger stop stack) answers

/-- The commands that let the thread go, and no others, are answered so. -/
theorem inspect_resumption {reply : Reply}
    (answers : (debugger.inspect stop deferred).outcome = .ok reply) :
    reply.resume = deferred.command.resumption? := by
  have runs : ∀ {command outcome}, Inspects debugger stop command outcome →
      outcome = .ok reply → reply.resume = command.resumption? := by
    intro command outcome inspects same
    cases inspects with
    | fail => contradiction
    | answer _ _ stays =>
      cases same
      exact stays.symm
    | resume how body runs =>
      cases same
      exact runs.symm
  by_cases stack : deferred.command = .stackTrace
  · simp only [inspect, stack, withArguments] at answers
    split at answers
    · rename_i arguments _
      rcases inspectStack_spec debugger stop arguments with refused | ⟨_, _, _, _, same⟩
      · exact stack ▸ runs refused answers
      · rw [same] at answers
        cases answers
        rw [stack]
        rfl
    · contradiction
  · exact runs (inspect_inspects debugger stop stack) answers

/-- Resolving a chunk does not depend on what is queued. -/
theorem resolve_queue (debugger : Debugger) (interpreter : Interpreter) (chunk : List UInt8)
    (queue : List Deferred) :
    ({ debugger with queue }).resolve interpreter chunk =
      { debugger.resolve interpreter chunk with
        debugger := { (debugger.resolve interpreter chunk).debugger with queue } } := by
  unfold resolve
  dsimp only
  split
  · rfl
  · rfl

end Debugger
end DebugAdapter
