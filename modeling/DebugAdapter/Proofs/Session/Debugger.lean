import DebugAdapter.Proofs.Execution.Control
import DebugAdapter.Proofs.Thread.Registry
import DebugAdapter.Session.Commands

/-! What each change of a debugger leaves alone, and which messages it brings with it. -/
namespace DebugAdapter

/-- News of threads, sources and output, which no request and no stop depends on. -/
def Event.Incidental : Event → Prop
  | .thread .. | .output _ | .loadedSource .. => True
  | .initialized | .stopped .. | .terminated => False

/-- Commands that neither begin, release nor end a session. -/
def ControlCommand.adjusts : ControlCommand → Bool
  | .handshake | .setBreakpoints | .setExceptionBreakpoints | .pause => true
  | _ => false

namespace Debugger
variable {debugger next : Debugger} {request : Request} {change : Change}

theorem resolve_spec (debugger : Debugger) (interpreter : Interpreter) (chunk : List UInt8) :
    (∃ sources, (debugger.resolve interpreter chunk).debugger = { debugger with sources }) ∧
      ∀ event ∈ (debugger.resolve interpreter chunk).events, event.Incidental := by
  unfold resolve
  split
  · exact ⟨⟨debugger.sources, rfl⟩, by simp⟩
  · refine ⟨⟨_, rfl⟩, ?_⟩
    intro event member
    dsimp only at member
    split at member
    · obtain rfl := List.mem_singleton.mp member
      trivial
    · contradiction

theorem flushOutput_spec (debugger : Debugger) :
    (∃ output, debugger.flushOutput.1 = { debugger with output }) ∧
      ∀ event ∈ debugger.flushOutput.2, event.Incidental := by
  refine ⟨⟨_, rfl⟩, ?_⟩
  intro event member
  obtain ⟨chunk, _, rfl⟩ := List.mem_map.mp member
  trivial

theorem capture_spec (debugger : Debugger) (category : Output.Category) (bytes : List UInt8)
    (attribution : Option Output.Attribution) :
    (∃ output, (debugger.capture category bytes attribution).1 = { debugger with output }) ∧
      ∀ event ∈ (debugger.capture category bytes attribution).2, event.Incidental := by
  unfold capture
  split
  · exact ⟨⟨debugger.output, rfl⟩, by simp⟩
  · refine ⟨⟨_, rfl⟩, ?_⟩
    intro event member
    obtain ⟨chunk, _, rfl⟩ := List.mem_map.mp member
    trivial

theorem reconfigure_spec (debugger : Debugger) (config : Config.Store) :
    (∃ sources exceptionFilters, (debugger.reconfigure config).1 =
        { debugger with config, mapping := config.mapping, sources, exceptionFilters }) ∧
      ∀ event ∈ (debugger.reconfigure config).2, event.Incidental := by
  refine ⟨⟨_, _, rfl⟩, ?_⟩
  intro event member
  obtain ⟨resolved, _, rfl⟩ := List.mem_map.mp member
  trivial

theorem attach_events (debugger : Debugger) (handle : Nat) :
    ∀ event ∈ (debugger.attach handle).2.2, event.Incidental := by
  intro event member
  simp only [attach] at member
  split at member
  · obtain rfl := List.mem_singleton.mp member
    trivial
  · contradiction

theorem detach_spec {handle : Nat} {announce : Bool} {events : List Event}
    (detached : debugger.detach handle announce = some (next, events)) :
    (∃ registry thread, debugger.registry.detach handle = some (registry, thread) ∧
      next = { debugger with
        registry, control := (debugger.control.abandonStep thread.id).getD debugger.control }) ∧
      ∀ event ∈ events, event.Incidental := by
  obtain ⟨⟨registry, thread⟩, found, gone⟩ := Option.map_eq_some_iff.mp detached
  cases gone
  refine ⟨⟨registry, thread, found, rfl⟩, ?_⟩
  intro event member
  split at member
  · obtain rfl := List.mem_singleton.mp member
    trivial
  · contradiction

def bare (debugger : Debugger) (output : Output.Pipeline) : Debugger :=
  { debugger with registry := debugger.registry.detachAll.1, redirected := [], output }

/-- The first end refuses what is queued; a later one finds nothing to do but to forget. -/
theorem teardown_spec (debugger : Debugger) :
    ∃ (output : Output.Pipeline) (events : List Event), (∀ event ∈ events, event.Incidental) ∧
      ((∃ control, debugger.control.terminate = some control ∧ debugger.teardown =
          ({ debugger with control, queue := [] }.bare output,
            debugger.queue.map (refusal .terminated) ++ events.map .event, true)) ∨
        (debugger.control.state = .terminated ∧
          debugger.teardown = (debugger.bare output, events.map .event, false))) := by
  cases ended : debugger.control.terminate with
  | some control =>
    let ending := { debugger with control, queue := [] }.bare debugger.output
    refine ⟨ending.flushOutput.1.output.reset, ending.flushOutput.2,
      (flushOutput_spec ending).2, Or.inl ⟨control, rfl, ?_⟩⟩
    simp only [teardown, ended]
    rfl
  | none =>
    have ends : debugger.control.state = .terminated := by
      by_contra live
      simp [Execution.Control.terminate, live] at ended
    let ending := debugger.bare debugger.output
    refine ⟨ending.flushOutput.1.output.reset, ending.flushOutput.2,
      (flushOutput_spec ending).2, Or.inr ⟨ends, ?_⟩⟩
    simp only [teardown, ended]
    rfl

theorem releaseIfReady_spec (debugger : Debugger) :
    ∃ control, debugger.releaseIfReady = { debugger with control } ∧
      (control = debugger.control ∨ (debugger.configured = true ∧ debugger.launched = true ∧
        debugger.control.configurationDone debugger.stopOnEntry = some control)) := by
  unfold releaseIfReady
  split
  · rename_i ready
    split
    · rename_i control done
      exact ⟨control, rfl, Or.inr ⟨by simp_all, by simp_all, done⟩⟩
    · exact ⟨debugger.control, rfl, Or.inl rfl⟩
  · exact ⟨debugger.control, rfl, Or.inl rfl⟩

theorem releaseIfReady_queue (debugger : Debugger) :
    debugger.releaseIfReady.queue = debugger.queue := by
  obtain ⟨control, same, _⟩ := debugger.releaseIfReady_spec
  rw [same]

theorem releaseIfReady_released (debugger : Debugger) (configured : debugger.configured = true)
    (launched : debugger.launched = true) :
    debugger.releaseIfReady.control.state ≠ .initializing := by
  intro initializing
  cases done : debugger.control.configurationDone debugger.stopOnEntry with
  | none =>
    simp only [releaseIfReady, configured, launched, done, Bool.and_self, if_true] at initializing
    simp [Execution.Control.configurationDone, initializing] at done
  | some control =>
    simp only [releaseIfReady, configured, launched, done, Bool.and_self, if_true] at initializing
    obtain ⟨_, rfl⟩ := Execution.Control.configurationDone_eq_some.mp done
    contradiction

/-- A command that adjusts the session sends nothing before its answer, and changes what is
installed and asked for, but no signal of the session. -/
theorem carryOut_adjusts {command : ControlCommand}
    (carried : debugger.carryOut command request = .ok change) (adjusts : command.adjusts = true) :
    change.before = [] ∧ (change.after = [] ∨ change.after = [.initialized]) ∧
      ∃ control breakpoints exceptionFilters coordinates initialized clientFilters,
        change.debugger = { debugger with
          control, breakpoints, exceptionFilters, coordinates, initialized, clientFilters } ∧
        (control = debugger.control ∨
          command = .pause ∧ debugger.control.requestPause = some control) ∧
        (breakpoints = debugger.breakpoints ∨ ∃ key source requests,
          breakpoints = (debugger.breakpoints.replace key source requests).1) := by
  cases command with
  | handshake =>
    simp only [carryOut, handshake] at carried
    split at carried
    · contradiction
    · cases carried
      exact ⟨rfl, Or.inr rfl, _, _, _, _, _, _, rfl, Or.inl rfl, Or.inl rfl⟩
  | setBreakpoints =>
    simp only [carryOut, setBreakpoints] at carried
    split at carried
    · contradiction
    · split at carried
      · contradiction
      · cases carried
        exact ⟨rfl, Or.inl rfl, _, _, _, _, _, _, rfl, Or.inl rfl, Or.inr ⟨_, _, _, rfl⟩⟩
  | setExceptionBreakpoints =>
    simp only [carryOut, setExceptionBreakpoints] at carried
    split at carried
    · contradiction
    · split at carried
      · contradiction
      · cases carried
        exact ⟨rfl, Or.inl rfl, _, _, _, _, _, _, rfl, Or.inl rfl, Or.inl rfl⟩
  | pause =>
    simp only [carryOut, pause] at carried
    split at carried
    · contradiction
    · cases carried
      refine ⟨rfl, Or.inl rfl, _, _, _, _, _, _, rfl, ?_, Or.inl rfl⟩
      cases debugger.control.requestPause with
      | none => exact Or.inl rfl
      | some control => exact Or.inr ⟨rfl, rfl⟩
  | launch | attach | configurationDone | terminate | disconnect => contradiction

theorem start_spec (started : debugger.start request = .ok change) :
    debugger.launched = false ∧
      ∃ (config : Config.Store) (events : List Event) (redirected : List Output.Category)
        (stopOnEntry capturePrint : Bool),
        debugger.config.apply .launch (.object (Arguments.launchSettings request)) = .ok config ∧
        (∀ event ∈ events, event.Incidental) ∧
        change = {
          debugger := { (debugger.reconfigure config).1 with
            redirected, stopOnEntry, capturePrint, launched := true }
          before := events.map .event } := by
  simp only [start] at started
  split at started
  · contradiction
  · rename_i fresh
    split at started
    · contradiction
    · rename_i config applied
      cases started
      exact ⟨by simpa using fresh, config, (debugger.reconfigure config).2, _, _, _, applied,
        (reconfigure_spec debugger config).2, rfl⟩

theorem configurationDone_spec (done : debugger.configurationDone = .ok change) :
    debugger.configured = false ∧ change = { debugger := { debugger with configured := true } } := by
  simp only [configurationDone] at done
  split at done
  · contradiction
  · rename_i fresh
    cases done
    exact ⟨by simpa using fresh, rfl⟩

/-- A command that does not end the session sends incidental events before its answer and keeps the
queue, and only a pause asks anything of the control. -/
theorem carryOut_lasting {command : ControlCommand}
    (carried : debugger.carryOut command request = .ok change)
    (lasts : (Command.control command).endsSession = false) :
    (∃ events : List Event, (∀ event ∈ events, event.Incidental) ∧
      change.before = events.map .event) ∧
      change.debugger.queue = debugger.queue ∧
      (command = .pause ∨ change.debugger.control = debugger.control) := by
  cases command with
  | handshake | setBreakpoints | setExceptionBreakpoints | pause =>
    obtain ⟨before, _, _, _, _, _, _, _, same, asked, _⟩ := carryOut_adjusts carried rfl
    rw [same]
    exact ⟨⟨[], by simp, before⟩, rfl, asked.symm.imp_left And.left⟩
  | launch | attach =>
    obtain ⟨_, _, events, _, _, _, _, incidental, rfl⟩ := start_spec carried
    exact ⟨⟨events, incidental, rfl⟩, rfl, Or.inr rfl⟩
  | configurationDone =>
    obtain ⟨_, rfl⟩ := configurationDone_spec carried
    exact ⟨⟨[], by simp, rfl⟩, rfl, Or.inr rfl⟩
  | terminate | disconnect => contradiction

theorem carryOut_state {command : ControlCommand}
    (carried : debugger.carryOut command request = .ok change)
    (lasts : (Command.control command).endsSession = false) :
    change.debugger.control.state = debugger.control.state := by
  obtain ⟨_, _, rfl | same⟩ := carryOut_lasting carried lasts
  · obtain ⟨_, _, control, _, _, _, _, _, same, asked, _⟩ := carryOut_adjusts carried rfl
    rw [same]
    rcases asked with rfl | ⟨_, paused⟩
    · rfl
    · exact (Execution.Control.requestPause_keeps paused).1
  · rw [same]

/-- The commands that end the session are carried out in every state of it. -/
theorem carryOut_ends {command : ControlCommand} (request : Request)
    (ends : (Command.control command).endsSession = true) :
    ∃ exit, ∀ debugger : Debugger,
      debugger.carryOut command request = .ok (debugger.finishSession exit) := by
  cases command with
  | terminate => exact ⟨false, fun _ => rfl⟩
  | disconnect => exact ⟨true, fun _ => rfl⟩
  | _ => contradiction

end Debugger
end DebugAdapter
