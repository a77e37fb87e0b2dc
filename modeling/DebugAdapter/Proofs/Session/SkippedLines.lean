import DebugAdapter.Proofs.Session.History
import DebugAdapter.Proofs.Session.Resolution

/-! Lines in skipped files. Whether a file is skipped is decided by the configuration in force when
its thread comes to a line, and a line in a skipped file does nothing but return, whenever it gets to
run. -/
namespace DebugAdapter

def Call.Skipped (call : Call) : Prop :=
  ∃ line source, call.errand = .line line source ∧ source.skipped = true

namespace Session

open Source (Origin)

variable {session next : Session} {call : Call} {history : List Happening}

theorem proceed_skipped (live : session.debugger.control.state ≠ .terminated)
    (skipped : call.Skipped) :
    session.proceed call = if session.debugger.control.blocks call.thread then session.block call
      else session.finish call.handle none := by
  obtain ⟨line, source, errand, skips⟩ := skipped
  simp only [proceed, errand, skips, Execution.Control.lineGate, if_neg live,
    Execution.Control.passLine, if_true]
  cases session.debugger.control.blocks call.thread with
  | true => rfl
  | false => exact leave_line errand

theorem Still.unstops (still : Still session next) :
    next.stopped.map (·.call) = session.stopped.map (·.call) ∨ next.stopped = none := by
  cases still with
  | answer | attach | waits => exact .inl rfl
  | act act =>
    cases act with
    | aside aside => cases aside <;> exact .inl rfl
    | decline | capture | shutdown | dismiss => exact .inl rfl
    | reply deferred rest stop body framesFetched waiting held =>
      exact .inl (congrArg (Option.map (·.call)) held).symm
    | resume | release => exact .inr rfl
    | detach handle announce =>
      unfold detach
      split <;> exact .inl rfl
    | reconfigure change =>
      unfold configure
      split <;> exact .inl rfl

theorem unfolds_unskipped (unfolds : Unfolds session history next)
    (unskipped : ∀ stop, session.stopped = some stop → ¬stop.call.Skipped) :
    ∀ stop, next.stopped = some stop → ¬stop.call.Skipped := by
  induction unfolds with
  | refl => exact unskipped
  | @still _ middle next _ still ih =>
    intro stop held
    rcases still.unstops with same | none
    · rw [held, Option.map_some, eq_comm, Option.map_eq_some_iff] at same
      obtain ⟨before, earlier, call⟩ := same
      exact call ▸ ih before earlier
    · simp [none] at held
  | @request _ middle request _ ih =>
    rw [(handle_calls middle request).1]
    exact ih
  | @call _ middle call _ begun live ih =>
    by_cases skipped : call.Skipped
    · rw [proceed_skipped live skipped]
      split <;> exact ih
    · have goes : Goes middle call (middle.proceed call) := proceed_goes begun live
      generalize middle.proceed call = reached at goes
      cases goes with
      | waits => exact ih
      | returns looked =>
        obtain ⟨_, _, _, rfl⟩ := looked
        exact ih
      | stops reason exception control =>
        intro stop held
        cases held
        exact skipped

/-- A file is skipped as the mapping in force says, whenever it was seen first. -/
theorem locate_skipped (inStep : session.InStep) (handle : Nat) (interpreter : Interpreter)
    {server : String} (named : session.debugger.mapping.sourceToServer interpreter.chunk = some server)
    (file : ∀ resolved, session.debugger.sources.find? interpreter.chunk = some resolved →
      resolved.server.isSome = true) :
    (session.locate handle interpreter).source.skipped =
      session.debugger.mapping.isSkipped server (session.debugger.mapping.serverToClient server) := by
  let client := session.debugger.mapping.serverToClient server
  have origin : Origin.file? session.debugger.mapping interpreter.chunk =
      some (.file server client (session.debugger.mapping.isSkipped server client)) := by
    simp only [Origin.file?, named, client]
    rfl
  have attached : (session.findOrAttach handle).1.debugger.sources = session.debugger.sources ∧
      (session.findOrAttach handle).1.debugger.mapping = session.debugger.mapping := by
    unfold findOrAttach
    split <;> exact ⟨rfl, rfl⟩
  have located : (session.locate handle interpreter).source =
      ((session.findOrAttach handle).1.debugger.resolve interpreter interpreter.chunk).resolved := rfl
  rw [located]
  generalize (session.findOrAttach handle).1.debugger = debugger at attached
  obtain ⟨sources, mapping⟩ := attached
  cases known : session.debugger.sources.find? interpreter.chunk with
  | some resolved =>
    rw [Debugger.resolve_known (sources ▸ known)]
    exact congrArg (·.skipped) (inStep.current.fresh known (file resolved known) origin {}).symm
  | none =>
    rw [(Debugger.resolve_unknown (sources ▸ known) interpreter).2.1]
    simp only [Debugger.originOf, mapping, origin]
    rfl

theorem locate_listed (session : Session) (handle : Nat) (interpreter : Interpreter) :
    ((session.locate handle interpreter).thread, handle) ∈
      (session.locate handle interpreter).session.debugger.registry.roster := by
  obtain ⟨_, _, listed⟩ := findOrAttach_advances session handle
  obtain ⟨sources, callbacks, news, _, same⟩ :=
    discover_spec (session.findOrAttach handle).1 interpreter interpreter.chunk
  have located : (session.locate handle interpreter).session =
      (session.findOrAttach handle).1.discover interpreter interpreter.chunk := rfl
  rw [located, same]
  exact listed

theorem enter_skipped (settled : session.Settled) (rested : session.Rested)
    (live : session.debugger.control.state ≠ .terminated)
    (listed : (call.thread, call.handle) ∈ session.debugger.registry.roster)
    (available : (session.isStoppedAt call.handle || session.isBlockedAt call.handle) = false)
    (skipped : call.Skipped) :
    ((session.enter call).settle, (session.enter call).settle.callState call.handle) =
      if session.debugger.control.blocks call.thread then
        ((session.modifyDebugger (·.modifyThread call.thread Thread.setSuspended)).block call, .blocked)
      else (session.finish call.handle none, .done) := by
  have running : ¬session.isTerminated = true := (isTerminated_iff settled.coherent).not.mpr live
  cases waits : session.debugger.control.blocks call.thread with
  | true =>
    obtain ⟨entered, still, state⟩ := enter_behind settled live waits available
    rw [still, state, entered, if_pos rfl]
  | false =>
    have free : session.Free call :=
      Execution.Control.waitUntilRunnable_eq_true.mpr ⟨live, waits⟩
    obtain ⟨unstopped, empty, awake⟩ := alone_of_free settled rested free listed available
    have entered : session.enter call = session.finish call.handle none := by
      rw [enter_free free awake, proceed_skipped live skipped, waits]
      rfl
    have still : (session.finish call.handle none).settle = session.finish call.handle none :=
      settle_unblocked running empty
    rw [entered, still]
    simp [callState, isStoppedAt, isBlockedAt, finish, unstopped, empty]

theorem perform_skipped (settled : session.Settled) (rested : session.Rested)
    (live : session.debugger.control.state ≠ .terminated) {handle : Nat}
    (available : (session.isStoppedAt handle || session.isBlockedAt handle) = false)
    (interpreter : Interpreter) (line : Nat)
    (skipped : (session.locate handle interpreter).source.skipped = true) :
    let place := session.locate handle interpreter
    session.perform (.hook handle interpreter (.line line)) =
      if session.debugger.control.blocks place.thread then
        ((place.session.modifyDebugger (·.modifyThread place.thread Thread.setSuspended)).block
          (place.arrival handle interpreter line), .call .blocked)
      else (place.session.finish handle none, .call .done) := by
  intro place
  have located : Located session place.session := locate_located session handle interpreter
  obtain ⟨settledThere, restedThere⟩ := locate_rests settled rested handle interpreter
  have attends := hook_attends settled.coherent.control rested live handle interpreter line
  rw [attendLine_eq] at attends
  have free : (place.session.isStoppedAt handle || place.session.isBlockedAt handle) = false := by
    simpa only [isStoppedAt, isBlockedAt, located.stopped, located.blocked] using available
  have entered := @enter_skipped place.session (place.arrival handle interpreter line) settledThere
    restedThere (located.control ▸ live) (locate_listed session handle interpreter) free
    ⟨line, place.source, rfl, skipped⟩
  rw [located.control] at entered
  simp only [perform, Session.call, available, Bool.false_eq_true, if_false, attends]
  let performed (result : Session × CallState) : Session × StepResult := (result.1, .call result.2)
  exact (congrArg performed entered).trans (apply_ite performed _ _ _)

/-- In every run, a line in a skipped file does nothing when it gets to run, so no such line is ever
stopped. Whether its file is skipped is what the settings in force say when its thread comes there,
whenever the file was seen first and with or without the check in passing. If it is, the line returns
at once, or it waits because the program is held back or another thread is stopped. -/
theorem skipped_lines_inert (steps : List Step) :
    let session := ({} : Session).run steps
    (∀ here call, .call here call ∈ ({} : Session).history steps → call.Skipped →
      here.proceed call = if here.debugger.control.blocks call.thread then here.block call
        else here.finish call.handle none) ∧
    (∀ stop, session.stopped = some stop → ¬stop.call.Skipped) ∧
    ∀ mapping handle interpreter line server,
      Path.Mapping.ofSettings session.debugger.config.settings = .ok mapping →
      mapping.sourceToServer interpreter.chunk = some server →
      (∀ resolved, session.debugger.sources.find? interpreter.chunk = some resolved →
        resolved.server.isSome = true) →
      let place := session.locate handle interpreter
      let arrival := place.arrival handle interpreter line
      place.source.skipped = mapping.isSkipped server (mapping.serverToClient server) ∧
        (session.debugger.control.state ≠ .terminated →
          session.hook handle interpreter (.line line) = place.session.enter arrival) ∧
        (place.source.skipped = true → session.debugger.control.state ≠ .terminated →
          (session.isStoppedAt handle || session.isBlockedAt handle) = false →
          Located session place.session ∧
            session.perform (.hook handle interpreter (.line line)) =
              if session.debugger.control.blocks place.thread then
                ((place.session.modifyDebugger (·.modifyThread place.thread
                  Thread.setSuspended)).block arrival, .call .blocked)
              else (place.session.finish handle none, .call .done)) := by
  intro session
  have settled : session.Settled := run_settled steps
  have rested : session.Rested := run_rested steps
  have inStep : session.InStep := run_inStep steps
  have unfolds := run_unfolds steps
  refine ⟨fun here call member skipped => proceed_skipped (unfolds.proceeds member).2 skipped,
    unfolds_unskipped unfolds nofun, ?_⟩
  intro mapping handle interpreter line server made named file place arrival
  have force : mapping = session.debugger.mapping := by
    have held := inStep.config.mapping
    rw [← inStep.mapping] at held
    exact Except.ok.inj (made.symm.trans held)
  subst force
  refine ⟨locate_skipped inStep handle interpreter named file, fun live => ?_,
    fun skipped live available => ⟨locate_located session handle interpreter,
      perform_skipped settled rested live available interpreter line skipped⟩⟩
  rw [hook_attends settled.coherent.control rested live, attendLine_eq]

/-- Whether a line stops that gets to run in a file which is skipped by then. -/
def staleStop (server : String) : Happening → Bool
  | .request .. => false
  | .call here call =>
    match call.errand with
    | .exception _ => false
    | .line .. =>
      let mapping := here.debugger.mapping
      mapping.sourceToServer call.interpreter.chunk = some server
        && mapping.isSkipped server (mapping.serverToClient server)
        && (here.proceed call).stopped.isSome

/-- A thread waits on a line until the program is let go, and in the meantime the launch has its file
skipped; still it stops there on entry. -/
theorem stale_line_stops :
    ¬∀ steps here call line source server, .call here call ∈ ({} : Session).history steps →
      call.errand = .line line source →
      here.debugger.mapping.sourceToServer call.interpreter.chunk = some server →
      here.debugger.mapping.isSkipped server (here.debugger.mapping.serverToClient server) = true →
      (here.proceed call).stopped.isNone = true := by
  intro inert
  let steps : List Step := [
    .hook 1 (.blank [64, 47, 109] 0) (.line 1),
    .request {
      seq := 1
      command := "launch"
      arguments := some (.object [
        ("skipFiles", .array [.string "/m"]), ("stopOnEntry", .bool true)]) },
    .request { seq := 2, command := "configurationDone" }]
  have stops : ∃ happening ∈ ({} : Session).history steps, staleStop "/m" happening = true := by
    decide +kernel
  clear_value steps
  obtain ⟨happening, member, stops⟩ := stops
  cases happening with
  | request => contradiction
  | call here call =>
    cases errand : call.errand with
    | exception record => simp [staleStop, errand] at stops
    | line line source =>
      simp only [staleStop, errand, Bool.and_eq_true, decide_eq_true_eq] at stops
      have none := inert steps here call line source "/m" member errand stops.1.1 stops.1.2
      simp [Option.isNone_iff_eq_none.mp none] at stops

end Session
end DebugAdapter
