import DebugAdapter.Proofs.Breakpoint.Table
import DebugAdapter.Proofs.Session.History

/-! How often a breakpoint is hit, and what comes of it. From the request that installs it to the
next one for its source, it counts the lines that get to it while its condition holds. -/
namespace DebugAdapter

open Breakpoint (Action LineBreakpoint)

namespace Interpreter

def grants (interpreter : Interpreter) (condition : Option String) : Bool :=
  condition.all fun expression =>
    match interpreter.condition expression with
    | .ok value => value
    | .error _ => true

/-- What the client is told of a condition that cannot be decided. -/
def complaints (interpreter : Interpreter) : Option String → List Event
  | none => []
  | some expression =>
    match interpreter.condition expression with
    | .ok _ => []
    | .error error => [Debugger.consoleEvent
        ("breakpoint condition '" ++ expression ++ "' failed: " ++ error.message)]

theorem complaints_of_refused {interpreter : Interpreter} {condition : Option String}
    (refused : interpreter.grants condition = false) : interpreter.complaints condition = [] := by
  cases condition with
  | none => rfl
  | some expression =>
    simp only [grants, Option.all_some, complaints] at refused ⊢
    split at refused
    · rfl
    · contradiction

end Interpreter

namespace Session

/-- Whether a call goes on to the breakpoints of a line: its file is not skipped, it need not wait,
nothing that is asked for stops it, and its thread is not in a step. -/
def reaches (session : Session) (call : Call) (key : String) (line : Nat) : Bool :=
  match call.errand with
  | .exception _ => false
  | .line place source =>
    source.key = key && place = line && !source.skipped
      && !session.debugger.control.blocks call.thread
      && session.debugger.control.pending.isNone
      && session.debugger.control.step.all (·.thread ≠ call.thread)

def replaces? (session : Session) (request : Request) : Option String :=
  if session.succeeds .setBreakpoints request then
    (Arguments.read? Arguments.setBreakpoints request).bind fun arguments =>
      Debugger.breakpointKey? arguments.source
  else none

def logged (session : Session) (interpreter : Interpreter) (source : Source) (line : Nat)
    (fragments : List Breakpoint.Fragment) : Event :=
  .output {
    text := (logText interpreter fragments).1 ++ "\n"
    category := .console
    source := some source
    line := some (session.debugger.coordinates.clientLine line) }

structure Returns (session : Session) (call : Call) (told : List Event) (next : Session) :
    Prop where
  outbox : next.outbox = session.outbox ++ told.map .event
  finished : next.finished = session.finished ++ [(call.handle, none)]
  stopped : next.stopped = session.stopped
  control : next.debugger.control = session.debugger.control

structure Stops (session : Session) (call : Call) (told : List Event) (next : Session) :
    Prop where
  outbox : ∃ news, News news ∧ next.outbox = session.outbox ++ told.map .event ++ news ++
    [.event (.stopped call.thread .breakpoint none)]
  finished : next.finished = session.finished
  stopped : next.stopped = some { call }
  state : next.debugger.control.state = .stopped .breakpoint

/-- What comes of a hit, by the number of hits: a log message is written, or else the thread stops,
unless there is a hit condition that is not met. -/
def Acted (session : Session) (call : Call) (action : Action) (hits line : Nat) (source : Source)
    (next : Session) : Prop :=
  let complaints := call.interpreter.complaints action.condition
  if action.hitCondition.all (·.isMet hits) then
    match action.logMessage with
    | some fragments =>
      session.Returns call (complaints ++ [session.logged call.interpreter source line fragments]) next
    | none => session.Stops call complaints next
  else session.Returns call complaints next

end Session

namespace Happening

/-- Whether a line gets to its breakpoint while the condition holds. -/
def visits (key : String) (line : Nat) (condition : Option String) : Happening → Bool
  | .request .. => false
  | .call here going => here.reaches going key line && going.interpreter.grants condition

def replaces? : Happening → Option String
  | .request here asked => here.replaces? asked
  | .call .. => none

end Happening

namespace Session

variable {session next : Session} {call : Call} {key : String} {line : Nat}
  {source : Source.Resolved} {breakpoint : LineBreakpoint}

theorem lineGate_breakpoints {control after : Execution.Control} {thread depth : Nat}
    {skipped : Bool} (live : control.state ≠ .terminated) :
    control.lineGate thread depth skipped = some (after, .breakpoints) ↔
      after = control ∧ skipped = false ∧ control.blocks thread = false ∧ control.pending = none ∧
        control.step.all (·.thread ≠ thread) = true := by
  unfold Execution.Control.lineGate
  rw [if_neg live]
  cases waits : control.blocks thread with
  | true => simp
  | false =>
    unfold Execution.Control.passLine
    cases skipped with
    | true => simp
    | false =>
      cases asked : control.pending with
      | some reason => simp
      | none =>
        cases step : control.step with
        | none => simp [eq_comm]
        | some target =>
          by_cases own : target.thread = thread
          · have taken : (some target).filter (·.thread = thread) = some target := by simp [own]
            simp only [Bool.false_eq_true, if_false, taken, Option.all_some]
            cases target.kind.reached target.depth depth <;> simp [own]
          · have spared : (some target).filter (·.thread = thread) = none := by simp [own]
            simp only [Bool.false_eq_true, if_false, spared, Option.all_some]
            simp [own, eq_comm]

theorem proceed_reaching (live : session.debugger.control.state ≠ .terminated)
    (reaches : session.reaches call key line = true) :
    ∃ source, call.errand = .line line source ∧ source.key = key ∧
      session.debugger.control.heldByOther call.thread = false ∧
      session.proceed call = session.visit call line source := by
  unfold Session.reaches at reaches
  cases errand : call.errand with
  | exception record => simp [errand] at reaches
  | line place source =>
    simp only [errand, Bool.and_eq_true, decide_eq_true_eq, Bool.not_eq_true',
      Option.isNone_iff_eq_none] at reaches
    obtain ⟨⟨⟨⟨⟨own, rfl⟩, unskipped⟩, unblocked⟩, unasked⟩, apart⟩ := reaches
    have gate : session.debugger.control.lineGate call.thread call.interpreter.depth source.skipped =
        some (session.debugger.control, .breakpoints) :=
      (lineGate_breakpoints live).mpr ⟨rfl, unskipped, unblocked, unasked, apart⟩
    refine ⟨source, rfl, own, (Bool.or_eq_false_iff.mp unblocked).2, ?_⟩
    simp only [proceed, errand, gate, modifyDebugger]

theorem checkCondition_spec (session : Session) (interpreter : Interpreter)
    (condition : Option String) :
    ∃ callbacks, session.checkCondition interpreter condition =
      ({ session with
          callbacks
          outbox := session.outbox ++ (interpreter.complaints condition).map .event },
        interpreter.grants condition) := by
  cases condition with
  | none =>
    refine ⟨session.callbacks, ?_⟩
    simp only [checkCondition, Interpreter.complaints, Interpreter.grants, List.map_nil,
      List.append_nil, Option.all_none]
  | some expression =>
    refine ⟨session.callbacks ++ [.evaluate expression (some 0)], ?_⟩
    simp only [checkCondition, Interpreter.complaints, Interpreter.grants, Option.all_some]
    cases interpreter.condition expression with
    | ok value => simp only [note, List.map_nil, List.append_nil]
    | error error => rfl

theorem visit_refused (errand : call.errand = .line line source)
    (found : session.debugger.breakpoints.get? source.key line = some breakpoint)
    (refused : call.interpreter.grants breakpoint.action.condition = false) :
    session.Returns call [] (session.visit call line source) ∧
      (session.visit call line source).debugger = session.debugger := by
  obtain ⟨callbacks, checked⟩ :=
    session.checkCondition_spec call.interpreter breakpoint.action.condition
  rw [Interpreter.complaints_of_refused refused, refused] at checked
  simp only [visit, found, checked, Bool.not_false, if_true, leave_line errand]
  exact ⟨⟨rfl, rfl, rfl, rfl⟩, rfl⟩

theorem visit_counts (errand : call.errand = .line line source)
    (found : session.debugger.breakpoints.get? source.key line = some breakpoint)
    (granted : call.interpreter.grants breakpoint.action.condition = true) :
    ∃ counted : Session, (∃ callbacks, counted = { session with
        debugger := { session.debugger with
          breakpoints := (session.debugger.breakpoints.recordHit source.key line).1 }
        callbacks
        outbox := session.outbox ++
          (call.interpreter.complaints breakpoint.action.condition).map .event }) ∧
      session.visit call line source =
        if breakpoint.action.hitCondition.all
            (·.isMet (session.debugger.breakpoints.recordHit source.key line).2) then
          match breakpoint.action.logMessage with
          | some fragments =>
            (counted.log call.interpreter source.source line fragments).finish call.handle none
          | none => counted.beginStop call .breakpoint none
        else counted.finish call.handle none := by
  obtain ⟨callbacks, checked⟩ :=
    session.checkCondition_spec call.interpreter breakpoint.action.condition
  refine ⟨_, ⟨callbacks, rfl⟩, ?_⟩
  rw [granted] at checked
  simp only [visit, found, checked, Bool.not_true, Bool.false_eq_true, if_false, modifyDebugger,
    leave_line errand]
  cases breakpoint.action.hitCondition with
  | none => rfl
  | some condition =>
    simp only [Option.any_some, Option.all_some]
    by_cases met : condition.isMet (session.debugger.breakpoints.recordHit source.key line).2 = true
    · cases breakpoint.action.logMessage <;>
        simp only [met, Bool.not_true, Bool.false_eq_true, if_false, if_true]
    · simp only [met, Bool.not_false, Bool.false_eq_true, if_false, if_true]

theorem visit_granted (live : session.debugger.control.state ≠ .terminated)
    (unheld : session.debugger.control.heldByOther call.thread = false)
    (errand : call.errand = .line line source)
    (found : session.debugger.breakpoints.get? source.key line = some breakpoint)
    (granted : call.interpreter.grants breakpoint.action.condition = true) :
    (session.visit call line source).debugger.breakpoints =
        (session.debugger.breakpoints.recordHit source.key line).1 ∧
      session.Acted call breakpoint.action
        (session.debugger.breakpoints.recordHit source.key line).2 line source.source
        (session.visit call line source) := by
  obtain ⟨counted, ⟨callbacks, same⟩, visits⟩ := visit_counts errand found granted
  rw [visits]
  unfold Acted
  dsimp only
  split
  · cases breakpoint.action.logMessage with
    | some fragments =>
      subst same
      exact ⟨rfl, by simp [log, finish, note, emit, send, logged], rfl, rfl, rfl⟩
    | none =>
      have control : counted.debugger.control = session.debugger.control := by rw [same]
      dsimp only
      rw [beginStop_free (control ▸ live) (control ▸ unheld)]
      obtain ⟨registry, output, news, incidental, _, _, stopped⟩ := stop_spec
        (counted.modifyDebugger fun debugger => { debugger with
          control := debugger.control.enterStop call.thread .breakpoint }) call .breakpoint none
      rw [stopped]
      subst same
      exact ⟨rfl, ⟨news, incidental, rfl⟩, rfl, rfl, rfl⟩
  · subst same
    exact ⟨rfl, rfl, rfl, rfl, rfl⟩

theorem visit_breakpoints (live : session.debugger.control.state ≠ .terminated)
    (unheld : session.debugger.control.heldByOther call.thread = false)
    (errand : call.errand = .line line source) :
    (session.visit call line source).debugger.breakpoints = session.debugger.breakpoints ∨
      (session.visit call line source).debugger.breakpoints =
        (session.debugger.breakpoints.recordHit source.key line).1 := by
  cases found : session.debugger.breakpoints.get? source.key line with
  | none =>
    simp only [visit, found, leave_line errand]
    exact .inl rfl
  | some breakpoint =>
    cases granted : call.interpreter.grants breakpoint.action.condition with
    | false => exact .inl (congrArg _ (visit_refused errand found granted).2)
    | true => exact .inr (visit_granted live unheld errand found granted).1

theorem proceed_unreaching (live : session.debugger.control.state ≠ .terminated)
    (unreached : session.reaches call key line = false) :
    (session.proceed call).debugger.breakpoints.get? key line =
      session.debugger.breakpoints.get? key line := by
  cases errand : call.errand with
  | exception record =>
    simp only [proceed, errand, beginStop]
    split
    · rfl
    · rename_i ends
      exact absurd (Execution.Control.beginStop_eq_false.mp ends).1 live
    · rfl
  | line place source =>
    simp only [proceed, errand]
    split
    · rfl
    · rename_i control gate passed
      cases gate with
      | stop reason => rfl
      | suppressed | terminated =>
        simp only [leave_line errand]
        rfl
      | breakpoints =>
        obtain ⟨rfl, unskipped, unblocked, unasked, apart⟩ := (lineGate_breakpoints live).mp passed
        have other : ¬(key = source.key ∧ line = place) := by
          rintro ⟨rfl, rfl⟩
          simp_all [Session.reaches]
        rcases visit_breakpoints live (Bool.or_eq_false_iff.mp unblocked).2 errand with same | same
        · exact congrArg (·.get? key line) same
        · exact (congrArg (·.get? key line) same).trans (Breakpoint.Table.get?_recordHit_of_ne other)

theorem carryOut_breakpoints {debugger : Debugger} {command : ControlCommand} {request : Request}
    {change : Change} (carried : debugger.carryOut command request = .ok change)
    (other : command ≠ .setBreakpoints) : change.debugger.breakpoints = debugger.breakpoints := by
  cases command with
  | setBreakpoints => contradiction
  | handshake | setExceptionBreakpoints | pause =>
    simp only [Debugger.carryOut, Debugger.handshake, Debugger.setExceptionBreakpoints,
      Debugger.pause] at carried
    repeat' split at carried
    all_goals first | contradiction | cases carried; rfl
  | launch | attach =>
    obtain ⟨_, _, _, _, _, _, _, _, rfl⟩ := Debugger.start_spec carried
    rfl
  | configurationDone =>
    obtain ⟨_, rfl⟩ := Debugger.configurationDone_spec carried
    rfl
  | terminate | disconnect =>
    cases carried
    obtain ⟨_, _, _, ⟨_, _, torn⟩ | ⟨_, torn⟩⟩ := Debugger.teardown_spec debugger
    all_goals
      simp only [Debugger.finishSession, torn]
      rfl

/-- A request replaces the breakpoints of one source, or it leaves all of them. -/
theorem handle_breakpoints (session : Session) (request : Request) :
    (session.replaces? request = none ∧
        (session.handle request).1.debugger.breakpoints = session.debugger.breakpoints) ∨
      ∃ key source requests, session.replaces? request = some key ∧
        (session.handle request).1.debugger.breakpoints =
          (session.debugger.breakpoints.replace key source requests).1 := by
  rcases handle_spec session request with ⟨command, change, succeeded, carried, same⟩ |
    ⟨failed, control, queue, same⟩
  · obtain ⟨control, released, _⟩ := Debugger.releaseIfReady_spec change.debugger
    rw [same, released]
    by_cases sets : command = .setBreakpoints
    · subst sets
      right
      simp only [Debugger.carryOut, Debugger.setBreakpoints] at carried
      split at carried
      · contradiction
      · rename_i arguments read
        split at carried
        · contradiction
        · rename_i key named
          cases carried
          exact ⟨key, _, _, by simp [replaces?, succeeded, read, named], rfl⟩
    · refine .inl ⟨?_, carryOut_breakpoints carried sets⟩
      have unset := succeeds_other succeeded sets
      simp [replaces?, unset]
  · exact .inl ⟨by simp [replaces?, failed], by rw [same]⟩

theorem unfolds_hits {history : List Happening} (unfolds : Unfolds session history next)
    (kept : ∀ happening ∈ history, happening.replaces? ≠ some key)
    (found : session.debugger.breakpoints.get? key line = some breakpoint)
    (counted : breakpoint.hits ≤ Breakpoint.Table.maxHits) :
    next.debugger.breakpoints.get? key line = some { breakpoint with
      hits := min (breakpoint.hits + history.countP
        (·.visits key line breakpoint.action.condition)) Breakpoint.Table.maxHits } := by
  induction unfolds with
  | refl => rw [found, List.countP_nil, Nat.add_zero, Nat.min_eq_left counted]
  | still _ still ih =>
    rcases still.debugger with ⟨_, _, _, _, _, _, same⟩ | ⟨config, same⟩
    all_goals
      rw [same]
      exact ih kept
  | @request history middle request _ ih =>
    have held := ih fun happening member => kept happening (List.mem_append_left _ member)
    have other := kept (.request middle request) (by simp)
    rw [List.countP_append, List.countP_singleton]
    rcases handle_breakpoints middle request with ⟨_, same⟩ | ⟨owner, source, requests, sets, same⟩
    · rw [same]
      exact held
    · have apart : key ≠ owner := fun own => other (own ▸ sets)
      rw [same, Breakpoint.Table.get?_replace_of_ne _ apart]
      exact held
  | @call history middle call _ begun live ih =>
    have held := ih fun happening member => kept happening (List.mem_append_left _ member)
    rw [List.countP_append, List.countP_singleton]
    cases reached : middle.reaches call key line with
    | false =>
      rw [proceed_unreaching live reached]
      simpa [Happening.visits, reached] using held
    | true =>
      obtain ⟨source, errand, rfl, unheld, visits⟩ := proceed_reaching live reached
      rw [visits]
      cases granted : call.interpreter.grants breakpoint.action.condition with
      | false =>
        rw [(visit_refused errand held granted).2]
        simpa [Happening.visits, granted] using held
      | true =>
        rw [(visit_granted live unheld errand held granted).1,
          (Breakpoint.Table.get?_recordHit held).2]
        simp only [Happening.visits, reached, granted, Bool.and_self, if_true]
        congr 2
        omega

theorem replaced_unhit {request : Request} (sets : session.replaces? request = some key)
    (installed : (session.handle request).1.debugger.breakpoints.get? key line = some breakpoint) :
    breakpoint.hits = 0 := by
  rcases handle_breakpoints session request with ⟨unset, _⟩ | ⟨owner, source, requests, same, table⟩
  · simp [sets] at unset
  · obtain rfl := Option.some.inj (sets.symm.trans same)
    rw [table, Breakpoint.Table.get?, Breakpoint.Table.lines_replace] at installed
    exact Breakpoint.Table.Draft.foldl_unhit source requests
      (fun _ member => absurd member List.not_mem_nil) breakpoint
      (List.mem_of_find?_eq_some installed)

/-- From the request that installs a breakpoint to the next one for its source, it counts the lines
that get to it while its condition holds. Each such line acts by the number of them: it stops, or it
writes the log message and does not stop, unless there is a hit condition that is not met. A line on
which the condition is false changes nothing, and of a condition that cannot be decided the client is
told once. -/
theorem hits_counted (steps : List Step) {before since rest : List Happening} {opening : Session}
    {request : Request} {key : String} {line : Nat} {breakpoint : LineBreakpoint}
    (whole : ({} : Session).history steps = before ++ .request opening request :: (since ++ rest))
    (sets : opening.replaces? request = some key)
    (kept : ∀ happening ∈ since, happening.replaces? ≠ some key)
    (installed : (opening.handle request).1.debugger.breakpoints.get? key line = some breakpoint)
    (countable : since.countP (·.visits key line breakpoint.action.condition) < Word.limit64) :
    let visited (happenings : List Happening) : Nat :=
      happenings.countP (·.visits key line breakpoint.action.condition)
    (rest = [] → (({} : Session).run steps).debugger.breakpoints.get? key line =
        some { breakpoint with hits := visited since }) ∧
      ∀ earlier happening later, since = earlier ++ happening :: later →
        happening.session.debugger.breakpoints.get? key line =
            some { breakpoint with hits := visited earlier } ∧
          ∀ session call, happening = .call session call → session.reaches call key line = true →
            if call.interpreter.grants breakpoint.action.condition then
              ∃ source, call.errand = .line line source ∧
                session.Acted call breakpoint.action (visited earlier + 1) line source.source
                  (session.proceed call)
            else
              session.Returns call [] (session.proceed call) ∧
                (session.proceed call).debugger = session.debugger := by
  intro visited
  have fresh : breakpoint.hits = 0 := replaced_unhit sets installed
  obtain ⟨_, follows⟩ := (run_unfolds steps).split whole
  have count {happenings : List Happening} {reached : Session}
      (unfolds : Unfolds (opening.handle request).1 happenings reached)
      (inside : ∀ happening ∈ happenings, happening ∈ since)
      (fewer : visited happenings ≤ visited since) :
      reached.debugger.breakpoints.get? key line =
        some { breakpoint with hits := visited happenings } := by
    have hits := unfolds_hits unfolds (fun happening member => kept happening (inside happening member))
      installed (fresh ▸ Nat.zero_le _)
    have small : visited happenings ≤ Breakpoint.Table.maxHits :=
      Nat.le_sub_one_of_lt (Nat.lt_of_le_of_lt fewer countable)
    rwa [fresh, Nat.zero_add, Nat.min_eq_left small] at hits
  refine ⟨fun last => ?_, fun earlier happening later split => ?_⟩
  · subst last
    rw [List.append_nil] at follows
    exact count follows (fun _ member => member) (Nat.le_refl _)
  · have cut : since ++ rest = earlier ++ happening :: (later ++ rest) := by simp [split]
    obtain ⟨reached, _⟩ := follows.split cut
    have fewer : visited earlier ≤ visited since := by simp [visited, split]
    have found := count reached (fun _ member => by simp [split, member]) fewer
    refine ⟨found, ?_⟩
    rintro session call rfl reaches
    change session.debugger.breakpoints.get? key line = _ at found
    have happens : .call session call ∈ since ++ rest := by simp [cut]
    have live := (follows.proceeds happens).2
    obtain ⟨source, errand, rfl, unheld, visits⟩ := proceed_reaching live reaches
    rw [visits]
    split
    · rename_i granted
      have acted := (visit_granted live unheld errand found granted).2
      have within : visited earlier + 1 ≤ Breakpoint.Table.maxHits := by
        have more : visited earlier + 1 ≤ visited since := by
          simp [visited, split, Happening.visits, reaches, granted]
        exact Nat.le_sub_one_of_lt (Nat.lt_of_le_of_lt more countable)
      rw [(Breakpoint.Table.get?_recordHit found).1, Nat.min_eq_left within] at acted
      exact ⟨source, errand, acted⟩
    · rename_i refused
      exact visit_refused errand found (Bool.not_eq_true _ ▸ refused)

/-- Two threads come to a breakpoint that stops at its second hit. -/
theorem second_visit_stops :
    let configure : Request := { seq := 1, command := "configurationDone" }
    let launch : Request := { seq := 2, command := "launch", arguments := some (.object []) }
    let install : Request := {
      seq := 3
      command := "setBreakpoints"
      arguments := some (.object [
        ("source", .object [("path", .string "/a")]),
        ("breakpoints", .array [
          .object [("line", .ofNat 3), ("hitCondition", .string "2")]])]) }
    let visits : List Step := [
      .hook 1 (.blank [64, 47, 97] 0) (.line 3), .hook 2 (.blank [64, 47, 97] 0) (.line 3)]
    let steps := .request configure :: .request launch :: .request install :: visits
    ((({} : Session).run steps).debugger.breakpoints.get? "/a" 3).map (·.hits) = some 2 ∧
      ∃ here : Session, ∃ call, here.Stops call [] (here.proceed call) := by
  intro configure launch install visits steps
  let started := ({} : Session).run [.request configure, .request launch]
  let since := (started.perform (.request install)).1.history visits
  have whole : ({} : Session).history steps =
      [.request {} configure, .request (({} : Session).perform (.request configure)).1 launch] ++
        .request started install :: (since ++ []) := by
    dsimp only [steps]
    rw [history_request (List.isEmpty_iff.mp (by decide +kernel)),
      history_request (List.isEmpty_iff.mp (by decide +kernel)),
      history_request (List.isEmpty_iff.mp (by decide +kernel)), List.append_nil]
    rfl
  have installed : (started.handle install).1.debugger.breakpoints.get? "/a" 3 =
      some { id := 1, line := 3, action := ⟨none, some ⟨.equal, 2⟩, none⟩ } := by decide +kernel
  obtain ⟨counts, acts⟩ := hits_counted steps whole
    (by decide +kernel : started.replaces? install = some "/a") (by decide +kernel) installed
    (by decide +kernel)
  have counted := counts rfl
  have visited : ∀ happening ∈ since, happening.visits "/a" 3 none = true := by decide +kernel
  obtain ⟨first, second, both⟩ := List.length_eq_two.mp (by decide +kernel : since.length = 2)
  clear_value steps since started
  subst both
  have once := visited first (by simp)
  have twice := visited second (by simp)
  constructor
  · simp [counted, once, twice]
  · cases second with
    | request => contradiction
    | call here call =>
      simp only [Happening.visits, Bool.and_eq_true] at twice
      have outcome := (acts [first] _ [] rfl).2 here call rfl twice.1
      rw [if_pos twice.2] at outcome
      obtain ⟨source, -, acted⟩ := outcome
      dsimp only at acted
      rw [List.countP_singleton, if_pos once] at acted
      exact ⟨here, call, acted⟩

end Session
end DebugAdapter
