import DebugAdapter.Proofs.Breakpoint.Table
import DebugAdapter.Proofs.Message.Arguments
import DebugAdapter.Proofs.Output.Pipeline
import DebugAdapter.Proofs.Session.Effect

/-! A debugger for a client that counts from zero beside the same one for a client that counts from
one. Whatever they are told and asked, they stay the same, and what the second sends is what the
first sends with every line and every column raised by one. -/
namespace DebugAdapter

def Breakpoint.Request.raised (request : Breakpoint.Request) : Breakpoint.Request :=
  { request with line := request.line + 1 }

def Breakpoint.Report.raised (report : Breakpoint.Report) : Breakpoint.Report :=
  { report with line := report.line + 1 }

def FrameView.raised (frame : FrameView) : FrameView :=
  { frame with line := frame.line + 1, column := frame.column + 1 }

def OutputText.raised (output : OutputText) : OutputText :=
  { output with line := output.line.map (· + 1) }

def Body.raised : Body → Body
  | .breakpoints reports => .breakpoints (reports.map .raised)
  | .stackTrace frames total => .stackTrace (frames.map .raised) total
  | .exception record stack =>
    .exception record (stack.map fun frames => frames.map fun (name, line) => (name, line + 1))
  | other => other

def Event.raised : Event → Event
  | .output text => .output text.raised
  | other => other

def Message.raised : Message → Message
  | .response seq command outcome => .response seq command (outcome.map Body.raised)
  | .event content => .event content.raised

theorem raised_events (events : List Event) :
    (events.map Event.raised).map Message.event =
      (events.map Message.event).map Message.raised := by
  simp [Function.comp_def, Message.raised]

def Interpreter.FromOne (interpreter : Interpreter) : Prop :=
  ∀ frame ∈ interpreter.stackFrames, 1 ≤ frame.line ∧ 1 ≤ frame.column

def Errand.FromOne : Errand → Prop
  | .line number _ => 1 ≤ number
  | .exception _ => True

def HookEvent.FromOne : HookEvent → Prop
  | .line number => 1 ≤ number
  | .call | .return_ => True

structure Call.FromOne (call : Call) : Prop where
  interpreter : call.interpreter.FromOne
  errand : call.errand.FromOne

/-- The places that a pipeline keeps count from one. -/
abbrev Output.Pipeline.FromOne (pipeline : Pipeline) : Prop :=
  pipeline.Within fun place => 1 ≤ place.line

/-- Steps of the program and of its interpreter, in which all lines and columns count from one. -/
def Step.FromOne : Step → Prop
  | .request _ | .batch _ => False
  | .hook _ interpreter event => interpreter.FromOne ∧ event.FromOne
  | .lines _ places => ∀ place ∈ places, place.1.FromOne ∧ 1 ≤ place.2
  | .exception _ interpreter _ _ | .panic _ interpreter _ => interpreter.FromOne
  | .print _ origin | .capture _ _ origin => ∀ place ∈ origin, 1 ≤ place.2
  | _ => True

namespace Coordinates

/-- Of a client whose lines and columns start at zero. -/
def fromZero : Coordinates where
  linesFromZero := true
  columnsFromZero := true

theorem fromZero_line {line : Nat} (counted : 1 ≤ line) : fromZero.clientLine line + 1 = line :=
  Nat.sub_add_cancel counted

theorem fromZero_column {column : Nat} (counted : 1 ≤ column) :
    fromZero.clientColumn column + 1 = column :=
  Nat.sub_add_cancel counted

end Coordinates

/-- Arguments for the same breakpoints, from one and from zero. -/
structure Arguments.SetBreakpoints.Mirrors (one zero : Arguments.SetBreakpoints) : Prop where
  source : one.source = zero.source
  requests : one.requests = zero.requests.map .raised

/-- The same request of a client that counts from one and of one that counts from zero. Lines stand
in the arguments for breakpoints only, which can be read for both clients or for neither. -/
inductive Request.Mirrors : Request → Request → Prop where
  | same {request : Request} : request.command ≠ "setBreakpoints" → Mirrors request request
  | breakpoints {one zero : Request} : one.command = "setBreakpoints" →
      one.seq = zero.seq → one.kind = zero.kind → one.command = zero.command →
      Option.Rel Arguments.SetBreakpoints.Mirrors
        (Arguments.read? Arguments.setBreakpoints one)
        (Arguments.read? Arguments.setBreakpoints zero) →
      Mirrors one zero

namespace Request.Mirrors

variable {one zero : Request}

theorem seq (m : Mirrors one zero) : one.seq = zero.seq := by
  cases m with
  | same => rfl
  | breakpoints _ same => exact same

theorem kind (m : Mirrors one zero) : one.kind = zero.kind := by
  cases m with
  | same => rfl
  | breakpoints _ _ same => exact same

theorem command (m : Mirrors one zero) : one.command = zero.command := by
  cases m with
  | same => rfl
  | breakpoints _ _ _ same => exact same

/-- A request for the stopped thread is the same request. -/
theorem plain (m : Mirrors one zero) {command : StoppedCommand}
    (named : Command.ofName? zero.command = some (.stopped command)) : one = zero := by
  cases m with
  | same => rfl
  | breakpoints setting _ _ same =>
    rw [← same, setting] at named
    cases named

end Request.Mirrors

/-- The same step, in a session with the one client and with the other. -/
inductive Step.Mirrors : Step → Step → Prop where
  | request {one zero : Request} : one.Mirrors zero → Mirrors (.request one) (.request zero)
  | batch {ones zeros : List Request} : List.Forall₂ Request.Mirrors ones zeros →
      Mirrors (.batch ones) (.batch zeros)
  | program {step : Step} : step.FromOne → Mirrors step step

/-- Two outcomes that fail alike, or succeed with values that are related. -/
inductive Agree {α : Type} (R : α → α → Prop) : Except Failure α → Except Failure α → Prop where
  | error (failure : Failure) : Agree R (.error failure) (.error failure)
  | ok {one zero : α} : R one zero → Agree R (.ok one) (.ok zero)

namespace Debugger

def fromOne (debugger : Debugger) : Debugger :=
  { debugger with coordinates := {} }

/-- A debugger that has been told to count from zero; within, everything counts from one. -/
structure FromZero (debugger : Debugger) : Prop where
  coordinates : debugger.coordinates = .fromZero
  initialized : debugger.initialized = true
  output : debugger.output.FromOne

structure Mirrors (one zero : Debugger) : Prop where
  same : one = zero.fromOne
  fromZero : zero.FromZero

variable {one zero : Debugger}

/-- What does not depend on the coordinates is the same. -/
theorem Mirrors.reads (m : Mirrors one zero) {α : Type} (read : Debugger → α)
    (unaware : read zero.fromOne = read zero) : read one = read zero := by
  rw [m.same, unaware]

theorem Mirrors.control (m : Mirrors one zero) : one.control = zero.control :=
  m.reads (·.control) rfl

theorem Mirrors.registry (m : Mirrors one zero) : one.registry = zero.registry :=
  m.reads (·.registry) rfl

theorem Mirrors.sources (m : Mirrors one zero) : one.sources = zero.sources :=
  m.reads (·.sources) rfl

theorem Mirrors.breakpoints (m : Mirrors one zero) : one.breakpoints = zero.breakpoints :=
  m.reads (·.breakpoints) rfl

theorem Mirrors.mapping (m : Mirrors one zero) : one.mapping = zero.mapping :=
  m.reads (·.mapping) rfl

theorem Mirrors.config (m : Mirrors one zero) : one.config = zero.config :=
  m.reads (·.config) rfl

theorem Mirrors.queue (m : Mirrors one zero) : one.queue = zero.queue :=
  m.reads (·.queue) rfl

theorem Mirrors.oneBased (m : Mirrors one zero) : one.coordinates = {} := by
  rw [m.same]
  rfl

/-- A change that neither depends on the coordinates nor touches output. -/
theorem Mirrors.modify (m : Mirrors one zero) (change : Debugger → Debugger)
    (unaware : change zero.fromOne = (change zero).fromOne)
    (coordinates : (change zero).coordinates = zero.coordinates)
    (initialized : (change zero).initialized = zero.initialized)
    (output : (change zero).output = zero.output) : Mirrors (change one) (change zero) where
  same := by rw [m.same, unaware]
  fromZero := ⟨coordinates.trans m.fromZero.coordinates, initialized.trans m.fromZero.initialized,
    output ▸ m.fromZero.output⟩

theorem FromZero.chunkEvent (fromZero : zero.FromZero) {chunk : Output.Chunk}
    (placed : ∀ place ∈ chunk.attribution, 1 ≤ place.line) :
    zero.fromOne.chunkEvent chunk = (zero.chunkEvent chunk).raised := by
  obtain ⟨category, run, attribution⟩ := chunk
  cases attribution with
  | none => rfl
  | some place =>
    have counted := Coordinates.fromZero_line (placed place rfl)
    simp only [Debugger.chunkEvent, Event.raised, OutputText.raised, Option.map_some,
      fromZero.coordinates, counted]
    rfl

theorem FromZero.chunkEvents (fromZero : zero.FromZero) {chunks : List Output.Chunk}
    (placed : ∀ chunk ∈ chunks, ∀ place ∈ chunk.attribution, 1 ≤ place.line) :
    chunks.map zero.fromOne.chunkEvent = (chunks.map zero.chunkEvent).map .raised := by
  rw [List.map_map]
  exact List.map_congr_left fun chunk member => fromZero.chunkEvent (placed chunk member)

theorem Mirrors.flushOutput (m : Mirrors one zero) :
    Mirrors one.flushOutput.1 zero.flushOutput.1 ∧
      one.flushOutput.2 = zero.flushOutput.2.map .raised := by
  obtain ⟨rfl, fromZero⟩ := m
  obtain ⟨kept, placed⟩ := fromZero.output.flush zero.mapping.consoleCoding
  exact ⟨⟨rfl, fromZero.coordinates, fromZero.initialized, kept⟩, fromZero.chunkEvents placed⟩

theorem Mirrors.capture (m : Mirrors one zero) (category : Output.Category) (bytes : List UInt8)
    {attribution : Option Output.Attribution} (placed : ∀ place ∈ attribution, 1 ≤ place.line) :
    Mirrors (one.capture category bytes attribution).1
        (zero.capture category bytes attribution).1 ∧
      (one.capture category bytes attribution).2 =
        (zero.capture category bytes attribution).2.map .raised := by
  simp only [Debugger.capture, m.reads (·.isTerminated) rfl]
  split
  · exact ⟨m, rfl⟩
  · obtain ⟨rfl, fromZero⟩ := m
    obtain ⟨kept, sent⟩ :=
      fromZero.output.capture category bytes zero.mapping.consoleCoding placed
    exact ⟨⟨rfl, fromZero.coordinates, fromZero.initialized, kept⟩, fromZero.chunkEvents sent⟩

theorem Mirrors.reconfigure (m : Mirrors one zero) (config : Config.Store) :
    Mirrors (one.reconfigure config).1 (zero.reconfigure config).1 ∧
      (one.reconfigure config).2 = (zero.reconfigure config).2.map .raised := by
  obtain ⟨rfl, fromZero⟩ := m
  refine ⟨⟨rfl, fromZero.coordinates, fromZero.initialized, fromZero.output⟩, ?_⟩
  simp only [Debugger.reconfigure, List.map_map, Function.comp_def, Event.raised]
  rfl

theorem Mirrors.resolve (m : Mirrors one zero) (interpreter : Interpreter) (chunk : List UInt8) :
    Mirrors (one.resolve interpreter chunk).debugger (zero.resolve interpreter chunk).debugger ∧
      (one.resolve interpreter chunk).resolved = (zero.resolve interpreter chunk).resolved ∧
      (one.resolve interpreter chunk).callbacks = (zero.resolve interpreter chunk).callbacks ∧
      (one.resolve interpreter chunk).events =
        (zero.resolve interpreter chunk).events.map .raised := by
  have origin : one.originOf interpreter chunk = zero.originOf interpreter chunk :=
    m.reads (·.originOf interpreter chunk) rfl
  cases known : zero.sources.find? chunk with
  | some resolved =>
    simp only [Debugger.resolve, m.sources, known, List.map_nil, and_true]
    exact m
  | none =>
    simp only [Debugger.resolve, m.sources, known, origin, true_and]
    refine ⟨m.modify (fun debugger => { debugger with
      sources := (zero.sources.register chunk (zero.originOf interpreter chunk).1).1 })
        rfl rfl rfl rfl, ?_⟩
    split <;> rfl

theorem Mirrors.attach (m : Mirrors one zero) (handle : Nat) :
    Mirrors (one.attach handle).1 (zero.attach handle).1 ∧
      (one.attach handle).2.1 = (zero.attach handle).2.1 ∧
      (one.attach handle).2.2 = (zero.attach handle).2.2.map .raised := by
  have silent : (zero.attach handle).2.2.map Event.raised = (zero.attach handle).2.2 := by
    simp only [Debugger.attach]
    split <;> rfl
  refine ⟨m.modify (fun debugger => (debugger.attach handle).1) rfl rfl rfl rfl, ?_⟩
  obtain ⟨rfl, _⟩ := m
  exact ⟨rfl, silent.symm⟩

theorem Mirrors.detach (m : Mirrors one zero) (handle : Nat) (announce : Bool) :
    Option.Rel (fun first second => Mirrors first.1 second.1 ∧ first.2 = second.2.map .raised)
      (one.detach handle announce) (zero.detach handle announce) := by
  simp only [Debugger.detach, m.registry]
  cases zero.registry.detach handle with
  | none => exact .none
  | some result =>
    refine .some ⟨m.modify (fun debugger => { debugger with
      registry := result.1
      control := (debugger.control.abandonStep result.2.id).getD debugger.control })
        rfl rfl rfl rfl, ?_⟩
    dsimp only
    split <;> rfl

theorem raised_refusals (failure : Failure) (queue : List Deferred) :
    (queue.map (refusal failure)).map Message.raised = queue.map (refusal failure) := by
  rw [List.map_map]
  rfl

/-- What is pending is sent when the session ends, and nothing is kept. -/
theorem Mirrors.drain (m : Mirrors one zero) :
    Mirrors { one.flushOutput.1 with output := one.flushOutput.1.output.reset }
        { zero.flushOutput.1 with output := zero.flushOutput.1.output.reset } ∧
      one.flushOutput.2 = zero.flushOutput.2.map .raised := by
  obtain ⟨⟨same, fromZero⟩, sent⟩ := m.flushOutput
  refine ⟨⟨?_, fromZero.coordinates, fromZero.initialized, Output.Pipeline.within_reset _⟩, sent⟩
  rw [same]
  rfl

theorem Mirrors.teardown (m : Mirrors one zero) :
    Mirrors one.teardown.1 zero.teardown.1 ∧
      one.teardown.2.1 = zero.teardown.2.1.map .raised ∧ one.teardown.2.2 = zero.teardown.2.2 := by
  have bare := m.modify (fun debugger => debugger.bare debugger.output) rfl rfl rfl rfl
  have ending := m.reads (·.control.terminate) rfl
  cases ended : zero.control.terminate with
  | none =>
    obtain ⟨drained, sent⟩ := bare.drain
    simp only [Debugger.teardown, ending, ended, List.nil_append, and_true]
    exact ⟨drained, by rw [← raised_events]; exact congrArg (List.map Message.event) sent⟩
  | some control =>
    obtain ⟨drained, sent⟩ := (bare.modify (fun debugger =>
      { debugger with control, queue := [] }) rfl rfl rfl rfl).drain
    simp only [Debugger.teardown, ending, ended, m.queue, List.map_append, raised_refusals,
      and_true]
    exact ⟨drained, by rw [← raised_events]; exact congrArg (_ ++ List.map Message.event ·) sent⟩

theorem Mirrors.releaseIfReady (m : Mirrors one zero) :
    Mirrors one.releaseIfReady zero.releaseIfReady := by
  have ready : (one.configured && one.launched) = (zero.configured && zero.launched) :=
    m.reads (fun debugger => debugger.configured && debugger.launched) rfl
  have done := m.reads (fun debugger => debugger.control.configurationDone debugger.stopOnEntry) rfl
  simp only [Debugger.releaseIfReady, ready, done]
  split
  · split
    · rename_i control _
      exact m.modify (fun debugger => { debugger with control }) rfl rfl rfl rfl
    · exact m
  · exact m

end Debugger

structure Change.Mirrors (one zero : Change) : Prop where
  debugger : one.debugger.Mirrors zero.debugger
  before : one.before = zero.before.map .raised
  body : one.body = zero.body.raised
  after : one.after = zero.after.map .raised
  exit : one.exit = zero.exit

namespace Debugger

theorem Mirrors.handshake (m : Mirrors one zero) (request : Request) :
    Agree Change.Mirrors (one.handshake request) (zero.handshake request) := by
  have known : one.initialized = zero.initialized := m.reads (·.initialized) rfl
  simp only [Debugger.handshake, known, m.fromZero.initialized, if_true]
  exact .error _

theorem Mirrors.start (m : Mirrors one zero) (request : Request) :
    Agree Change.Mirrors (one.start request) (zero.start request) := by
  have launched : one.launched = zero.launched := m.reads (·.launched) rfl
  simp only [Debugger.start, launched, m.config]
  split
  · exact .error _
  · split
    · exact .error _
    · rename_i config _
      obtain ⟨configured, told⟩ := m.reconfigure config
      refine .ok ⟨configured.modify (fun debugger => { debugger with
        redirected := redirections config.settings
        launched := true
        stopOnEntry := config.settings.stopOnEntry
        capturePrint := config.settings.captures .print }) rfl rfl rfl rfl, ?_, rfl, rfl, rfl⟩
      dsimp only
      rw [told, raised_events]

/-- A line that is a word, as the client that counts from zero sends it. -/
theorem fromZero_interpreterLine {line : Nat} (word : line + 1 < Word.limit32) :
    Coordinates.fromZero.interpreterLine line = line + 1 :=
  Nat.min_eq_left (Nat.le_sub_one_of_lt word)

theorem raised_reports {reports : List Breakpoint.Report}
    (counted : ∀ report ∈ reports, 1 ≤ report.line) :
    (reports.map fun report =>
        { report with line := Coordinates.fromZero.clientLine report.line }).map .raised =
      reports := by
  rw [List.map_map]
  refine (List.map_congr_left fun report member => ?_).trans (List.map_id reports)
  have raised := Coordinates.fromZero_line (counted report member)
  simp only [Function.comp_apply, Breakpoint.Report.raised, raised, id]

theorem reports_counted (table : Breakpoint.Table) (key : String) (source : Source)
    (requests : List Breakpoint.Request) :
    ∀ report ∈ (table.replace key source (requests.map .raised)).2, 1 ≤ report.line := by
  intro report member
  have line := List.mem_map_of_mem (f := (·.line)) member
  rw [Breakpoint.Table.replace_reports, List.map_map] at line
  obtain ⟨request, _, same⟩ := List.mem_map.mp line
  exact same ▸ Nat.le_add_left 1 request.line

theorem Mirrors.setBreakpoints (m : Mirrors one zero) {first second : Request}
    (command : first.command = second.command)
    (asked : Option.Rel Arguments.SetBreakpoints.Mirrors
      (Arguments.read? Arguments.setBreakpoints first)
      (Arguments.read? Arguments.setBreakpoints second)) :
    Agree Change.Mirrors (one.setBreakpoints first) (zero.setBreakpoints second) := by
  obtain ⟨rfl, fromZero⟩ := m
  have words := @Arguments.setBreakpoints_line first
  simp only [Debugger.setBreakpoints, command]
  generalize Arguments.read? Arguments.setBreakpoints first = one at asked words ⊢
  generalize Arguments.read? Arguments.setBreakpoints second = other at asked ⊢
  cases asked with
  | none => exact .error _
  | @some given shown same =>
    have requests : shown.requests.map (fun breakpoint =>
        { breakpoint with line := zero.coordinates.interpreterLine breakpoint.line }) =
        given.requests := by
      rw [same.requests, fromZero.coordinates]
      refine List.map_congr_left fun breakpoint member => ?_
      have word := words rfl _ (same.requests ▸ List.mem_map_of_mem member)
      rw [fromZero_interpreterLine word]
      rfl
    have unchanged : given.requests.map (fun breakpoint =>
        { breakpoint with line := zero.fromOne.coordinates.interpreterLine breakpoint.line }) =
        given.requests :=
      List.map_id given.requests
    simp only [same.source, requests, unchanged]
    cases breakpointKey? shown.source with
    | none => exact .error _
    | some key =>
      refine .ok ⟨⟨rfl, fromZero.coordinates, fromZero.initialized, fromZero.output⟩, rfl, ?_, rfl,
        rfl⟩
      have counted := reports_counted zero.breakpoints key shown.source shown.requests
      rw [← same.requests] at counted
      simp only [Body.raised, fromZero.coordinates, raised_reports counted]
      exact congrArg Body.breakpoints (List.map_id _)

theorem Mirrors.setExceptionBreakpoints (m : Mirrors one zero) (request : Request) :
    Agree Change.Mirrors (one.setExceptionBreakpoints request)
      (zero.setExceptionBreakpoints request) := by
  simp only [Debugger.setExceptionBreakpoints]
  split
  · exact .error _
  · rename_i filters _
    split
    · exact .error _
    · exact .ok ⟨m.modify (fun debugger =>
        { debugger with exceptionFilters := filters, clientFilters := true }) rfl rfl rfl rfl,
        rfl, rfl, rfl, rfl⟩

theorem Mirrors.configurationDone (m : Mirrors one zero) :
    Agree Change.Mirrors one.configurationDone zero.configurationDone := by
  have configured : one.configured = zero.configured := m.reads (·.configured) rfl
  simp only [Debugger.configurationDone, configured]
  split
  · exact .error _
  · exact .ok ⟨m.modify (fun debugger => { debugger with configured := true }) rfl rfl rfl rfl,
      rfl, rfl, rfl, rfl⟩

theorem Mirrors.pause (m : Mirrors one zero) (request : Request) :
    Agree Change.Mirrors (one.pause request) (zero.pause request) := by
  simp only [Debugger.pause]
  split
  · exact .error _
  · exact .ok ⟨m.modify (fun debugger => { debugger with
      control := debugger.control.requestPause.getD debugger.control }) rfl rfl rfl rfl,
      rfl, rfl, rfl, rfl⟩

theorem Mirrors.finishSession (m : Mirrors one zero) (exit : Bool) :
    Change.Mirrors (one.finishSession exit) (zero.finishSession exit) := by
  obtain ⟨ended, refused, first⟩ := m.teardown
  refine ⟨ended, refused, rfl, ?_, rfl⟩
  simp only [Debugger.finishSession, first]
  split <;> rfl

/-- A command that is carried out for both clients has the same outcome. -/
theorem Mirrors.carryOut (m : Mirrors one zero) {first second : Request}
    (asked : first.Mirrors second) {command : ControlCommand}
    (named : Command.ofName? first.command = some (.control command)) :
    Agree Change.Mirrors (one.carryOut command first) (zero.carryOut command second) := by
  cases asked with
  | breakpoints setting _ _ same arguments =>
    rw [setting] at named
    cases named
    exact m.setBreakpoints same arguments
  | same other =>
    cases command with
    | handshake => exact m.handshake first
    | launch | attach => exact m.start first
    | setBreakpoints =>
      have setting : first.command = "setBreakpoints" := by
        simpa [Command.table] using Command.mem_table named
      exact absurd setting other
    | setExceptionBreakpoints => exact m.setExceptionBreakpoints first
    | configurationDone => exact m.configurationDone
    | pause => exact m.pause first
    | terminate => exact .ok (m.finishSession false)
    | disconnect => exact .ok (m.finishSession true)

end Debugger

structure Reply.Mirrors (one zero : Reply) : Prop where
  debugger : one.debugger.Mirrors zero.debugger
  events : one.events = zero.events.map .raised
  body : one.body = zero.body.raised
  resume : one.resume = zero.resume
  framesFetched : one.framesFetched = zero.framesFetched

structure Inspected.Mirrors (one zero : Inspected) : Prop where
  callbacks : one.callbacks = zero.callbacks
  outcome : Agree Reply.Mirrors one.outcome zero.outcome

theorem Agree.body {outcome other : Except Failure Reply}
    (agree : Agree Reply.Mirrors outcome other) :
    outcome.map (·.body) = (other.map (·.body)).map Body.raised := by
  cases agree with
  | error failure => rfl
  | ok replies => exact congrArg Except.ok replies.body

namespace Debugger

theorem fail_mirrors (failure : Failure) :
    (Inspected.fail failure).Mirrors (Inspected.fail failure) :=
  ⟨rfl, .error failure⟩

theorem withArguments_mirrors {record : Json.Record α} {request : Request}
    {answer other : α → Inspected} (answers : ∀ a, (answer a).Mirrors (other a)) :
    (withArguments record request answer).Mirrors (withArguments record request other) := by
  unfold withArguments
  split
  · exact answers _
  · exact fail_mirrors _

/-- A reply without lines that changes nothing. -/
theorem Mirrors.reply (m : Mirrors one zero) (stop : Stop) {body : Body}
    (plain : body.raised = body) : Reply.Mirrors (one.reply stop body) (zero.reply stop body) :=
  ⟨m, rfl, plain.symm, rfl, rfl⟩

theorem Mirrors.ask (m : Mirrors one zero) (stop : Stop) (callbacks : List Callback)
    (answer : Except InterpreterError α) {body : α → Body} (plain : ∀ a, (body a).raised = body a) :
    (one.ask stop callbacks answer body).Mirrors (zero.ask stop callbacks answer body) := by
  refine ⟨rfl, ?_⟩
  cases answer with
  | error error => exact .error _
  | ok a => exact .ok (m.reply stop (plain a))

structure Shown.Mirrors (one zero : Shown) : Prop where
  debugger : one.debugger.Mirrors zero.debugger
  callbacks : one.callbacks = zero.callbacks
  events : one.events = zero.events.map .raised
  frames : one.frames = zero.frames.map .raised

theorem frameView_raised (index : Nat) {frame : Frame} (line : 1 ≤ frame.line)
    (column : 1 ≤ frame.column) (resolved : Option Source.Resolved) :
    frameView {} index frame resolved = (frameView .fromZero index frame resolved).raised := by
  simp only [frameView, FrameView.raised, Coordinates.fromZero_line line,
    Coordinates.fromZero_column column]
  rfl

theorem Shown.Mirrors.add {one zero : Shown} (m : one.Mirrors zero) (interpreter : Interpreter)
    {frame : Frame} (index : Nat) (counted : 1 ≤ frame.line ∧ 1 ≤ frame.column) :
    (one.add interpreter (frame, index)).Mirrors (zero.add interpreter (frame, index)) := by
  have view := frameView_raised index counted.1 counted.2
  cases chunk : frame.chunk with
  | none =>
    simp only [Shown.add, chunk, m.debugger.oneBased, m.debugger.fromZero.coordinates, view, m.frames]
    exact ⟨m.debugger, m.callbacks, m.events, by simp⟩
  | some chunk' =>
    obtain ⟨kept, resolved, callbacks, events⟩ := m.debugger.resolve interpreter chunk'
    simp only [Shown.add, chunk, m.debugger.oneBased, m.debugger.fromZero.coordinates, view, m.frames,
      resolved, callbacks, events, m.callbacks, m.events]
    exact ⟨kept, rfl, by simp, by simp⟩

theorem Shown.Mirrors.addAll {one zero : Shown} (m : one.Mirrors zero) (interpreter : Interpreter)
    {entries : List (Frame × Nat)}
    (counted : ∀ entry ∈ entries, 1 ≤ entry.1.line ∧ 1 ≤ entry.1.column) :
    (entries.foldl (Shown.add interpreter) one).Mirrors
      (entries.foldl (Shown.add interpreter) zero) :=
  List.foldl_rel m fun entry member _ _ shown =>
    shown.add interpreter entry.2 (counted entry member)

theorem mem_selectFrames {arguments : Arguments.StackTrace} {frames : List Frame}
    {entry : Frame × Nat} (member : entry ∈ selectFrames arguments frames) : entry.1 ∈ frames :=
  List.fst_mem_of_mem_zipIdx (List.mem_of_mem_drop (List.mem_of_mem_take member))

theorem Mirrors.inspectStack (m : Mirrors one zero) {stop : Stop}
    (fromOne : stop.call.interpreter.FromOne) (arguments : Arguments.StackTrace) :
    (one.inspectStack stop arguments).Mirrors (zero.inspectStack stop arguments) := by
  simp only [Debugger.inspectStack, m.registry]
  split
  · split
    · exact fail_mirrors _
    · exact ⟨rfl, .ok (m.reply stop rfl)⟩
  · have begun : Shown.Mirrors { debugger := one } { debugger := zero } := ⟨m, rfl, rfl, rfl⟩
    have counted : ∀ entry ∈ selectFrames arguments stop.call.interpreter.stackFrames,
        1 ≤ entry.1.line ∧ 1 ≤ entry.1.column :=
      fun entry member => fromOne entry.1 (mem_selectFrames member)
    have shown := begun.addAll stop.call.interpreter counted
    exact ⟨congrArg (fetchFrames stop ++ ·) shown.callbacks, .ok ⟨shown.debugger, shown.events,
      congrArg (Body.stackTrace · _) shown.frames, rfl, rfl⟩⟩

theorem stack_raised {interpreter : Interpreter} (fromOne : interpreter.FromOne) :
    interpreter.stackFrames.map (fun frame =>
        (frame.name, ({} : Coordinates).clientLine frame.line)) =
      (interpreter.stackFrames.map fun frame =>
        (frame.name, Coordinates.fromZero.clientLine frame.line)).map
          fun (name, line) => (name, line + 1) := by
  rw [List.map_map]
  refine List.map_congr_left fun frame member => ?_
  simp only [Function.comp_apply, Coordinates.fromZero_line (fromOne frame member).1]
  rfl

theorem Mirrors.inspectException (m : Mirrors one zero) {stop : Stop}
    (fromOne : stop.call.interpreter.FromOne) (id : Nat) :
    (one.inspectException stop id).Mirrors (zero.inspectException stop id) := by
  simp only [Debugger.inspectException, m.registry, m.oneBased, m.fromZero.coordinates]
  split
  · exact fail_mirrors _
  · split
    · exact fail_mirrors _
    · split
      · exact ⟨rfl, .ok ⟨m, rfl, congrArg (Body.exception _ <| some ·) (stack_raised fromOne), rfl,
          rfl⟩⟩
      · exact ⟨rfl, .ok (m.reply stop rfl)⟩

/-- The stopped thread asks the interpreter the same, and answers the same. -/
theorem Mirrors.inspect (m : Mirrors one zero) {stop : Stop}
    (fromOne : stop.call.interpreter.FromOne) (deferred : Deferred) :
    (one.inspect stop deferred).Mirrors (zero.inspect stop deferred) := by
  obtain ⟨request, command⟩ := deferred
  cases command with
  | threads =>
    simp only [Debugger.inspect, inspectThreads, m.registry]
    exact ⟨rfl, .ok (m.reply stop rfl)⟩
  | stackTrace => exact withArguments_mirrors fun arguments => m.inspectStack fromOne arguments
  | source =>
    refine withArguments_mirrors fun arguments => ?_
    simp only [inspectSource, m.sources]
    split
    · exact ⟨rfl, .ok (m.reply stop rfl)⟩
    · exact fail_mirrors _
  | scopes => exact withArguments_mirrors fun frame => m.ask stop _ _ fun _ => rfl
  | children => exact withArguments_mirrors fun reference => m.ask stop _ _ fun _ => rfl
  | setVariable =>
    refine withArguments_mirrors fun arguments => ?_
    split
    · exact m.ask stop _ _ fun _ => rfl
    · exact fail_mirrors _
  | evaluate => exact withArguments_mirrors fun arguments => m.ask stop _ _ fun _ => rfl
  | exceptionInfo => exact withArguments_mirrors fun id => m.inspectException fromOne id
  | loadedSources =>
    simp only [Debugger.inspect, m.sources]
    exact ⟨rfl, .ok (m.reply stop rfl)⟩
  | continue_ =>
    refine withArguments_mirrors fun id => ?_
    simp only [resumeAll, m.registry]
    split
    · exact fail_mirrors _
    · exact ⟨rfl, .ok ⟨m, rfl, rfl, rfl, rfl⟩⟩
  | next | stepIn | stepOut =>
    refine withArguments_mirrors fun id => ?_
    simp only [step, m.registry]
    split
    · split
      · exact fail_mirrors _
      · exact fail_mirrors _
    · exact ⟨rfl, .ok ⟨m, rfl, rfl, rfl, rfl⟩⟩

end Debugger

end DebugAdapter
