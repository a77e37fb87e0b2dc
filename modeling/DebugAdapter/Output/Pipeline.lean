import DebugAdapter.Output.Escape
import DebugAdapter.Source.Basic

/-!
Captured output on its way to the client: a parser for each category, and the place in the program
to which the run that is open is attributed.
-/

namespace DebugAdapter.Output

inductive Category where
  | console
  | stdout
  | stderr
  deriving DecidableEq, Repr

def Category.name : Category → String
  | .console => "console"
  | .stdout => "stdout"
  | .stderr => "stderr"

/-- The place in a script that wrote a run. -/
structure Attribution where
  source : Source
  line : Nat
  deriving DecidableEq, Repr

structure Chunk where
  category : Category
  run : Run
  attribution : Option Attribution
  deriving DecidableEq, Repr

structure Channel where
  parser : Parser := {}
  /-- Where the open run comes from. -/
  attribution : Option Attribution := none
  deriving DecidableEq, Repr, Inhabited

namespace Channel

/-- Of the runs that one call completes, the first belongs to the place where it was begun and the
others to the place of the call. -/
def credit (category : Category) (opened given : Option Attribution) : List Run → List Chunk
  | [] => []
  | run :: rest => ⟨category, run, opened⟩ :: rest.map fun run => ⟨category, run, given⟩

def capture (channel : Channel) (category : Category) (bytes : List UInt8)
    (coding : Text.Encoding) (given : Option Attribution) : Channel × List Chunk :=
  let opened := if channel.parser.hasPending then channel.attribution else given
  let (parser, runs) := channel.parser.feed coding bytes
  ({ parser, attribution := if runs.isEmpty then opened else given },
    credit category opened given runs)

def flush (channel : Channel) (category : Category) (coding : Text.Encoding) :
    Channel × List Chunk :=
  let (parser, runs) := channel.parser.flush coding
  ({ channel with parser }, runs.map fun run => ⟨category, run, channel.attribution⟩)

def reset (channel : Channel) : Channel :=
  { parser := channel.parser.reset }

end Channel

structure Pipeline where
  console : Channel := {}
  stdout : Channel := {}
  stderr : Channel := {}
  deriving DecidableEq, Repr, Inhabited

namespace Pipeline

def get (pipeline : Pipeline) : Category → Channel
  | .console => pipeline.console
  | .stdout => pipeline.stdout
  | .stderr => pipeline.stderr

def set (pipeline : Pipeline) (category : Category) (channel : Channel) : Pipeline :=
  match category with
  | .console => { pipeline with console := channel }
  | .stdout => { pipeline with stdout := channel }
  | .stderr => { pipeline with stderr := channel }

def capture (pipeline : Pipeline) (category : Category) (bytes : List UInt8)
    (coding : Text.Encoding) (attribution : Option Attribution) : Pipeline × List Chunk :=
  let (channel, chunks) := (pipeline.get category).capture category bytes coding attribution
  (pipeline.set category channel, chunks)

/-- Emits what is pending, category by category. -/
def flush (pipeline : Pipeline) (coding : Text.Encoding) : Pipeline × List Chunk :=
  let (console, first) := pipeline.console.flush .console coding
  let (stdout, second) := pipeline.stdout.flush .stdout coding
  let (stderr, third) := pipeline.stderr.flush .stderr coding
  (⟨console, stdout, stderr⟩, first ++ second ++ third)

def reset (pipeline : Pipeline) : Pipeline :=
  ⟨pipeline.console.reset, pipeline.stdout.reset, pipeline.stderr.reset⟩

end Pipeline

end DebugAdapter.Output
