import DebugAdapter.Output.Pipeline
import Mathlib.Data.List.Basic

/-! Output that waits to be sent: a reset drops it, and a flush finds nothing once it is gone. -/
namespace DebugAdapter.Output.Pipeline

/-- No category has text that is still to be sent. -/
def Drained (pipeline : Pipeline) : Prop :=
  ∀ category, (pipeline.get category).parser.hasPending = false

variable {pipeline : Pipeline}

theorem drained_new : ({} : Pipeline).Drained := by
  intro category
  cases category <;> rfl

theorem drained_reset (pipeline : Pipeline) : pipeline.reset.Drained := by
  intro category
  cases category <;> rfl

theorem flush_idle {channel : Channel} (idle : channel.parser.hasPending = false)
    (category : Category) (coding : Text.Encoding) :
    channel.flush category coding = (channel, []) := by
  simp only [Parser.hasPending, Bool.not_eq_false'] at idle
  simp only [Channel.flush, Parser.flush, idle, if_true, List.map_nil]

theorem Drained.flush (drained : pipeline.Drained) (coding : Text.Encoding) :
    pipeline.flush coding = (pipeline, []) := by
  have console : pipeline.console.flush .console coding = _ := flush_idle (drained .console) _ _
  have stdout : pipeline.stdout.flush .stdout coding = _ := flush_idle (drained .stdout) _ _
  have stderr : pipeline.stderr.flush .stderr coding = _ := flush_idle (drained .stderr) _ _
  simp only [Pipeline.flush, console, stdout, stderr, get, List.append_nil]

/-- Every run that is completed is handed on, in order. -/
theorem credit_runs (category : Category) (opened given : Option Attribution) (runs : List Run) :
    (Channel.credit category opened given runs).map (·.run) = runs := by
  cases runs with
  | nil => rfl
  | cons run rest => simp [Channel.credit, Function.comp_def]

theorem credit_category (category : Category) (opened given : Option Attribution)
    (runs : List Run) :
    ∀ chunk ∈ Channel.credit category opened given runs, chunk.category = category := by
  intro chunk member
  cases runs with
  | nil => contradiction
  | cons run rest =>
    rcases List.mem_cons.mp member with rfl | later
    · rfl
    · obtain ⟨_, _, rfl⟩ := List.mem_map.mp later
      rfl

/-- A capture feeds the parser of its category and no other, and what that completes is sent. -/
theorem capture_spec (pipeline : Pipeline) (category : Category) (bytes : List UInt8)
    (coding : Text.Encoding) (given : Option Attribution) :
    let fed := (pipeline.get category).parser.feed coding bytes
    let captured := pipeline.capture category bytes coding given
    (captured.1.get category).parser = fed.1 ∧
      (∀ other, other ≠ category → captured.1.get other = pipeline.get other) ∧
      captured.2.map (·.run) = fed.2 ∧ ∀ chunk ∈ captured.2, chunk.category = category := by
  refine ⟨?_, fun other different => ?_, credit_runs category _ given _,
    credit_category category _ given _⟩
  · cases category <;> rfl
  · cases category <;> cases other <;> first | rfl | contradiction

theorem get_set (pipeline : Pipeline) (category other : Category) (channel : Channel) :
    (pipeline.set category channel).get other =
      if category = other then channel else pipeline.get other := by
  cases category <;> cases other <;> rfl

/-- A flush sends what waits in each category. -/
theorem get_flush (pipeline : Pipeline) (coding : Text.Encoding) (category : Category) :
    (pipeline.flush coding).1.get category = ((pipeline.get category).flush category coding).1 ∧
      (pipeline.flush coding).2.filter (·.category = category) =
        ((pipeline.get category).flush category coding).2 := by
  cases category <;>
    simp [flush, get, Channel.flush, List.filter_map, Function.comp_def]

/-- Every place to which open runs are attributed has a property. -/
def Within (P : Attribution → Prop) (pipeline : Pipeline) : Prop :=
  ∀ category, ∀ place ∈ (pipeline.get category).attribution, P place

variable {P : Attribution → Prop}

theorem within_new : ({} : Pipeline).Within P := by
  intro category
  cases category <;> simp [get]

theorem within_reset (pipeline : Pipeline) : pipeline.reset.Within P := by
  intro category
  cases category <;> simp [get, reset, Channel.reset]

theorem Within.flush (within : pipeline.Within P) (coding : Text.Encoding) :
    (pipeline.flush coding).1.Within P ∧
      ∀ chunk ∈ (pipeline.flush coding).2, ∀ place ∈ chunk.attribution, P place := by
  refine ⟨fun category => ?_, fun chunk member => ?_⟩
  · cases category with
    | console => exact within .console
    | stdout => exact within .stdout
    | stderr => exact within .stderr
  · simp only [Pipeline.flush, Channel.flush, List.mem_append, List.mem_map] at member
    obtain (⟨_, _, rfl⟩ | ⟨_, _, rfl⟩) | ⟨_, _, rfl⟩ := member
    · exact within .console
    · exact within .stdout
    · exact within .stderr

theorem credit_within (category : Category) {opened given : Option Attribution}
    (begun : ∀ place ∈ opened, P place) (called : ∀ place ∈ given, P place) (runs : List Run) :
    ∀ chunk ∈ Channel.credit category opened given runs, ∀ place ∈ chunk.attribution, P place := by
  intro chunk member
  cases runs with
  | nil => contradiction
  | cons run rest =>
    rcases List.mem_cons.mp member with rfl | later
    · exact begun
    · obtain ⟨_, _, rfl⟩ := List.mem_map.mp later
      exact called

theorem Within.capture (within : pipeline.Within P) (category : Category) (bytes : List UInt8)
    (coding : Text.Encoding) {given : Option Attribution} (called : ∀ place ∈ given, P place) :
    (pipeline.capture category bytes coding given).1.Within P ∧
      ∀ chunk ∈ (pipeline.capture category bytes coding given).2,
        ∀ place ∈ chunk.attribution, P place := by
  have begun : ∀ place ∈ (if (pipeline.get category).parser.hasPending then
      (pipeline.get category).attribution else given), P place := by
    split
    · exact within category
    · exact called
  refine ⟨fun other => ?_, credit_within category begun called _⟩
  simp only [Pipeline.capture, get_set, Channel.capture]
  split
  · dsimp only
    split
    · exact begun
    · exact called
  · exact within other

end DebugAdapter.Output.Pipeline
