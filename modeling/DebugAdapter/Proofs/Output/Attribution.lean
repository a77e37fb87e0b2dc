import DebugAdapter.Proofs.Output.Escape
import DebugAdapter.Proofs.Output.Pipeline

/-! Where output comes from. Each byte of text is followed from the call that captured it to the run
that it ends up in. What a category emits depends on the bytes captured on it, one by one, and on
the flushes between them, so it does not matter how the bytes were divided among calls. -/
namespace DebugAdapter.Output

structure Capture where
  category : Category
  bytes : List UInt8
  attribution : Option Attribution

inductive Pipeline.Input where
  | capture (capture : Capture)
  | flush

/-- What a channel is given, byte by byte. -/
inductive Channel.Input where
  | byte (b : UInt8) (given : Option Attribution)
  | flush

namespace Pipeline

def take (coding : Text.Encoding) (pipeline : Pipeline) : Input → Pipeline × List Chunk
  | .capture captured =>
    pipeline.capture captured.category captured.bytes coding captured.attribution
  | .flush => pipeline.flush coding

def chunksOf (coding : Text.Encoding) (category : Category) (inputs : List Input) : List Chunk :=
  (emitting (take coding) {} inputs).2.filter (·.category = category)

def Input.on (category : Category) : Input → List Channel.Input
  | .capture captured =>
    if captured.category = category then captured.bytes.map (.byte · captured.attribution) else []
  | .flush => [.flush]

def Input.concerns (category : Category) : Input → Bool
  | .capture captured => captured.category = category
  | .flush => true

end Pipeline

/-- A byte of text, and the place that its call attributed it to. -/
abbrev Marked := UInt8 × Option Attribution

/-- A run, and the bytes that it was read from. -/
structure Traced where
  run : Run
  bytes : List Marked

def Traced.Sound (coding : Text.Encoding) (traced : Traced) : Prop :=
  traced.bytes ≠ [] ∧ traced.run.text = coding.decode (traced.bytes.map (·.1))

def Traced.chunk (category : Category) (traced : Traced) : Chunk :=
  ⟨category, traced.run, traced.bytes.head?.bind (·.2)⟩

def Channel.Input.written (mode : Mode) : Channel.Input → List Marked
  | .byte b given => (mode.text b).map (·, given)
  | .flush => []

def Channel.Input.next (mode : Mode) : Channel.Input → Mode
  | .byte b _ => mode.next b
  | .flush => mode

def Channel.Input.parse (coding : Text.Encoding) (parser : Parser) :
    Channel.Input → Parser × List Run
  | .byte b _ => parser.step coding b
  | .flush => parser.flush coding

def written : Mode → List Channel.Input → List Marked
  | _, [] => []
  | mode, input :: rest => input.written mode ++ written (input.next mode) rest

/-- A parser, and the bytes of the run that is open. -/
structure Trace where
  parser : Parser := {}
  opened : List Marked := []

namespace Trace

/-- Of the bytes that were read, those that the parser no longer holds are in the runs. -/
def divide (read : List Marked) (parsed : Parser × List Run) : Trace × List Traced :=
  let done := read.length - parsed.1.pending.length
  (⟨parsed.1, read.drop done⟩, parsed.2.map (⟨·, read.take done⟩))

def take (coding : Text.Encoding) (trace : Trace) (input : Channel.Input) :
    Trace × List Traced :=
  divide (trace.opened ++ input.written trace.parser.mode) (input.parse coding trace.parser)

def Faithful (trace : Trace) : Prop :=
  trace.opened.map (·.1) = trace.parser.pending

variable {coding : Text.Encoding} {trace : Trace} {style : Style} {opened added : List Marked}
variable {parsed : Parser × List Run}

/-- The bytes that were read are kept, or those before or after the last ones end a run. -/
inductive Divided (coding : Text.Encoding) (opened added : List Marked) :
    List Marked → List Run → List Traced → Prop where
  | keep : Divided coding opened added (opened ++ added) [] []
  | before (run : Run) : opened ≠ [] → run.text = coding.decode (opened.map (·.1)) →
      Divided coding opened added added [run] [⟨run, opened⟩]
  | after (run : Run) : opened ++ added ≠ [] →
      run.text = coding.decode ((opened ++ added).map (·.1)) →
      Divided coding opened added [] [run] [⟨run, opened ++ added⟩]

theorem divide_spec
    (cut : Cut coding style (opened.map (·.1)) (added.map (·.1)) parsed.1.pending parsed.2) :
    ∃ kept traced, divide (opened ++ added) parsed = (⟨parsed.1, kept⟩, traced) ∧
      kept.map (·.1) = parsed.1.pending ∧ Divided coding opened added kept parsed.2 traced := by
  obtain ⟨⟨mode, current, pending, threshold⟩, runs⟩ := parsed
  dsimp only at cut ⊢
  cases cut with
  | keep => exact ⟨_, _, by simp [divide], by simp, .keep⟩
  | before held =>
    exact ⟨_, _, by simp [divide], rfl, .before _ (by simpa using held) rfl⟩
  | after held =>
    refine ⟨[], _, ?_, rfl, .after ⟨coding.decode _, style⟩ ?_ (by rw [List.map_append])⟩
    · simp [divide, List.take_of_length_le]
    · simpa [← List.map_append] using held

theorem parse_cut (coding : Text.Encoding) (parser : Parser) (input : Channel.Input) :
    Cut coding parser.style parser.pending ((input.written parser.mode).map (·.1))
      (input.parse coding parser).1.pending (input.parse coding parser).2 := by
  cases input with
  | byte b given =>
    have same : ((Channel.Input.byte b given).written parser.mode).map (·.1) =
        parser.mode.text b := by
      simp [Channel.Input.written, Function.comp_def]
    rw [same]
    exact parser.step_cut coding b
  | flush => exact parser.flush_cut coding

theorem parse_mode (coding : Text.Encoding) (parser : Parser) (input : Channel.Input) :
    (input.parse coding parser).1.mode = input.next parser.mode := by
  cases input with
  | byte b given => exact parser.step_mode coding b
  | flush => simp only [Channel.Input.parse, Parser.flush_eq, Channel.Input.next]

theorem take_spec (coding : Text.Encoding) (faithful : trace.Faithful) (input : Channel.Input) :
    let taken := trace.take coding input
    taken.1.Faithful ∧ taken.1.parser.mode = input.next trace.parser.mode ∧
      (∀ traced ∈ taken.2, traced.Sound coding) ∧
      taken.2.flatMap (·.bytes) ++ taken.1.opened =
        trace.opened ++ input.written trace.parser.mode := by
  have cut := parse_cut coding trace.parser input
  rw [← faithful] at cut
  obtain ⟨kept, traced, same, held, divided⟩ := divide_spec cut
  have mode := parse_mode coding trace.parser input
  simp only [take, same]
  generalize (input.parse coding trace.parser).2 = runs at divided
  refine ⟨held, mode, ?_, ?_⟩
  · cases divided with
    | keep => simp
    | before run first text | after run first text => simpa using ⟨first, text⟩
  · cases divided with
    | keep => rfl
    | before run | after run => simp

theorem emitting_spec (coding : Text.Encoding) (faithful : trace.Faithful)
    (inputs : List Channel.Input) :
    let taken := emitting (take coding) trace inputs
    taken.1.Faithful ∧ (∀ traced ∈ taken.2, traced.Sound coding) ∧
      taken.2.flatMap (·.bytes) ++ taken.1.opened =
        trace.opened ++ written trace.parser.mode inputs := by
  induction inputs generalizing trace with
  | nil => simp [emitting, written, faithful]
  | cons input rest ih =>
    obtain ⟨kept, mode, sound, bytes⟩ := take_spec coding faithful input
    obtain ⟨last, later, more⟩ := ih kept
    refine ⟨last, ?_, ?_⟩
    · simp only [emitting, List.mem_append]
      rintro traced (first | second)
      · exact sound traced first
      · exact later traced second
    · simp only [emitting, List.flatMap_append, List.append_assoc, more, written, mode]
      rw [← List.append_assoc, bytes, List.append_assoc]

end Trace

/-- The open run of a channel belongs to where its first byte comes from. -/
structure Channel.Tracks (channel : Channel) (trace : Trace) : Prop where
  parser : channel.parser = trace.parser
  faithful : trace.Faithful
  origin : ∀ first ∈ trace.opened.head?, first.2 = channel.attribution

namespace Channel

variable {channel : Channel} {trace : Trace} {coding : Text.Encoding}

theorem tracks_new : ({} : Channel).Tracks {} :=
  ⟨rfl, rfl, by simp⟩

theorem step_held {parser : Parser} {b : UInt8} (quiet : (parser.step coding b).2 = [])
    (held : parser.hasPending = true) : (parser.step coding b).1.hasPending = true := by
  have cut := parser.step_cut coding b
  simp only [Parser.hasPending, Bool.not_eq_true', List.isEmpty_eq_false_iff] at held ⊢
  rw [quiet] at cut
  generalize (parser.step coding b).1.pending = pending at cut ⊢
  cases cut
  simp [held]

theorem credit_append (category : Category) (opened given : Option Attribution)
    (first second : List Run) :
    credit category opened given (first ++ second) =
      credit category opened given first ++
        credit category (if first.isEmpty then opened else given) given second := by
  cases first with
  | nil => rfl
  | cons run rest =>
    cases second <;> simp [credit]

/-- To capture bytes is to capture them one by one. -/
theorem capture_cons (channel : Channel) (category : Category) (b : UInt8) (rest : List UInt8)
    (coding : Text.Encoding) (given : Option Attribution) :
    channel.capture category (b :: rest) coding given =
      let begun := channel.capture category [b] coding given
      let ended := begun.1.capture category rest coding given
      (ended.1, begun.2 ++ ended.2) := by
  have persists := @step_held coding channel.parser b
  rcases parsed : channel.parser.step coding b with ⟨next, runs⟩
  rcases fed : next.feed coding rest with ⟨last, more⟩
  rw [parsed] at persists
  simp only [capture, Parser.feed, parsed, fed, List.append_nil]
  cases runs with
  | nil =>
    have opened : (if next.hasPending = true then
        if channel.parser.hasPending = true then channel.attribution else given else given) =
          if channel.parser.hasPending = true then channel.attribution else given := by
      by_cases held : channel.parser.hasPending = true
      · rw [if_pos (persists rfl held)]
      · simp only [if_neg held, ite_self]
    simp only [List.nil_append, List.isEmpty_nil, if_true, opened, credit]
  | cons run runs =>
    rw [credit_append]
    simp

theorem written_origin (mode : Mode) (b : UInt8) (given : Option Attribution) :
    ∀ mark ∈ (Input.byte b given).written mode, mark.2 = given := by
  intro mark member
  obtain ⟨_, _, rfl⟩ := List.mem_map.mp member
  rfl

theorem chunk_eq {bytes : List Marked} {origin : Option Attribution} (category : Category)
    (run : Run) (held : bytes ≠ []) (first : ∀ mark ∈ bytes.head?, mark.2 = origin) :
    Traced.chunk category ⟨run, bytes⟩ = ⟨category, run, origin⟩ := by
  cases bytes with
  | nil => contradiction
  | cons mark rest =>
    have known := first mark rfl
    simp [Traced.chunk, known]

theorem Tracks.held (tracks : channel.Tracks trace) :
    channel.parser.hasPending = true ↔ trace.opened ≠ [] := by
  rw [tracks.parser, Parser.hasPending, ← tracks.faithful]
  simp

/-- The run that is open after a byte belongs to where it was begun. -/
theorem Tracks.opens (tracks : channel.Tracks trace) {added : List Marked}
    {given : Option Attribution} (marks : ∀ mark ∈ added, mark.2 = given) :
    ∀ mark ∈ (trace.opened ++ added).head?,
      mark.2 = if channel.parser.hasPending then channel.attribution else given := by
  have held := tracks.held
  have origin := tracks.origin
  cases known : trace.opened with
  | nil =>
    intro mark member
    simp only [known, ne_eq, not_true_eq_false, iff_false] at held
    rw [if_neg held]
    exact marks mark (List.mem_of_mem_head? member)
  | cons first rest =>
    intro mark member
    simp only [known, ne_eq, reduceCtorEq, not_false_eq_true, iff_true] at held
    rw [if_pos held]
    exact origin mark (by simpa [known] using member)

theorem byte_tracks (coding : Text.Encoding) (tracks : channel.Tracks trace) (category : Category)
    (b : UInt8) (given : Option Attribution) :
    let captured := channel.capture category [b] coding given
    let taken := trace.take coding (.byte b given)
    captured.1.Tracks taken.1 ∧ captured.2 = taken.2.map (Traced.chunk category) := by
  have cut := Trace.parse_cut coding trace.parser (.byte b given)
  rw [← tracks.faithful] at cut
  obtain ⟨kept, traced, same, held, divided⟩ := Trace.divide_spec cut
  have marks := written_origin trace.parser.mode b given
  have opens := tracks.opens marks
  simp only [Trace.take, same, capture, Parser.feed, tracks.parser, List.append_nil] at opens ⊢
  simp only [Input.parse] at divided held ⊢
  generalize (trace.parser.step coding b).2 = runs at divided
  cases divided with
  | keep => exact ⟨⟨rfl, held, by simpa using opens⟩, rfl⟩
  | before run begun text =>
    refine ⟨⟨rfl, held, fun mark member => marks mark (List.mem_of_mem_head? member)⟩, ?_⟩
    have first : ∀ mark ∈ trace.opened.head?, mark.2 = _ := fun mark member =>
      opens mark (by rw [List.head?_append_of_ne_nil _ begun]; exact member)
    simp only [List.map_cons, List.map_nil, chunk_eq category run begun first, credit]
  | after run begun text =>
    refine ⟨⟨rfl, held, by simp⟩, ?_⟩
    simp only [List.map_cons, List.map_nil, chunk_eq category run begun opens, credit]

theorem capture_tracks (coding : Text.Encoding) (tracks : channel.Tracks trace)
    (category : Category) (bytes : List UInt8) (given : Option Attribution) :
    let captured := channel.capture category bytes coding given
    let taken := emitting (Trace.take coding) trace (bytes.map (.byte · given))
    captured.1.Tracks taken.1 ∧ captured.2 = taken.2.map (Traced.chunk category) := by
  induction bytes generalizing channel trace with
  | nil =>
    refine ⟨⟨tracks.parser, tracks.faithful, fun first member => ?_⟩, rfl⟩
    have opens := @Tracks.opens _ _ tracks [] given (by simp)
    exact opens first (by simpa [emitting] using member)
  | cons b rest ih =>
    obtain ⟨begun, first⟩ := byte_tracks coding tracks category b given
    obtain ⟨ended, second⟩ := ih begun
    rw [capture_cons]
    simp only [List.map_cons, emitting, List.map_append, first, second]
    exact ⟨ended, trivial⟩

theorem flush_tracks (coding : Text.Encoding) (tracks : channel.Tracks trace) (category : Category) :
    let flushed := channel.flush category coding
    let taken := trace.take coding .flush
    flushed.1.Tracks taken.1 ∧ flushed.2 = taken.2.map (Traced.chunk category) := by
  have cut := Trace.parse_cut coding trace.parser .flush
  rw [← tracks.faithful] at cut
  obtain ⟨kept, traced, same, held, divided⟩ := Trace.divide_spec cut
  simp only [Trace.take, same, flush, tracks.parser]
  simp only [Input.parse] at divided held ⊢
  generalize (trace.parser.flush coding).2 = runs at divided
  simp only [Input.written] at divided
  cases divided with
  | keep => exact ⟨⟨rfl, held, by simpa using tracks.origin⟩, rfl⟩
  | before run begun text =>
    refine ⟨⟨rfl, held, by simp⟩, ?_⟩
    simp only [List.map_cons, List.map_nil, chunk_eq category run begun tracks.origin]
  | after run begun text =>
    refine ⟨⟨rfl, held, by simp⟩, ?_⟩
    rw [List.append_nil] at begun
    simp only [List.append_nil, List.map_cons, List.map_nil,
      chunk_eq category run begun tracks.origin]

end Channel

namespace Pipeline

variable {pipeline : Pipeline} {trace : Trace} {coding : Text.Encoding} {category : Category}

theorem take_tracks (coding : Text.Encoding)
    (tracks : (pipeline.get category).Tracks trace) (input : Input) :
    let taken := pipeline.take coding input
    let traced := emitting (Trace.take coding) trace (input.on category)
    (taken.1.get category).Tracks traced.1 ∧
      taken.2.filter (·.category = category) = traced.2.map (Traced.chunk category) := by
  cases input with
  | flush =>
    obtain ⟨channel, chunks⟩ := get_flush pipeline coding category
    simp only [take, channel, chunks, Input.on, emitting_singleton]
    exact Channel.flush_tracks coding tracks category
  | capture captured =>
    obtain ⟨given, bytes, attribution⟩ := captured
    have category_eq := credit_category given
      (if (pipeline.get given).parser.hasPending then (pipeline.get given).attribution
        else attribution) attribution ((pipeline.get given).parser.feed coding bytes).2
    simp only [take, capture, get_set, Input.on]
    split
    · rename_i same
      subst same
      have captured := Channel.capture_tracks coding tracks given bytes attribution
      refine ⟨captured.1, ?_⟩
      rw [← captured.2]
      exact List.filter_eq_self.mpr fun chunk member => by simpa using category_eq chunk member
    · rename_i different
      refine ⟨tracks, ?_⟩
      simp only [emitting, List.map_nil, List.filter_eq_nil_iff, decide_eq_true_eq]
      intro chunk member same
      exact different ((category_eq chunk member).symm.trans same)

theorem emitting_tracks (coding : Text.Encoding)
    (tracks : (pipeline.get category).Tracks trace) (inputs : List Input) :
    let taken := emitting (take coding) pipeline inputs
    let traced := emitting (Trace.take coding) trace (inputs.flatMap (Input.on category))
    (taken.1.get category).Tracks traced.1 ∧
      taken.2.filter (·.category = category) = traced.2.map (Traced.chunk category) := by
  induction inputs generalizing pipeline trace with
  | nil => exact ⟨tracks, rfl⟩
  | cons input rest ih =>
    obtain ⟨begun, first⟩ := take_tracks coding tracks input
    obtain ⟨ended, second⟩ := ih begun
    simp only [List.flatMap_cons, emitting_append, emitting, List.filter_append, List.map_append,
      first, second]
    exact ⟨ended, trivial⟩

theorem chunksOf_eq (coding : Text.Encoding) (category : Category) (inputs : List Input) :
    chunksOf coding category inputs =
      (emitting (Trace.take coding) {} (inputs.flatMap (Input.on category))).2.map
        (Traced.chunk category) := by
  have fresh : (({} : Pipeline).get category).Tracks {} := by
    cases category <;> exact Channel.tracks_new
  exact (emitting_tracks coding fresh inputs).2

theorem on_concerns (category : Category) (inputs : List Input) :
    (inputs.filter (·.concerns category)).flatMap (Input.on category) =
      inputs.flatMap (Input.on category) := by
  induction inputs with
  | nil => rfl
  | cons input rest ih =>
    by_cases concerned : input.concerns category = true
    · rw [List.filter_cons_of_pos concerned, List.flatMap_cons, List.flatMap_cons, ih]
    · have silent : input.on category = [] := by
        cases input with
        | flush => exact absurd rfl concerned
        | capture captured =>
          simp only [Input.concerns, decide_eq_true_eq] at concerned
          simp only [Input.on, if_neg concerned]
      rw [List.filter_cons_of_neg concerned, List.flatMap_cons, ih, silent, List.nil_append]

/-- One call in place of those on a category, and then the calls on others. -/
def joined (category : Category) (given : Option Attribution) (group : List Capture) :
    List Input :=
  .capture ⟨category, (group.filter (·.category = category)).flatMap (·.bytes), given⟩ ::
    (group.filter (·.category ≠ category)).map .capture

theorem on_joined (category other : Category) {given : Option Attribution} {group : List Capture}
    (together : ∀ piece ∈ group, piece.category = category → piece.attribution = given) :
    (joined category given group).flatMap (Input.on other) =
      (group.map Input.capture).flatMap (Input.on other) := by
  induction group with
  | nil => simp [joined, Input.on]
  | cons piece rest ih =>
    obtain ⟨own, later⟩ := List.forall_mem_cons.mp together
    have same := ih later
    simp only [joined, List.flatMap_cons, List.map_cons, Input.on] at same ⊢
    rw [← same]
    by_cases on : piece.category = category
    · simp only [List.filter_cons, on, decide_true, if_true, own on, List.flatMap_cons,
        List.map_append]
      split <;> simp
    · simp only [List.filter_cons, on, decide_true, decide_false, if_true, Bool.false_eq_true,
        if_false, List.map_cons, List.flatMap_cons, Input.on, ne_eq, not_false_eq_true]
      by_cases here : category = other
      · have elsewhere : piece.category ≠ other := fun there => on (there.trans here.symm)
        simp only [if_neg elsewhere, List.nil_append]
      · simp only [if_neg here, List.nil_append]

/-- Every chunk belongs to the call that supplied the first byte of its run, whatever ended the
run. The chunks of a category depend on the calls on it and on the flushes only, and calls that
follow one another may be joined, also across calls on other categories. -/
theorem chunks_follow_bytes (coding : Text.Encoding) (inputs : List Input) :
    (∀ category,
      let given := inputs.flatMap (Input.on category)
      let traced := emitting (Trace.take coding) {} given
      chunksOf coding category inputs = traced.2.map (Traced.chunk category) ∧
        (∀ run ∈ traced.2, run.Sound coding) ∧
        traced.2.flatMap (·.bytes) ++ traced.1.opened = written .ground given) ∧
      (∀ category, chunksOf coding category (inputs.filter (·.concerns category)) =
        chunksOf coding category inputs) ∧
      ∀ before group after category given,
        inputs = before ++ group.map Input.capture ++ after →
        (∀ piece ∈ group, piece.category = category → piece.attribution = given) →
        ∀ other, chunksOf coding other (before ++ joined category given group ++ after) =
          chunksOf coding other inputs := by
  refine ⟨fun category => ?_, fun category => ?_, ?_⟩
  · have faithful : ({} : Trace).Faithful := rfl
    obtain ⟨_, sound, bytes⟩ :=
      Trace.emitting_spec coding faithful (inputs.flatMap (Input.on category))
    exact ⟨chunksOf_eq coding category inputs, sound, bytes⟩
  · rw [chunksOf_eq, chunksOf_eq, on_concerns]
  · rintro before group after category given rfl together other
    rw [chunksOf_eq, chunksOf_eq]
    simp only [List.flatMap_append, on_joined category other together]

/-- A run that one call begins is ended by another one, and the escape sequence that ends it is
divided between two calls, with a call on another category between them. -/
theorem chunks_divided :
    let earlier : Attribution := { source := {}, line := 2 }
    let later : Attribution := { source := {}, line := 3 }
    let before : List Input := [.capture ⟨.stdout, [0x61], some earlier⟩]
    let group : List Capture := [
      ⟨.stdout, [0x62, 0x1B, 0x5B], some later⟩,
      ⟨.stderr, [0x63], none⟩,
      ⟨.stdout, [0x33, 0x31, 0x6D, 0x64], some later⟩]
    let inputs := before ++ group.map Input.capture ++ [.flush]
    (∀ other, chunksOf .utf8 other (before ++ joined .stdout (some later) group ++ [.flush]) =
      chunksOf .utf8 other inputs) ∧
      chunksOf .utf8 .stdout inputs = [
        ⟨.stdout, ⟨"ab", {}⟩, some earlier⟩,
        ⟨.stdout, ⟨"d", { foreground := some .red }⟩, some later⟩] := by
  intro earlier later before group inputs
  have follows := chunks_follow_bytes .utf8 inputs
  exact ⟨follows.2.2 before group [.flush] .stdout (some later) rfl (by decide),
    by decide +kernel⟩

end Pipeline
end DebugAdapter.Output
