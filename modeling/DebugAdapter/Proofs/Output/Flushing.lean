import DebugAdapter.Proofs.Output.Attribution
import DebugAdapter.Proofs.Text.Utf8

/-! What flushes do to text. Whatever else ends a run does so between characters, but a flush takes
the pending bytes as they are: a character that it divides comes out as two ill-formed parts. -/
namespace DebugAdapter.Output

open Text

/-- The bytes that a channel is given, as far as the next flush, and after each flush. -/
def stretches : List Channel.Input → List (List UInt8)
  | [] => [[]]
  | .byte b _ :: rest => (stretches rest).modifyHead (b :: ·)
  | .flush :: rest => [] :: stretches rest

def Channel.Input.byte? : Channel.Input → Option UInt8
  | .byte b _ => some b
  | .flush => none

def given (inputs : List Channel.Input) : List UInt8 :=
  inputs.filterMap Channel.Input.byte?

def readable (runs : List Run) : List Char :=
  runs.flatMap (·.text.toList)

theorem stretches_cons (inputs : List Channel.Input) :
    ∃ first later, stretches inputs = first :: later := by
  induction inputs with
  | nil => exact ⟨_, _, rfl⟩
  | cons input rest ih =>
    obtain ⟨first, later, known⟩ := ih
    cases input with
    | byte b attribution => exact ⟨b :: first, later, by rw [stretches, known]; rfl⟩
    | flush => exact ⟨_, _, rfl⟩

theorem stretches_flatten (inputs : List Channel.Input) :
    (stretches inputs).flatten = given inputs := by
  induction inputs with
  | nil => rfl
  | cons input rest ih =>
    cases input with
    | byte b attribution =>
      obtain ⟨first, later, known⟩ := stretches_cons rest
      rw [known] at ih
      simp only [stretches, known, List.modifyHead_cons, List.flatten_cons, List.cons_append]
      rw [← List.flatten_cons, ih]
      rfl
    | flush => exact ih

/-- A flush divides what comes before it from what comes after it. -/
theorem stretches_flush (before after : List Channel.Input) :
    stretches (before ++ .flush :: after) = stretches before ++ stretches after := by
  induction before with
  | nil => rfl
  | cons input rest ih =>
    cases input with
    | byte b attribution =>
      obtain ⟨first, later, known⟩ := stretches_cons rest
      simp only [List.cons_append, stretches, ih, known, List.modifyHead_cons]
    | flush => simp only [List.cons_append, stretches, ih]

variable {inputs : List Channel.Input} {parser : Parser}

theorem readable_due (parser : Parser) :
    readable (parser.due .utf8) = Utf8.decode parser.pending := by
  unfold Parser.due
  split
  · rename_i empty
    rw [List.isEmpty_iff.mp empty]
    rfl
  · simp [readable, Encoding.decode, Encoding.decodeChars]

/-- A byte of text loses none of what is pending, and a run that it ends is ended between
characters: what follows reads as if no run had ended. -/
theorem step_seamless {b : UInt8} (ground : parser.mode = .ground) (plain : b ≠ Parser.escapeByte)
    (rest : List UInt8) :
    (parser.step .utf8 b).1.mode = .ground ∧
      readable (parser.step .utf8 b).2 ++ Utf8.decode ((parser.step .utf8 b).1.pending ++ rest) =
        Utf8.decode (parser.pending ++ b :: rest) := by
  obtain ⟨mode, style, pending, threshold⟩ := parser
  obtain rfl : mode = .ground := ground
  simp only [Parser.step, Parser.readText_eq, if_neg plain]
  split_ifs with lineEnds full
  · subst lineEnds
    have fresh : ∀ more, Utf8.decode (pending ++ Parser.lineEnd :: more) =
        Utf8.decode pending ++ '\n' :: Utf8.decode more := fun more =>
      Utf8.decode_append pending (by simp [show Utf8.isContinuation Parser.lineEnd = false by decide])
    have empty : Utf8.decode [] = [] := rfl
    refine ⟨rfl, ?_⟩
    simp [readable, Encoding.decode, Encoding.decodeChars, fresh, empty]
  · refine ⟨rfl, ?_⟩
    rw [readable_due, Utf8.decode_append pending (by simpa using full.2)]
    rfl
  · refine ⟨rfl, ?_⟩
    rw [List.append_assoc]
    rfl

theorem readable_flushed (ground : parser.mode = .ground)
    (plain : Parser.escapeByte ∉ given inputs) :
    readable (emitting (Channel.Input.parse .utf8) parser (inputs ++ [.flush])).2 =
      ((stretches inputs).modifyHead (parser.pending ++ ·)).flatMap Utf8.decode := by
  induction inputs generalizing parser with
  | nil =>
    simp [emitting, Channel.Input.parse, Parser.flush_eq, stretches, readable_due]
  | cons input rest ih =>
    obtain ⟨first, later, known⟩ := stretches_cons rest
    cases input with
    | flush =>
      have after := @ih { parser with pending := [] } ground plain
      simp only [List.cons_append, emitting, Channel.Input.parse, Parser.flush_eq, readable,
        List.flatMap_append] at after ⊢
      rw [after]
      simp [stretches, known, ← readable_due, readable]
    | byte b attribution =>
      obtain ⟨text, plain⟩ := not_or.mp (mt List.mem_cons.mpr plain)
      obtain ⟨still, seamless⟩ := step_seamless ground (Ne.symm text) first
      have after := ih still plain
      simp only [List.cons_append, emitting, Channel.Input.parse, readable, List.flatMap_append]
        at after seamless ⊢
      rw [after]
      simp only [stretches, known, List.modifyHead_cons, List.flatMap_cons, ← seamless,
        List.append_assoc]

theorem mem_stretches_tail {stretch : List UInt8} (member : stretch ∈ (stretches inputs).tail) :
    ∃ before after, inputs = before ++ .flush :: after ∧
      (stretches after).head? = some stretch := by
  induction inputs with
  | nil => contradiction
  | cons input rest ih =>
    obtain ⟨first, later, known⟩ := stretches_cons rest
    simp only [known, List.tail_cons] at ih
    cases input with
    | byte b attribution =>
      simp only [stretches, known, List.modifyHead_cons, List.tail_cons] at member
      obtain ⟨before, after, rfl, begins⟩ := ih member
      exact ⟨.byte b attribution :: before, after, rfl, begins⟩
    | flush =>
      simp only [stretches, known, List.tail_cons, List.mem_cons] at member
      rcases member with rfl | member
      · exact ⟨[], rest, rfl, by rw [known, List.head?_cons]⟩
      · obtain ⟨before, after, rfl, begins⟩ := ih member
        exact ⟨.flush :: before, after, rfl, begins⟩

/-- Every stretch begins a character, as far as it has a byte. -/
def Seamless (inputs : List Channel.Input) : Prop :=
  ∀ stretch ∈ stretches inputs, ∀ b ∈ stretch.head?, Utf8.isContinuation b = false

theorem decode_flatten {pieces : List (List UInt8)}
    (fresh : ∀ piece ∈ pieces, ∀ b ∈ piece.head?, Utf8.isContinuation b = false) :
    pieces.flatMap Utf8.decode = Utf8.decode pieces.flatten ∧
      ∀ b ∈ pieces.flatten.head?, Utf8.isContinuation b = false := by
  induction pieces with
  | nil => exact ⟨rfl, by simp⟩
  | cons piece later ih =>
    obtain ⟨first, others⟩ := List.forall_mem_cons.mp fresh
    obtain ⟨whole, begins⟩ := ih others
    refine ⟨?_, ?_⟩
    · rw [List.flatMap_cons, whole, List.flatten_cons, Utf8.decode_append piece begins]
    · cases piece with
      | nil => exact begins
      | cons b rest => exact first

/-- Pieces have a mark for each of their characters, and one more for each piece that begins inside
of a character. -/
theorem starts_flatten (pieces : List (List UInt8)) :
    Utf8.starts pieces.flatten ≤ (pieces.flatMap Utf8.decode).length ∧
      ((pieces.flatMap Utf8.decode).length = Utf8.starts pieces.flatten →
        ∀ piece ∈ pieces, ∀ b ∈ piece.head?, Utf8.isContinuation b = false) := by
  induction pieces with
  | nil => exact ⟨Nat.le_refl _, by simp⟩
  | cons piece later ih =>
    obtain ⟨least, exact_⟩ := ih
    have first := Utf8.starts_le_decode piece
    have sum : Utf8.starts (piece :: later).flatten =
        Utf8.starts piece + Utf8.starts later.flatten := by
      rw [List.flatten_cons, Utf8.starts, List.countP_append]
      rfl
    rw [sum, List.flatMap_cons, List.length_append]
    refine ⟨by omega, fun same => List.forall_mem_cons.mpr ⟨?_, exact_ (by omega)⟩⟩
    intro b begins
    cases piece with
    | nil => contradiction
    | cons c rest =>
      obtain rfl : c = b := Option.some.inj begins
      cases inside : Utf8.isContinuation c with
      | false => rfl
      | true =>
        have more := Utf8.starts_lt_decode inside rest
        omega

/-- Encoded text comes out as it is exactly if no stretch begins inside of a character. -/
theorem decode_stretches {text : List Char} (encoded : given inputs = Utf8.encode text) :
    (stretches inputs).flatMap Utf8.decode = text ↔ Seamless inputs := by
  have flat := (stretches_flatten inputs).trans encoded
  constructor
  · intro same
    refine (starts_flatten (stretches inputs)).2 ?_
    rw [same, flat, Utf8.starts_encode]
  · intro seamless
    rw [(decode_flatten seamless).1, flat, Utf8.decode_encode]

theorem seamless_iff {text : List Char} (encoded : given inputs = Utf8.encode text) :
    Seamless inputs ↔ ∀ before after, inputs = before ++ .flush :: after →
      ∃ front, given before = Utf8.encode front := by
  have split : ∀ before after, inputs = before ++ .flush :: after →
      Utf8.encode text = given before ++ given after := by
    rintro before after rfl
    rw [← encoded, given, List.filterMap_append]
    rfl
  constructor
  · intro seamless before after same
    have later : ∀ stretch ∈ stretches after, ∀ b ∈ stretch.head?,
        Utf8.isContinuation b = false := fun stretch member =>
      seamless stretch (by rw [same, stretches_flush]; exact List.mem_append_right _ member)
    have begins := (decode_flatten later).2
    rw [stretches_flatten] at begins
    exact Utf8.encode_cut (split before after same) begins
  · intro between stretch member b begins
    obtain ⟨first, later, known⟩ := stretches_cons inputs
    have heads : ∀ (bytes : List Channel.Input) (text : List Char),
        given bytes = Utf8.encode text → (stretches bytes).head? = some stretch →
        Utf8.isContinuation b = false := by
      intro bytes text encoded head
      refine Utf8.encode_fresh text b ?_
      obtain ⟨rest, known⟩ := List.head?_eq_some_iff.mp head
      rw [← encoded, ← stretches_flatten, known, List.flatten_cons, List.head?_append, begins]
      rfl
    rw [known] at member
    rcases List.mem_cons.mp member with rfl | member
    · exact heads inputs text encoded (by rw [known, List.head?_cons])
    · obtain ⟨before, after, same, head⟩ := mem_stretches_tail (by rw [known]; exact member)
      obtain ⟨front, whole⟩ := between before after same
      obtain ⟨back, rest⟩ := Utf8.encode_rest (whole ▸ split before after same)
      exact heads after back rest head

namespace Pipeline

variable {category : Category} {inputs : List Input}

def captured (category : Category) (inputs : List Input) : List UInt8 :=
  given (inputs.flatMap (Input.on category))

def emitted (category : Category) (inputs : List Input) : List Char :=
  readable ((chunksOf .utf8 category inputs).map (·.run))

theorem emitting_runs (coding : Encoding) (trace : Trace) (inputs : List Channel.Input) :
    (emitting (Trace.take coding) trace inputs).2.map (·.run) =
      (emitting (Channel.Input.parse coding) trace.parser inputs).2 := by
  induction inputs generalizing trace with
  | nil => rfl
  | cons input rest ih =>
    simp only [emitting, List.map_append, ih, Trace.take, Trace.divide, List.map_map,
      Function.comp_def, List.map_id']

theorem emitted_eq (category : Category) (inputs : List Input) :
    emitted category inputs = readable
      (emitting (Channel.Input.parse .utf8) {} (inputs.flatMap (Input.on category))).2 := by
  have runs := emitting_runs .utf8 {} (inputs.flatMap (Input.on category))
  rw [emitted, chunksOf_eq, List.map_map, ← runs]
  rfl

theorem flush_notMem_on (category : Category) (captured : Capture) :
    Channel.Input.flush ∉ (Input.capture captured).on category := by
  simp only [Input.on]
  split <;> simp

theorem on_split {before after : List Channel.Input}
    (same : inputs.flatMap (Input.on category) = before ++ .flush :: after) :
    ∃ first second, inputs = first ++ .flush :: second ∧
      first.flatMap (Input.on category) = before := by
  induction inputs generalizing before with
  | nil => simp at same
  | cons input rest ih =>
    rw [List.flatMap_cons] at same
    cases input with
    | flush =>
      cases before with
      | nil => exact ⟨[], rest, rfl, rfl⟩
      | cons c before =>
        obtain ⟨rfl, tail⟩ := List.cons.inj same
        obtain ⟨first, second, rfl, rfl⟩ := ih tail
        exact ⟨.flush :: first, second, rfl, rfl⟩
    | capture captured =>
      have unflushed := flush_notMem_on category captured
      rcases List.append_eq_append_iff.mp same with ⟨later, rfl, tail⟩ | ⟨inner, shape, tail⟩
      · obtain ⟨first, second, rfl, rfl⟩ := ih tail
        exact ⟨.capture captured :: first, second, rfl, rfl⟩
      · cases inner with
        | nil =>
          obtain ⟨first, second, rfl, none⟩ := @ih [] tail.symm
          exact ⟨.capture captured :: first, second, rfl,
            by rw [List.flatMap_cons, none, shape, List.append_nil, List.append_nil]⟩
        | cons c inner =>
          obtain ⟨rfl, -⟩ := List.cons.inj tail
          exact absurd (shape ▸ by simp) unflushed

/-- The bytes between two flushes are decoded by themselves. So text is emitted as it was captured
exactly if no flush falls inside of a character, wherever else the bytes are divided. -/
theorem flushes_between_characters
    (plain : Parser.escapeByte ∉ captured category inputs) :
    emitted category (inputs ++ [.flush]) =
        (stretches (inputs.flatMap (Input.on category))).flatMap Utf8.decode ∧
      ∀ text, captured category inputs = Utf8.encode text →
        (emitted category (inputs ++ [.flush]) = text ↔
          ∀ before after, inputs = before ++ .flush :: after →
            ∃ front, captured category before = Utf8.encode front) := by
  have flushed : emitted category (inputs ++ [.flush]) =
      (stretches (inputs.flatMap (Input.on category))).flatMap Utf8.decode := by
    obtain ⟨first, later, known⟩ := stretches_cons (inputs.flatMap (Input.on category))
    rw [emitted_eq, List.flatMap_append]
    exact (readable_flushed rfl plain).trans (by rw [known]; rfl)
  refine ⟨flushed, fun text encoded => ?_⟩
  rw [flushed, decode_stretches encoded, seamless_iff encoded]
  constructor
  · rintro between before after rfl
    exact between _ (after.flatMap (Input.on category)) (by simp [Input.on])
  · intro between before after same
    obtain ⟨first, second, rfl, rfl⟩ := on_split same
    exact between first second rfl

def divided : List Input :=
  [.capture ⟨.stdout, [0xC3], none⟩, .flush, .capture ⟨.stdout, [0xA9], none⟩]

theorem divided_mangled :
    Parser.escapeByte ∉ captured .stdout divided ∧
      captured .stdout divided = Utf8.encode ['é'] ∧
      emitted .stdout (divided ++ [.flush]) = ['\uFFFD', '\uFFFD'] ∧
      ¬∀ before after, divided = before ++ .flush :: after →
        ∃ front, captured .stdout before = Utf8.encode front := by
  have plain : Parser.escapeByte ∉ captured .stdout divided := by decide +kernel
  have encoded : captured .stdout divided = Utf8.encode ['é'] := by decide +kernel
  obtain ⟨decoded, whole⟩ := flushes_between_characters plain
  have mangled : emitted .stdout (divided ++ [.flush]) = ['\uFFFD', '\uFFFD'] := by
    rw [decoded]
    decide +kernel
  refine ⟨plain, encoded, mangled, fun between => ?_⟩
  have intact := (whole ['é'] encoded).mpr between
  rw [mangled] at intact
  exact absurd intact (by decide)

/-- Text that is captured in parts comes out as other text. -/
theorem flush_mangles_text : ¬∀ (category : Category) (text : List Char) (inputs : List Input),
    Parser.escapeByte ∉ captured category inputs → captured category inputs = Utf8.encode text →
    emitted category (inputs ++ [.flush]) = text := by
  intro intact
  have same := intact .stdout ['é'] divided (by decide +kernel) (by decide +kernel)
  exact absurd same (by decide +kernel)

end Pipeline
end DebugAdapter.Output
