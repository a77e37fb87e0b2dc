import DebugAdapter.Output.Escape
import Mathlib.Data.List.Basic

/-! What the parser of output does with one byte. Bytes of escape sequences leave the pending text
alone but for its end, and bytes of text are added to it; either may end a run. -/
namespace DebugAdapter.Output

def emitting {State Input Emitted : Type} (take : State → Input → State × List Emitted) :
    State → List Input → State × List Emitted
  | state, [] => (state, [])
  | state, input :: rest =>
    let (next, sent) := take state input
    let (last, more) := emitting take next rest
    (last, sent ++ more)

section
variable {State Input Emitted : Type} {take : State → Input → State × List Emitted}

theorem emitting_append (state : State) (first second : List Input) :
    emitting take state (first ++ second) =
      let begun := emitting take state first
      let ended := emitting take begun.1 second
      (ended.1, begun.2 ++ ended.2) := by
  induction first generalizing state with
  | nil => rfl
  | cons input rest ih => simp only [List.cons_append, emitting, ih, List.append_assoc]

theorem emitting_singleton (state : State) (input : Input) :
    emitting take state [input] = take state input := by
  simp only [emitting, List.append_nil]

end

namespace Parser

theorem feed_eq_emitting (coding : Text.Encoding) (parser : Parser) (bytes : List UInt8) :
    parser.feed coding bytes = emitting (step coding) parser bytes := by
  induction bytes generalizing parser with
  | nil => rfl
  | cons b rest ih => simp only [feed, emitting, ih]

theorem feed_append (coding : Text.Encoding) (parser : Parser) (first second : List UInt8) :
    parser.feed coding (first ++ second) =
      let begun := parser.feed coding first
      let ended := begun.1.feed coding second
      (ended.1, begun.2 ++ ended.2) := by
  simp only [feed_eq_emitting, emitting_append]

/-- A stream may be cut anywhere. -/
theorem feed_pieces (coding : Text.Encoding) (parser : Parser) (pieces : List (List UInt8)) :
    emitting (feed coding) parser pieces = parser.feed coding pieces.flatten := by
  induction pieces generalizing parser with
  | nil => rfl
  | cons piece rest ih => simp only [emitting, ih, List.flatten_cons, feed_append]

def due (coding : Text.Encoding) (parser : Parser) : List Run :=
  if parser.pending.isEmpty then [] else [⟨coding.decode parser.pending, parser.style⟩]

theorem flush_eq (coding : Text.Encoding) (parser : Parser) :
    parser.flush coding = ({ parser with pending := [] }, parser.due coding) := by
  unfold flush due
  split
  · rename_i empty
    obtain ⟨mode, style, pending, threshold⟩ := parser
    cases List.isEmpty_iff.mp empty
    rfl
  · rfl

theorem readText_eq (coding : Text.Encoding) (parser : Parser) (b : UInt8) :
    parser.readText coding b =
      if b = escapeByte then ({ parser with mode := .escape }, [])
      else if b = lineEnd then
        ({ parser with pending := [] }, [⟨coding.decode (parser.pending ++ [b]), parser.style⟩])
      else if parser.threshold ≤ parser.pending.length ∧ !Text.Utf8.isContinuation b then
        ({ parser with pending := [b] }, parser.due coding)
      else ({ parser with pending := parser.pending ++ [b] }, []) := by
  simp only [readText, flush_eq]
  split_ifs <;> simp [push, due]

theorem selectStyle_eq (coding : Text.Encoding) (parser : Parser) (params : List Nat) :
    parser.selectStyle coding params =
      if params.all (· = 0) || parser.style.selectAll params ≠ parser.style then
        ({ parser with pending := [], style := parser.style.selectAll params }, parser.due coding)
      else (parser, []) := by
  simp only [selectStyle, flush_eq]

end Parser

namespace Mode

def next (mode : Mode) (b : UInt8) : Mode :=
  match mode with
  | .ground => if b = Parser.escapeByte then .escape else .ground
  | .escape => if b = 0x5B then .control [] none else .ground
  | .control params current =>
    if 0x30 ≤ b ∧ b ≤ 0x39 then .control params (some (Parser.addDigit current b))
    else if b = 0x3B then .control (Parser.addParam params current) none
    else if 0x40 ≤ b ∧ b ≤ 0x7E then .ground
    else .control params current

/-- Whether a byte is text and no part of a sequence. -/
def reads (mode : Mode) (b : UInt8) : Bool :=
  mode = .ground && b ≠ Parser.escapeByte

def text (mode : Mode) (b : UInt8) : List UInt8 :=
  if mode.reads b then [b] else []

def texts : Mode → List UInt8 → List UInt8
  | _, [] => []
  | mode, b :: rest => mode.text b ++ texts (mode.next b) rest

theorem texts_append (mode : Mode) (first second : List UInt8) :
    mode.texts (first ++ second) = mode.texts first ++ (first.foldl next mode).texts second := by
  induction first generalizing mode with
  | nil => rfl
  | cons b rest ih => simp only [List.cons_append, texts, ih, List.foldl_cons, List.append_assoc]

end Mode

/-- What becomes of pending text when further text, or none, arrives: both are kept, or a run ends
before or after what arrives. -/
inductive Cut (coding : Text.Encoding) (style : Style) (pending text : List UInt8) :
    List UInt8 → List Run → Prop where
  | keep : Cut coding style pending text (pending ++ text) []
  | before : pending ≠ [] → Cut coding style pending text text [⟨coding.decode pending, style⟩]
  | after : pending ++ text ≠ [] →
      Cut coding style pending text [] [⟨coding.decode (pending ++ text), style⟩]

variable {parser : Parser} {coding : Text.Encoding} {b : UInt8} {style : Style}
variable {pending text : List UInt8}

/-- A run that is due, and then what arrives. -/
theorem Cut.due (coding : Text.Encoding) (parser : Parser) (text : List UInt8) :
    Cut coding parser.style parser.pending text text (parser.due coding) := by
  unfold Parser.due
  split
  · rename_i empty
    have kept := @Cut.keep coding parser.style parser.pending text
    rw [List.isEmpty_iff.mp empty] at kept ⊢
    exact kept
  · rename_i held
    exact .before (by simpa using held)

theorem Cut.idle : Cut coding style pending [] pending [] := by
  simpa only [List.append_nil] using @Cut.keep coding style pending []

namespace Parser

theorem flush_cut (coding : Text.Encoding) (parser : Parser) :
    Cut coding parser.style parser.pending [] (parser.flush coding).1.pending
      (parser.flush coding).2 := by
  rw [flush_eq]
  exact .due coding parser []

theorem selectStyle_cut (coding : Text.Encoding) (parser : Parser) (params : List Nat) :
    Cut coding parser.style parser.pending [] (parser.selectStyle coding params).1.pending
      (parser.selectStyle coding params).2 := by
  rw [selectStyle_eq]
  split
  · exact .due coding parser []
  · exact .idle

/-- A byte either belongs to a sequence, or it is text. -/
theorem step_cut (coding : Text.Encoding) (parser : Parser) (b : UInt8) :
    Cut coding parser.style parser.pending (parser.mode.text b)
      (parser.step coding b).1.pending (parser.step coding b).2 := by
  obtain ⟨mode, style, pending, threshold⟩ := parser
  cases mode with
  | ground =>
    by_cases escapes : b = escapeByte
    · simp only [step, readText_eq, Mode.text, Mode.reads, escapes]
      exact .idle
    · have added : Mode.text .ground b = [b] := by simp [Mode.text, Mode.reads, escapes]
      simp only [step, readText_eq, if_neg escapes, added]
      split_ifs
      · exact .after (by simp)
      · exact .due coding { style, pending, threshold } [b]
      · exact .keep
  | escape =>
    simp only [step]
    split <;> exact .idle
  | control params current =>
    simp only [step, readControl]
    split_ifs
    · exact .idle
    · exact .idle
    · exact selectStyle_cut coding { style, pending, threshold } (addParam params current)
    · exact .idle
    · exact .idle

theorem step_mode (coding : Text.Encoding) (parser : Parser) (b : UInt8) :
    (parser.step coding b).1.mode = parser.mode.next b := by
  obtain ⟨mode, style, pending, threshold⟩ := parser
  cases mode with
  | ground =>
    simp only [step, readText_eq, Mode.next]
    split_ifs <;> rfl
  | escape =>
    simp only [step, Mode.next]
    split_ifs <;> rfl
  | control params current =>
    simp only [step, readControl, selectStyle_eq, Mode.next]
    split_ifs <;> rfl

theorem feed_mode (coding : Text.Encoding) (parser : Parser) (bytes : List UInt8) :
    (parser.feed coding bytes).1.mode = bytes.foldl Mode.next parser.mode := by
  induction bytes generalizing parser with
  | nil => rfl
  | cons b rest ih => simp only [feed, List.foldl_cons, ih, step_mode]

/-- No text is lost: it is in the runs, piece by piece, or it is pending. -/
theorem feed_pending (coding : Text.Encoding) (parser : Parser) (bytes : List UInt8) :
    ∃ pieces : List (List UInt8),
      (parser.feed coding bytes).2.map (·.text) = pieces.map coding.decode ∧
      pieces.flatten ++ (parser.feed coding bytes).1.pending =
        parser.pending ++ parser.mode.texts bytes := by
  induction bytes generalizing parser with
  | nil => exact ⟨[], rfl, by simp [feed, Mode.texts]⟩
  | cons b rest ih =>
    obtain ⟨later, runs, whole⟩ := ih (parser.step coding b).1
    have cut := parser.step_cut coding b
    rw [step_mode] at whole
    simp only [feed, Mode.texts, List.map_append, runs]
    generalize (parser.step coding b).1.pending = pending at cut whole
    generalize (parser.step coding b).2 = completed at cut ⊢
    cases cut with
    | keep => exact ⟨later, rfl, by rw [whole, List.append_assoc]⟩
    | before => exact ⟨parser.pending :: later, rfl, by simp [whole]⟩
    | after => exact ⟨(parser.pending ++ parser.mode.text b) :: later, rfl, by simp [whole]⟩

end Parser

end DebugAdapter.Output
