import DebugAdapter.Proofs.Output.Escape
import DebugAdapter.Proofs.Text.Utf8

/-! Text with control sequences, as it is meant: characters in order, and sequences that select the
style of the characters after them. The parser is compared with this, however the bytes arrive. -/
namespace DebugAdapter.Output

/-- A control sequence: decimal parameters, any of which may be left out, and the byte that ends
it. -/
structure Control where
  first : List (Fin 10)
  more : List (List (Fin 10))
  final : UInt8
  bounds : 0x40 ≤ final ∧ final ≤ 0x7E

namespace Control

def digit (d : Fin 10) : UInt8 := .ofNat (d.val + 0x30)

def parameters (control : Control) : List UInt8 :=
  control.first.map digit ++ control.more.flatMap fun digits => 0x3B :: digits.map digit

def bytes (control : Control) : List UInt8 :=
  [0x1B, 0x5B] ++ control.parameters ++ [control.final]

def number (digits : List (Fin 10)) : Nat :=
  min (digits.foldl (fun n d => n * 10 + d.val) 0) 65535

def codes (control : Control) : List Nat :=
  ((control.first :: control.more).map number).take 64

/-- A sequence that ends in the letter m selects a style. -/
def select (style : Style) (control : Control) : Style :=
  if control.final = 0x6D then style.selectAll control.codes else style

end Control

inductive Token where
  | char (c : Char) (text : c ≠ '\x1b')
  | sequence (control : Control)

def Token.bytes : Token → List UInt8
  | .char c _ => String.utf8EncodeChar c
  | .sequence control => control.bytes

/-- The characters, each in the style that the sequences before it select. -/
def styled (style : Style) : List Token → List (Char × Style)
  | [] => []
  | .char c _ :: rest => (c, style) :: styled style rest
  | .sequence control :: rest => styled (control.select style) rest

def selected (style : Style) : List Token → Style
  | [] => style
  | .char .. :: rest => selected style rest
  | .sequence control :: rest => selected (control.select style) rest

def Run.chars (run : Run) : List (Char × Style) :=
  run.text.toList.map (·, run.style)

/-- What may end a run before the end of all output: a line, its length, or a sequence that comes
next and changes the style or resets it. -/
inductive Run.Ends (threshold : Nat) (run : Run) (style : Style) (rest : List Token) : Prop where
  | line : run.text.toList.getLast? = some '\n' → Ends threshold run style rest
  | full : threshold ≤ (Text.bytes run.text).length → Ends threshold run style rest
  | style (control : Control) (later : List Token) : rest = .sequence control :: later →
      control.final = 0x6D →
      (∀ code ∈ control.codes, code = 0) ∨ control.select style ≠ style →
      Ends threshold run style rest

variable {coding : Text.Encoding} {parser : Parser} {params : List Nat} {current : Option Nat}

namespace Control

theorem digit_spec : ∀ d : Fin 10,
    (0x30 ≤ digit d ∧ digit d ≤ 0x39) ∧ (digit d).toNat - 0x30 = d.val := by
  decide

/-- Digits that are read one by one, with the greatest value as a limit at each. -/
def readDigits (current : Option Nat) (digits : List (Fin 10)) : Option Nat :=
  digits.foldl (fun current d => some (min (current.getD 0 * 10 + d.val) Parser.maxParam)) current

theorem step_separator :
    ({ parser with mode := .control params current } : Parser).step coding 0x3B =
      ({ parser with mode := .control (Parser.addParam params current) none }, []) :=
  rfl

/-- It does not matter whether a number is limited at each digit or at the end. -/
theorem readDigits_getD (digits : List (Fin 10)) (value : Nat)
    (same : current.getD 0 = min value Parser.maxParam) :
    (readDigits current digits).getD 0 =
      min (digits.foldl (fun n d => n * 10 + d.val) value) Parser.maxParam := by
  induction digits generalizing current value with
  | nil => exact same
  | cons d rest ih =>
    refine ih (value * 10 + d.val) ?_
    simp only [Option.getD_some, same, Parser.maxParam]
    omega

theorem feed_digits (digits : List (Fin 10)) :
    ({ parser with mode := .control params current } : Parser).feed coding (digits.map digit) =
      ({ parser with mode := .control params (readDigits current digits) }, []) := by
  induction digits generalizing current with
  | nil => rfl
  | cons d rest ih =>
    obtain ⟨bounds, value⟩ := digit_spec d
    simp only [List.map_cons, Parser.feed, Parser.step, Parser.readControl, if_pos bounds,
      Parser.addDigit, value, ih]
    rfl

/-- The parameters that count do not depend on when the others are dropped. -/
theorem addParam_eq (few : params.length ≤ 64) :
    Parser.addParam params current = (params ++ [current.getD 0]).take 64 := by
  unfold Parser.addParam
  split
  · rename_i room
    exact (List.take_of_length_le (by rw [List.length_append]; exact room)).symm
  · rename_i none
    have full : params.length = 64 := Nat.le_antisymm few (Nat.not_lt.mp none)
    rw [List.take_append_of_le_length (Nat.le_of_eq full.symm), List.take_of_length_le few]

theorem take_take_append (n : Nat) (xs ys : List Nat) :
    (xs.take n ++ ys).take n = (xs ++ ys).take n := by
  simp [List.take_append, List.take_take]
  omega

theorem feed_parameters (coding : Text.Encoding) (parser : Parser) (first : List (Fin 10))
    (more : List (List (Fin 10))) (few : params.length ≤ 64) :
    ∃ before last,
      ({ parser with mode := .control params none } : Parser).feed coding
          (first.map digit ++ more.flatMap fun digits => 0x3B :: digits.map digit) =
        ({ parser with mode := .control before last }, []) ∧
      Parser.addParam before last = (params ++ (first :: more).map number).take 64 := by
  have value : (readDigits none first).getD 0 = number first := readDigits_getD first 0 rfl
  induction more generalizing params first with
  | nil =>
    refine ⟨params, readDigits none first, ?_, ?_⟩
    · simp only [List.flatMap_nil, List.append_nil, feed_digits]
    · rw [addParam_eq few, value]
      rfl
  | cons second rest ih =>
    have added : Parser.addParam params (readDigits none first) =
        (params ++ [number first]).take 64 := by rw [addParam_eq few, value]
    have room : (Parser.addParam params (readDigits none first)).length ≤ 64 := by
      rw [added]
      exact List.length_take_le _ _
    obtain ⟨before, last, fed, codes⟩ := ih second room (readDigits_getD second 0 rfl)
    refine ⟨before, last, ?_, ?_⟩
    · simp only [List.flatMap_cons, List.cons_append, Parser.feed_append, feed_digits, Parser.feed,
        step_separator, fed, List.append_nil]
    · rw [codes, added, take_take_append]
      simp

/-- A sequence as a whole leaves the text alone, but for one that selects a style. -/
theorem feed_bytes (control : Control) (ground : parser.mode = .ground) :
    parser.feed coding control.bytes =
      if control.final = 0x6D then parser.selectStyle coding control.codes else (parser, []) := by
  obtain ⟨mode, style, pending, threshold⟩ := parser
  cases ground
  have few : ([] : List Nat).length ≤ 64 := Nat.zero_le _
  obtain ⟨before, last, fed, codes⟩ :=
    feed_parameters coding { style, pending, threshold } control.first control.more few
  have undigit : ¬(0x30 ≤ control.final ∧ control.final ≤ 0x39) := fun inside =>
    absurd (UInt8.le_trans control.bounds.1 inside.2) (by decide)
  have unseparated : control.final ≠ 0x3B := fun same =>
    absurd (same ▸ control.bounds.1) (by decide)
  have begun (rest : List UInt8) :
      ({ style, pending, threshold } : Parser).feed coding ([0x1B, 0x5B] ++ rest) =
        ({ mode := .control [] none, style, pending, threshold } : Parser).feed coding rest := rfl
  rw [bytes, List.append_assoc, begun, Parser.feed_append, parameters, fed]
  simp only [Parser.feed, Parser.step, Parser.readControl, if_neg undigit, if_neg unseparated,
    if_pos control.bounds, codes, List.nil_append, List.append_nil, Control.codes]

end Control

theorem feed_continuation {bytes : List UInt8} (ground : parser.mode = .ground)
    (continues : ∀ b ∈ bytes, Text.Utf8.isContinuation b = true) :
    parser.feed coding bytes = ({ parser with pending := parser.pending ++ bytes }, []) := by
  induction bytes generalizing parser with
  | nil => simp [Parser.feed]
  | cons b rest ih =>
    obtain ⟨own, later⟩ := List.forall_mem_cons.mp continues
    have text : b ≠ Parser.escapeByte ∧ b ≠ Parser.lineEnd := by
      constructor
      all_goals
        rintro rfl
        exact absurd own (by decide)
    have stepped : parser.step coding b = (parser.push b, []) := by
      simp [Parser.step, ground, Parser.readText, text, own]
    have fed := @ih (parser.push b) ground later
    simp only [Parser.feed, stepped, fed]
    simp [Parser.push]

theorem feed_line (ground : parser.mode = .ground) :
    parser.feed coding (String.utf8EncodeChar '\n') = ({ parser with pending := [] },
      [⟨coding.decode (parser.pending ++ String.utf8EncodeChar '\n'), parser.style⟩]) := by
  have byte : String.utf8EncodeChar '\n' = [Parser.lineEnd] := by decide
  have plain : Parser.lineEnd ≠ Parser.escapeByte := by decide
  simp only [byte, Parser.feed, Parser.step, ground, Parser.readText_eq, if_neg plain, if_true,
    List.append_nil]

theorem feed_char {c : Char} (ground : parser.mode = .ground) (text : c ≠ '\x1b')
    (inside : c ≠ '\n') :
    parser.feed coding (String.utf8EncodeChar c) =
      if parser.threshold ≤ parser.pending.length then
        ({ parser with pending := String.utf8EncodeChar c }, parser.due coding)
      else ({ parser with pending := parser.pending ++ String.utf8EncodeChar c }, []) := by
  obtain ⟨first, rest, shape, starts, continues, ascii⟩ := Text.Utf8.utf8EncodeChar_shape c
  have plain : first ≠ Parser.escapeByte ∧ first ≠ Parser.lineEnd := by
    constructor
    · rintro rfl
      exact text (ascii (by decide)).1
    · rintro rfl
      exact inside (ascii (by decide)).1
  rw [shape]
  by_cases full : parser.threshold ≤ parser.pending.length
  · have stepped : parser.step coding first =
        ({ parser with pending := [first] }, parser.due coding) := by
      simp [Parser.step, ground, Parser.readText_eq, plain, starts, full]
    have fed := @feed_continuation coding { parser with pending := [first] } rest ground continues
    simp only [Parser.feed, stepped, fed, if_pos full, List.append_nil, List.singleton_append]
  · have stepped : parser.step coding first =
        ({ parser with pending := parser.pending ++ [first] }, []) := by
      simp [Parser.step, ground, Parser.readText_eq, plain, full]
    have fed := @feed_continuation coding { parser with pending := parser.pending ++ [first] } rest
      ground continues
    simp only [Parser.feed, stepped, fed, if_neg full, List.append_assoc, List.singleton_append,
      List.nil_append]

theorem styled_append (style : Style) (first second : List Token) :
    styled style (first ++ second) = styled style first ++ styled (selected style first) second := by
  induction first generalizing style with
  | nil => rfl
  | cons token rest ih => cases token <;> simp [styled, selected, ih]

theorem selected_append (style : Style) (first second : List Token) :
    selected style (first ++ second) = selected (selected style first) second := by
  induction first generalizing style with
  | nil => rfl
  | cons token rest ih => cases token <;> simp [selected, ih]

/-- Every run has ended where it may. -/
def Ended (threshold : Nat) (front : List Token) (runs : List Run) : Prop :=
  ∀ earlier run later, runs = earlier ++ run :: later → ∃ before after, front = before ++ after ∧
    (earlier ++ [run]).flatMap Run.chars = styled {} before ∧
    run.Ends threshold (selected {} before) after

/-- What has been read of a stream: the runs that are complete, and the text that is pending, are
its characters in their styles. -/
structure Reads (threshold : Nat) (front : List Token) (parser : Parser) (runs : List Run) :
    Prop where
  ground : parser.mode = .ground
  limit : parser.threshold = threshold
  style : parser.style = selected {} front
  opened : ∃ text, parser.pending = Text.Utf8.encode text ∧
    runs.flatMap Run.chars ++ text.map (·, parser.style) = styled {} front
  filled : ∀ run ∈ runs, run.text ≠ ""
  ended : Ended threshold front runs

variable {threshold : Nat} {front : List Token} {runs emitted : List Run} {text : List Char}

theorem Run.Ends.extend {run : Run} {style : Style} {rest : List Token}
    (ends : run.Ends threshold style rest) (token : Token) :
    run.Ends threshold style (rest ++ [token]) := by
  cases ends with
  | line last => exact .line last
  | full long => exact .full long
  | style control later next selects changes =>
    exact .style control (later ++ [token]) (by rw [next, List.cons_append]) selects changes

theorem Ended.extend (ended : Ended threshold front runs) (token : Token) :
    Ended threshold (front ++ [token]) runs := by
  intro earlier run later split
  obtain ⟨before, after, rfl, chars, ends⟩ := ended earlier run later split
  exact ⟨before, after ++ [token], List.append_assoc .., chars, ends.extend token⟩

theorem Ended.emit (ended : Ended threshold front runs) {last : Run} {before after : List Token}
    (place : front = before ++ after)
    (chars : (runs ++ [last]).flatMap Run.chars = styled {} before)
    (ends : last.Ends threshold (selected {} before) after) :
    Ended threshold front (runs ++ [last]) := by
  intro earlier run later split
  rcases List.eq_nil_or_concat later with rfl | ⟨rest, final, rfl⟩
  · obtain ⟨rfl, same⟩ := List.append_inj' split rfl
    cases same
    exact ⟨before, after, place, chars, ends⟩
  · rw [List.concat_eq_append, ← List.cons_append, ← List.append_assoc] at split
    exact ended earlier run rest (List.append_inj' split rfl).1

theorem due_spec (pending : parser.pending = Text.Utf8.encode text) :
    (text = [] ∧ parser.due .utf8 = []) ∨
      (text ≠ [] ∧ parser.due .utf8 = [⟨.ofList text, parser.style⟩]) := by
  have empty := @Text.Utf8.encode_eq_nil text
  rw [← pending] at empty
  by_cases none : text = []
  · exact Or.inl ⟨none, by simp [Parser.due, empty.mpr none]⟩
  · have decoded : Text.Encoding.utf8.decode parser.pending = .ofList text := by
      rw [pending]
      exact congrArg String.ofList (Text.Utf8.decode_encode text)
    exact Or.inr ⟨none, by simp [Parser.due, mt empty.mp none, decoded]⟩

theorem Reads.start (threshold : Nat) :
    Reads (max threshold 1) [] (.ofThreshold threshold) [] where
  ground := rfl
  limit := rfl
  style := rfl
  opened := ⟨[], rfl, rfl⟩
  filled := by simp
  ended := by simp [Ended]

theorem chars_ofList (text : List Char) (style : Style) :
    Run.chars ⟨.ofList text, style⟩ = text.map (·, style) := by
  simp [Run.chars]

theorem ofList_ne (held : text ≠ []) : String.ofList text ≠ "" := fun empty =>
  held (by simpa using congrArg String.toList empty)

theorem Reads.flushed (reads : Reads threshold front parser runs) :
    (runs ++ parser.due .utf8).flatMap Run.chars = styled {} front ∧
      ∀ run ∈ runs ++ parser.due .utf8, run.text ≠ "" := by
  obtain ⟨text, pending, chars⟩ := reads.opened
  rcases due_spec pending with ⟨rfl, due⟩ | ⟨held, due⟩
  · rw [due, List.append_nil]
    rw [List.map_nil, List.append_nil] at chars
    exact ⟨chars, reads.filled⟩
  · rw [due, List.flatMap_append, List.flatMap_singleton, chars_ofList]
    refine ⟨chars, fun run member => ?_⟩
    rcases List.mem_append.mp member with old | newest
    · exact reads.filled run old
    · obtain rfl := List.mem_singleton.mp newest
      exact ofList_ne held

/-- The run that is due may end before the next token if something ends it there. -/
theorem Reads.due (reads : Reads threshold front parser runs) (token : Token)
    (ends : ∀ run : Run, Text.bytes run.text = parser.pending →
      run.Ends threshold (selected {} front) [token]) :
    Ended threshold (front ++ [token]) (runs ++ parser.due .utf8) := by
  obtain ⟨text, pending, _⟩ := reads.opened
  have whole := reads.flushed.1
  rcases due_spec pending with ⟨_, due⟩ | ⟨_, due⟩
  · rw [due, List.append_nil]
    exact reads.ended.extend token
  · rw [due] at whole ⊢
    refine (reads.ended.extend token).emit rfl whole (ends _ ?_)
    rw [pending, Text.bytes, String.toList_ofList]

theorem styled_char (style : Style) (front : List Token) (c : Char) (plain : c ≠ '\x1b') :
    selected style (front ++ [.char c plain]) = selected style front ∧
      styled style (front ++ [.char c plain]) =
        styled style front ++ [(c, selected style front)] := by
  rw [selected_append, styled_append]
  exact ⟨rfl, rfl⟩

theorem Reads.line (reads : Reads threshold front parser runs) (plain : '\n' ≠ '\x1b') :
    Reads threshold (front ++ [.char '\n' plain])
      (parser.feed .utf8 (String.utf8EncodeChar '\n')).1
      (runs ++ (parser.feed .utf8 (String.utf8EncodeChar '\n')).2) := by
  obtain ⟨text, pending, chars⟩ := reads.opened
  obtain ⟨same, next⟩ := styled_char {} front '\n' plain
  rw [← reads.style] at same next
  let run : Run := ⟨.ofList (text ++ ['\n']), parser.style⟩
  have decoded : Text.Encoding.utf8.decode (parser.pending ++ String.utf8EncodeChar '\n') =
      run.text := by
    rw [pending, ← Text.Utf8.encode_singleton, ← Text.Utf8.encode_append]
    exact congrArg String.ofList (Text.Utf8.decode_encode _)
  have whole : (runs ++ [run]).flatMap Run.chars = styled {} (front ++ [.char '\n' plain]) := by
    rw [next, ← chars, List.flatMap_append, List.flatMap_singleton, chars_ofList,
      List.map_append, List.append_assoc]
    rfl
  rw [feed_line reads.ground, decoded]
  refine ⟨reads.ground, reads.limit, same.symm, ⟨[], rfl, ?_⟩, ?_, ?_⟩
  · rw [List.map_nil, List.append_nil]
    exact whole
  · intro run member
    rcases List.mem_append.mp member with old | newest
    · exact reads.filled run old
    · obtain rfl := List.mem_singleton.mp newest
      exact ofList_ne (by simp)
  · exact (reads.ended.extend _).emit (List.append_nil _).symm whole (.line (by simp [run]))

theorem Reads.char (reads : Reads threshold front parser runs) {c : Char} (plain : c ≠ '\x1b')
    (inside : c ≠ '\n') :
    Reads threshold (front ++ [.char c plain]) (parser.feed .utf8 (String.utf8EncodeChar c)).1
      (runs ++ (parser.feed .utf8 (String.utf8EncodeChar c)).2) := by
  obtain ⟨text, pending, chars⟩ := reads.opened
  obtain ⟨same, next⟩ := styled_char {} front c plain
  rw [← reads.style] at same next
  rw [feed_char reads.ground plain inside]
  split
  · rename_i full
    obtain ⟨whole, filled⟩ := reads.flushed
    have ended := reads.due (.char c plain) fun run bytes =>
      Run.Ends.full (by rw [bytes, ← reads.limit]; exact full)
    refine ⟨reads.ground, reads.limit, same.symm, ⟨[c], ?_, ?_⟩, filled, ended⟩
    · exact (Text.Utf8.encode_singleton c).symm
    · rw [whole, next]
      rfl
  · rw [List.append_nil]
    refine ⟨reads.ground, reads.limit, same.symm, ⟨text ++ [c], ?_, ?_⟩, reads.filled,
      reads.ended.extend _⟩
    · rw [Text.Utf8.encode_append, Text.Utf8.encode_singleton, ← pending]
    · rw [next, ← chars, List.map_append, List.append_assoc]
      rfl

theorem Reads.sequence (reads : Reads threshold front parser runs) (control : Control) :
    Reads threshold (front ++ [.sequence control]) (parser.feed .utf8 control.bytes).1
      (runs ++ (parser.feed .utf8 control.bytes).2) := by
  obtain ⟨text, pending, chars⟩ := reads.opened
  have same : selected {} (front ++ [.sequence control]) = control.select parser.style := by
    rw [selected_append, reads.style]
    rfl
  have next : styled {} (front ++ [.sequence control]) = styled {} front := by
    rw [styled_append]
    exact List.append_nil _
  -- What passes over the sequence does not see it.
  have passed (unchanged : control.select parser.style = parser.style) :
      Reads threshold (front ++ [.sequence control]) parser (runs ++ []) := by
    rw [List.append_nil]
    exact ⟨reads.ground, reads.limit, (same.trans unchanged).symm,
      ⟨text, pending, chars.trans next.symm⟩, reads.filled, reads.ended.extend _⟩
  rw [Control.feed_bytes control reads.ground]
  split
  · rename_i selects
    have selection : control.select parser.style = parser.style.selectAll control.codes :=
      if_pos selects
    rw [Parser.selectStyle_eq, ← selection]
    split
    · rename_i cuts
      have changes : (∀ code ∈ control.codes, code = 0) ∨
          control.select (selected {} front) ≠ selected {} front := by
        rw [← reads.style]
        simpa using cuts
      obtain ⟨whole, filled⟩ := reads.flushed
      have ended := reads.due (.sequence control) fun run _ =>
        Run.Ends.style control [] rfl selects changes
      refine ⟨reads.ground, reads.limit, same.symm, ⟨[], rfl, ?_⟩, filled, ended⟩
      rw [whole, next]
      exact List.append_nil _
    · rename_i keeps
      exact passed (by simp_all)
  · rename_i other
    exact passed (if_neg other)

theorem Reads.feed (reads : Reads threshold front parser runs) (token : Token) :
    Reads threshold (front ++ [token]) (parser.feed .utf8 token.bytes).1
      (runs ++ (parser.feed .utf8 token.bytes).2) := by
  cases token with
  | char c plain =>
    by_cases line : c = '\n'
    · subst line
      exact reads.line plain
    · exact reads.char plain line
  | sequence control => exact reads.sequence control

theorem Reads.feedAll (reads : Reads threshold front parser runs) (tokens : List Token) :
    Reads threshold (front ++ tokens) (parser.feed .utf8 (tokens.flatMap Token.bytes)).1
      (runs ++ (parser.feed .utf8 (tokens.flatMap Token.bytes)).2) := by
  induction tokens generalizing front parser runs with
  | nil => simpa [Parser.feed] using reads
  | cons token rest ih =>
    have later := ih (reads.feed token)
    simp only [List.flatMap_cons, Parser.feed_append]
    simpa only [List.append_assoc, List.singleton_append] using later

def plain : List Token → List Char
  | [] => []
  | .char c _ :: rest => c :: plain rest
  | .sequence _ :: rest => plain rest

theorem styled_plain (style : Style) (tokens : List Token) :
    (styled style tokens).map (·.1) = plain tokens := by
  induction tokens generalizing style with
  | nil => rfl
  | cons token rest ih => cases token <;> simp [styled, plain, ih]

/-- However a stream of text and control sequences is cut into pieces, the runs hold its characters
in order, each in the style that the sequences before it select, and only a line, the threshold, a
change of style, a reset or the end of the stream ends one. -/
theorem runs_styled {threshold : Nat} (limited : 1 ≤ threshold) {tokens : List Token}
    {pieces : List (List UInt8)} (stream : pieces.flatten = tokens.flatMap Token.bytes) :
    let fed := emitting (Parser.feed .utf8) (.ofThreshold threshold) pieces
    let runs := fed.2 ++ (fed.1.flush .utf8).2
    String.join (runs.map (·.text)) = .ofList (plain tokens) ∧
      runs.flatMap Run.chars = styled {} tokens ∧
      (∀ run ∈ runs, run.text ≠ "") ∧
      ∀ earlier run later, fed.2 = earlier ++ run :: later →
        ∃ before after, tokens = before ++ after ∧
          (earlier ++ [run]).flatMap Run.chars = styled {} before ∧
          run.Ends threshold (selected {} before) after := by
  intro fed runs
  have whole : fed = (Parser.ofThreshold threshold).feed .utf8 (tokens.flatMap Token.bytes) := by
    rw [← stream]
    exact Parser.feed_pieces .utf8 _ pieces
  have reads := (Reads.start threshold).feedAll tokens
  simp only [← whole, Nat.max_eq_left limited, List.nil_append] at reads
  have flushed : fed.2 ++ fed.1.due .utf8 = runs :=
    congrArg (fed.2 ++ ·.2) (Parser.flush_eq .utf8 fed.1).symm
  obtain ⟨chars, filled⟩ := reads.flushed
  rw [flushed] at chars filled
  refine ⟨?_, chars, filled, reads.ended⟩
  rw [← String.toList_inj, String.toList_join, String.toList_ofList, ← styled_plain {} tokens,
    ← chars, List.map_flatMap, List.flatMap_map]
  simp [Run.chars, Function.comp_def]

/-- A sequence with a parameter left out, between two characters and cut in its middle. -/
theorem runs_styled_once :
    let reset : Control := ⟨[], [[3, 1]], 0x6D, by decide⟩
    let tokens : List Token := [.char 'é' (by decide), .sequence reset, .char 'b' (by decide)]
    let pieces : List (List UInt8) := [[0xC3], [0xA9, 0x1B, 0x5B, 0x3B, 0x33], [0x31, 0x6D, 0x62]]
    pieces.flatten = tokens.flatMap Token.bytes ∧
      styled {} tokens = [('é', {}), ('b', { foreground := some .red })] ∧
      let fed := emitting (Parser.feed .utf8) (.ofThreshold 1) pieces
      String.join ((fed.2 ++ (fed.1.flush .utf8).2).map (·.text)) = .ofList (plain tokens) := by
  intro reset tokens pieces
  have stream : pieces.flatten = tokens.flatMap Token.bytes := by decide
  exact ⟨stream, by decide, (runs_styled (Nat.le_refl 1) stream).1⟩

end DebugAdapter.Output
