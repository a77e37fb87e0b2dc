import DebugAdapter.Proofs.Text.Parts
import DebugAdapter.Proofs.Text.Utf8
import DebugAdapter.Transport.Framing

/-! What is written into a stream is read back from it, one message by each call of the reader.
Header lines end at their line feeds and payloads by their length alone, so payloads may hold
anything that stands in headers. -/
namespace DebugAdapter.Transport

def Inbound.Ends : Inbound → Prop
  | .message _ => False
  | .closed => True
  | .failed failure => failure ≠ .writerClosed

namespace Framing

open Text (isBlank lowerAscii)

/-- Reads up to the first thing that the reader comes upon; the rest of the stream stays. -/
def next : Reader → List UInt8 → Inbound × List UInt8
  | reader, [] => ((finish reader).headD .closed, [])
  | reader, b :: rest =>
    match step reader b with
    | (_, inbound :: _) => (inbound, rest)
    | (reader, []) => next reader rest

def call (bytes : List UInt8) : Inbound × List UInt8 :=
  next (.header none []) bytes

/-- What repeated calls bring, up to the first that brings no message. -/
inductive Calls : List UInt8 → List Inbound → Prop where
  | message {bytes rest : List UInt8} {payload : String} {inbound : List Inbound} :
      call bytes = (.message payload, rest) → Calls rest inbound →
      Calls bytes (.message payload :: inbound)
  | last {bytes rest : List UInt8} {inbound : Inbound} :
      call bytes = (inbound, rest) → inbound.Ends → Calls bytes [inbound]

def outcome (reader : Reader) (bytes : List UInt8) : List Inbound :=
  (feed reader bytes).2 ++ finish (feed reader bytes).1

theorem read_eq (bytes : List UInt8) : read bytes = outcome (.header none []) bytes := by
  simp [read, readPieces, outcome]

theorem outcome_cons (reader : Reader) (b : UInt8) (rest : List UInt8) :
    outcome reader (b :: rest) = (step reader b).2 ++ outcome (step reader b).1 rest := by
  simp only [outcome, feed, List.append_assoc]

theorem outcome_ended (bytes : List UInt8) : outcome .ended bytes = [] := by
  induction bytes with
  | nil => rfl
  | cons b rest ih => rw [outcome_cons, step, List.nil_append, ih]

/-- What may come of one step: the reader goes on, or it stands before the next header after a
message, or it has ended for another reason. -/
inductive Progress : Reader × List Inbound → Prop where
  | silent {reader : Reader} : reader ≠ .ended → Progress (reader, [])
  | message (payload : String) : Progress (.header none [], [.message payload])
  | ended {inbound : Inbound} : inbound.Ends → Progress (.ended, [inbound])

theorem payload_progress (bytes : List UInt8) :
    Progress (afterMessage (payloadMessage bytes), [payloadMessage bytes]) := by
  unfold payloadMessage
  split
  · exact .message _
  · exact .ended (by simp [Inbound.Ends])

theorem endHeader_progress (length : Option Nat) : Progress (endHeader length) := by
  match length with
  | none => exact .ended (by simp [Inbound.Ends])
  | some 0 => exact payload_progress []
  | some (left + 1) =>
    rw [endHeader]
    split
    · exact .silent (by simp)
    · exact .ended (by simp [Inbound.Ends])

theorem endLine_progress (length : Option Nat) (line : List UInt8) :
    Progress (endLine length line) := by
  unfold endLine
  split
  · exact .ended (by simp [Inbound.Ends])
  · dsimp only
    split
    · exact endHeader_progress length
    · exact .silent (by simp)

theorem step_progress {reader : Reader} (reading : reader ≠ .ended) (b : UInt8) :
    Progress (step reader b) := by
  match reader with
  | .header length line =>
    rw [step]
    split
    · exact endLine_progress _ _
    · exact .silent (by simp)
  | .payload 0 seen => exact payload_progress _
  | .payload (left + 1) seen => exact .silent (by simp)
  | .ended => exact absurd rfl reading

/-- The first thing that the reader comes upon at the end of the stream is a message only where the
stream counts as closed after it. -/
theorem finish_shape {reader : Reader} (reading : reader ≠ .ended) :
    (∃ payload, finish reader = [.message payload, .closed]) ∨
      ∃ inbound, finish reader = [inbound] ∧ inbound.Ends := by
  match reader with
  | .header length [] => exact .inr ⟨.closed, rfl, trivial⟩
  | .payload left seen => exact .inr ⟨.failed .shortPayload, rfl, by simp [Inbound.Ends]⟩
  | .ended => exact absurd rfl reading
  | .header length (b :: line) =>
    have progress := endLine_progress length (b :: line).reverse
    simp only [finish]
    generalize endLine length (b :: line).reverse = ended at progress ⊢
    cases progress with
    | message payload => exact .inl ⟨payload, rfl⟩
    | ended other => exact .inr ⟨_, rfl, other⟩
    | @silent reader going =>
      cases reader with
      | header => exact .inr ⟨.closed, rfl, trivial⟩
      | payload => exact .inr ⟨.failed .shortPayload, rfl, by simp [Inbound.Ends]⟩
      | ended => exact absurd rfl going

/-- A call takes what the whole stream brings first. Only after a message is there more. -/
theorem next_spec {reader : Reader} (reading : reader ≠ .ended) (bytes : List UInt8) :
    (∃ payload rest, next reader bytes = (.message payload, rest) ∧
        (rest.length < bytes.length ∨ bytes = [] ∧ rest = []) ∧
        outcome reader bytes = .message payload :: read rest) ∨
      ∃ inbound rest, next reader bytes = (inbound, rest) ∧
        inbound.Ends ∧ outcome reader bytes = [inbound] := by
  induction bytes generalizing reader with
  | nil =>
    rcases finish_shape reading with ⟨payload, finished⟩ | ⟨inbound, finished, other⟩
    · exact .inl ⟨payload, [], by simp [next, finished], .inr ⟨rfl, rfl⟩, finished⟩
    · exact .inr ⟨inbound, [], by simp [next, finished], other, finished⟩
  | cons b rest ih =>
    have progress := step_progress reading b
    rw [outcome_cons]
    unfold next
    generalize step reader b = stepped at progress ⊢
    cases progress with
    | message payload =>
      exact .inl ⟨payload, rest, rfl, .inl (Nat.lt_succ_self _), by rw [read_eq]; rfl⟩
    | ended other => exact .inr ⟨_, rest, rfl, other, by rw [outcome_ended]; rfl⟩
    | silent going =>
      rcases ih going with ⟨payload, later, taken, shorter, whole⟩ | ended
      · refine .inl ⟨payload, later, taken, .inl ?_, whole⟩
        rcases shorter with shorter | ⟨-, rfl⟩
        · exact Nat.lt_succ_of_lt shorter
        · exact Nat.zero_lt_succ _
      · exact .inr ended

/-- Repeated calls bring what the reader brings on the stream as a whole, however it ends. -/
theorem calls_read (bytes : List UInt8) : Calls bytes (read bytes) := by
  have reading : Reader.header none [] ≠ .ended := by simp
  rw [read_eq]
  rcases next_spec reading bytes with
    ⟨payload, rest, taken, shorter, whole⟩ | ⟨inbound, rest, taken, other, whole⟩
  · rw [whole]
    have smaller : rest.length < bytes.length := by
      rcases shorter with shorter | ⟨rfl, -⟩
      · exact shorter
      · cases taken
    exact .message taken (calls_read rest)
  · rw [whole]
    exact .last taken other
termination_by bytes.length

theorem Calls.unique {bytes : List UInt8} {first second : List Inbound} (one : Calls bytes first)
    (other : Calls bytes second) : first = second := by
  induction one generalizing second with
  | message taken _ ih =>
    cases other with
    | message again later =>
      cases taken.symm.trans again
      rw [ih later]
    | last again ends =>
      obtain ⟨rfl, -⟩ := Prod.mk.inj (again.symm.trans taken)
      exact absurd ends id
  | last taken ends =>
    cases other with
    | message again _ =>
      obtain ⟨rfl, -⟩ := Prod.mk.inj (taken.symm.trans again)
      exact absurd ends id
    | last again _ =>
      cases taken.symm.trans again
      rfl

def Stream (inbound : List Inbound) : Prop :=
  ∃ payloads : List String, ∃ last, inbound = payloads.map .message ++ [last] ∧ last.Ends

theorem Calls.stream {bytes : List UInt8} {inbound : List Inbound} (calls : Calls bytes inbound) :
    Stream inbound := by
  induction calls with
  | @message _ _ payload _ _ _ ih =>
    obtain ⟨payloads, last, rfl, ends⟩ := ih
    exact ⟨payload :: payloads, last, rfl, ends⟩
  | last _ ends => exact ⟨[], _, rfl, ends⟩

def lineEnd (crlf : Bool) : List Char :=
  if crlf then ['\r', '\n'] else ['\n']

theorem stripEnd_lineEnd (text : List Char) (crlf : Bool) :
    stripEnd (text ++ lineEnd crlf) = stripEnd text := by
  cases crlf <;> simp [stripEnd, lineEnd, isLineEnd]

theorem stripEnd_append_solid (front : List Char) {c : Char} (solid : isLineEnd c = false)
    (tail : List Char) : stripEnd (front ++ c :: tail) = front ++ c :: stripEnd tail := by
  simp only [stripEnd, List.reverse_append, List.reverse_cons, List.append_assoc,
    List.singleton_append, List.dropWhile_append]
  split
  · rename_i empty
    simp only [List.isEmpty_iff] at empty
    simp [empty, solid]
  · simp

theorem stripEnd_prefix (text : List Char) : ∃ tail, text = stripEnd text ++ tail := by
  refine ⟨(text.reverse.takeWhile isLineEnd).reverse, ?_⟩
  rw [stripEnd, ← List.reverse_append, List.takeWhile_append_dropWhile, List.reverse_reverse]

def proceed : Reader × List Inbound → List UInt8 → Inbound × List UInt8
  | (_, inbound :: _), rest => (inbound, rest)
  | (reader, []), rest => next reader rest

theorem next_cons (reader : Reader) (b : UInt8) (rest : List UInt8) :
    next reader (b :: rest) = proceed (step reader b) rest := by
  rw [next]
  split <;> rename_i stepped <;> rw [stepped] <;> rfl

theorem next_line {line : List UInt8} (unended : 0x0A ∉ line) (length : Option Nat)
    (seen rest : List UInt8) : next (.header length seen) (line ++ 0x0A :: rest) =
      proceed (endLine length (seen.reverse ++ (line ++ [0x0A]))) rest := by
  induction line generalizing seen with
  | nil => rw [List.nil_append, next_cons, step, if_pos rfl, List.reverse_cons, List.nil_append]
  | cons b line ih =>
    obtain ⟨other, unended⟩ := not_or.mp (mt List.mem_cons.mpr unended)
    rw [List.cons_append, next_cons, step, if_neg (Ne.symm other), proceed, ih unended,
      List.reverse_cons, List.append_assoc]
    rfl

theorem next_text {text : List Char} (oneLine : '\n' ∉ text) (crlf : Bool) (length : Option Nat)
    (rest : List UInt8) :
    next (.header length []) (Text.Utf8.encode (text ++ lineEnd crlf) ++ rest) =
      proceed (if (stripEnd text).isEmpty then endHeader length
        else (.header ((lengthOf? (stripEnd text)).orElse fun _ => length) [], [])) rest := by
  obtain ⟨front, whole, unended⟩ : ∃ front, text ++ lineEnd crlf = front ++ ['\n'] ∧
      '\n' ∉ front := by
    cases crlf
    · exact ⟨text, rfl, oneLine⟩
    · exact ⟨text ++ ['\r'], by simp [lineEnd], by simp [oneLine]⟩
  have bytes : Text.Utf8.encode (text ++ lineEnd crlf) = Text.Utf8.encode front ++ [0x0A] := by
    rw [whole, Text.Utf8.encode_append]
    rfl
  have unended : (0x0A : UInt8) ∉ Text.Utf8.encode front := fun occurs =>
    unended (Text.Utf8.mem_of_mem_encode occurs (by decide))
  have read := next_line unended length [] rest
  rw [List.reverse_nil, List.nil_append, ← bytes] at read
  rw [bytes, List.append_assoc, List.singleton_append, read, endLine, Text.Utf8.decode?_encode]
  simp only [stripEnd_lineEnd]

structure OtherLine where
  text : List Char
  crlf : Bool
  oneLine : '\n' ∉ text
  /-- An empty line would end the header. -/
  given : stripEnd text ≠ []
  unnamed : ∀ name value, text = name ++ ':' :: value → ':' ∉ name →
    lowerAscii (Text.trim name) ≠ lowerAscii lengthName.toList

def OtherLine.bytes (line : OtherLine) : List UInt8 :=
  Text.Utf8.encode (line.text ++ lineEnd line.crlf)

structure Blanks where
  text : List Char
  blank : ∀ c ∈ text, isBlank c = true
  oneLine : '\n' ∉ text

/-- The line for the length, in any case and with blank characters around its parts. -/
structure LengthLine where
  name : List Char
  named : lowerAscii name = lowerAscii lengthName.toList
  beforeName : Blanks
  afterName : Blanks
  beforeValue : Blanks
  afterValue : Blanks
  crlf : Bool

def LengthLine.text (line : LengthLine) (value : List Char) : List Char :=
  line.beforeName.text ++ line.name ++ line.afterName.text ++
    ':' :: (line.beforeValue.text ++ value ++ line.afterValue.text)

def LengthLine.bytes (line : LengthLine) (length : Nat) : List UInt8 :=
  Text.Utf8.encode (line.text (toString length).toList ++ lineEnd line.crlf)

/-- A text that can be held, since the number of its bytes is a word with a sign. -/
structure Payload where
  text : String
  fits : (Text.bytes text).length < Word.signedLimit64

/-- A message with any header that gives its length. -/
structure Frame where
  payload : Payload
  earlier : List OtherLine
  length : LengthLine
  later : List OtherLine
  crlf : Bool

def Frame.bytes (frame : Frame) : List UInt8 :=
  frame.earlier.flatMap OtherLine.bytes ++
    (frame.length.bytes (Text.bytes frame.payload.text).length ++
      (frame.later.flatMap OtherLine.bytes ++
        (Text.Utf8.encode (lineEnd frame.crlf) ++ Text.bytes frame.payload.text)))

theorem next_other (line : OtherLine) (length : Option Nat) (rest : List UInt8) :
    next (.header length []) (line.bytes ++ rest) = next (.header length []) rest := by
  have unnamed : lengthOf? (stripEnd line.text) = none := by
    cases split : Text.splitFirst? [':'] (stripEnd line.text) with
    | none => simp [lengthOf?, split]
    | some parts =>
      obtain ⟨name, value⟩ := parts
      obtain ⟨shape, free⟩ := Text.of_splitFirst?_eq_some split
      obtain ⟨tail, whole⟩ := stripEnd_prefix line.text
      rw [shape, List.append_assoc, List.cons_append] at whole
      simp [lengthOf?, split, line.unnamed name _ whole free]
  have given : (stripEnd line.text).isEmpty = false := by simpa using line.given
  rw [OtherLine.bytes, next_text line.oneLine, given, unnamed]
  rfl

theorem next_others (lines : List OtherLine) (length : Option Nat) (rest : List UInt8) :
    next (.header length []) (lines.flatMap OtherLine.bytes ++ rest) =
      next (.header length []) rest := by
  induction lines with
  | nil => rfl
  | cons line lines ih => rw [List.flatMap_cons, List.append_assoc, next_other, ih]

theorem lengthName_solid : ∀ c ∈ lowerAscii lengthName.toList, isBlank c = false ∧ c ≠ ':' := by
  have checked : (lowerAscii lengthName.toList).all (fun c => !isBlank c && c != ':') = true := by
    decide +kernel
  simpa using checked

theorem LengthLine.name_solid (line : LengthLine) {c : Char} (occurs : c ∈ line.name) :
    isBlank c = false ∧ c ≠ ':' := by
  rcases Text.isAlpha_or_toLower_eq c with letter | same
  · refine ⟨Text.isBlank_of_isAlpha letter, ?_⟩
    rintro rfl
    exact absurd letter (by decide)
  · have lowered : c ∈ lowerAscii lengthName.toList := by
      rw [← line.named, ← same]
      exact List.mem_map_of_mem occurs
    exact lengthName_solid c lowered

theorem LengthLine.trim_name (line : LengthLine) :
    Text.trim (line.beforeName.text ++ line.name ++ line.afterName.text) = line.name :=
  Text.trim_padded line.beforeName.blank (fun _ occurs => (line.name_solid occurs).1)
    line.afterName.blank

theorem LengthLine.stripEnd_text (line : LengthLine) {value : List Char}
    (solid : ∀ c ∈ value, isBlank c = false) (given : value ≠ []) : stripEnd (line.text value) =
      line.beforeName.text ++ line.name ++ line.afterName.text ++
        ':' :: (line.beforeValue.text ++ value ++ stripEnd line.afterValue.text) := by
  obtain ⟨front, last, rfl⟩ : ∃ front last, value = front ++ [last] :=
    ⟨value.dropLast, value.getLast given, (List.dropLast_append_getLast given).symm⟩
  have other : isLineEnd last = false := by
    have other := solid last (by simp)
    simp only [isLineEnd, Bool.or_eq_false_iff, decide_eq_false_iff_not]
    constructor <;> rintro rfl <;> exact absurd other (by decide)
  rw [LengthLine.text, stripEnd_append_solid _ (by decide), ← List.append_assoc _ front,
    List.append_assoc _ [last], List.singleton_append, stripEnd_append_solid _ other,
    List.append_assoc _ [last], List.singleton_append]

theorem LengthLine.oneLine (line : LengthLine) {value : List Char}
    (solid : ∀ c ∈ value, isBlank c = false) : '\n' ∉ line.text value := by
  have name : '\n' ∉ line.name := fun occurs =>
    absurd (line.name_solid occurs).1 (by decide)
  have value : '\n' ∉ value := fun occurs => absurd (solid _ occurs) (by decide)
  simp [LengthLine.text, name, value, line.beforeName.oneLine, line.afterName.oneLine,
    line.beforeValue.oneLine, line.afterValue.oneLine]

theorem LengthLine.lengthOf?_text (line : LengthLine) {value : List Char}
    (solid : ∀ c ∈ value, isBlank c = false) (given : value ≠ []) :
    lengthOf? (stripEnd (line.text value)) = Digits.word? value := by
  have colon : ∀ blanks : Blanks, ':' ∉ blanks.text := fun blanks occurs =>
    absurd (blanks.blank _ occurs) (by decide)
  have name : ':' ∉ line.name := fun occurs => (line.name_solid occurs).2 rfl
  have free : ':' ∉ line.beforeName.text ++ line.name ++ line.afterName.text := by
    simp only [List.mem_append, colon, name, or_self, not_false_iff]
  have blankAfter : ∀ c ∈ stripEnd line.afterValue.text, isBlank c = true := by
    obtain ⟨tail, whole⟩ := stripEnd_prefix line.afterValue.text
    exact fun c occurs => line.afterValue.blank c (whole ▸ List.mem_append_left _ occurs)
  rw [line.stripEnd_text solid given, lengthOf?, Text.splitFirst?_append free]
  simp only [Option.bind_eq_bind, Option.bind_some, line.trim_name, line.named, if_true,
    Text.trim_padded line.beforeValue.blank solid blankAfter]

theorem next_length (line : LengthLine) {n : Nat} (fits : n < Word.limit64) (length : Option Nat)
    (rest : List UInt8) :
    next (.header length []) (line.bytes n ++ rest) = next (.header (some n) []) rest := by
  have digits : (toString n).toList = Nat.toDigits 10 n := by
    rw [Nat.toString_eq_repr, Nat.toList_repr]
  have solid : ∀ c ∈ Nat.toDigits 10 n, isBlank c = false := fun c occurs =>
    Text.isBlank_of_isDigit (Nat.isDigit_of_mem_toDigits (by decide) (by decide) occurs)
  have given : (stripEnd (line.text (Nat.toDigits 10 n))).isEmpty = false := by
    rw [line.stripEnd_text solid Nat.toDigits_ne_nil]
    simp
  rw [LengthLine.bytes, digits, next_text (line.oneLine solid), given,
    line.lengthOf?_text solid Nat.toDigits_ne_nil, Digits.word?_toDigits fits]
  rfl

theorem next_empty (crlf : Bool) (length : Option Nat) (rest : List UInt8) :
    next (.header length []) (Text.Utf8.encode (lineEnd crlf) ++ rest) =
      proceed (endHeader length) rest := by
  exact next_text List.not_mem_nil crlf length rest

theorem next_payload {bytes : List UInt8} {left : Nat} (size : bytes.length = left + 1)
    (seen rest : List UInt8) : next (.payload left seen) (bytes ++ rest) =
      (payloadMessage (seen.reverse ++ bytes), rest) := by
  induction bytes generalizing left seen with
  | nil => cases size
  | cons b bytes ih =>
    rw [List.cons_append, next_cons]
    cases left with
    | zero =>
      obtain rfl : bytes = [] := List.length_eq_zero_iff.mp (Nat.succ_inj.mp size)
      rw [step, proceed, List.reverse_cons, List.nil_append]
    | succ left =>
      rw [step, proceed, ih (Nat.succ_inj.mp size), List.reverse_cons, List.append_assoc,
        List.singleton_append]

theorem payloadMessage_bytes (text : String) :
    payloadMessage (Text.bytes text) = .message text := by
  rw [payloadMessage, Text.bytes, Text.Utf8.decode?_encode]
  exact congrArg _ String.ofList_toList

/-- One call reads one frame and leaves the stream where the next begins. -/
theorem call_frame (frame : Frame) (rest : List UInt8) :
    call (frame.bytes ++ rest) = (.message frame.payload.text, rest) := by
  have fits := frame.payload.fits
  have word : (Text.bytes frame.payload.text).length < Word.limit64 :=
    Nat.lt_trans fits (by decide)
  rw [call, Frame.bytes, List.append_assoc, next_others, List.append_assoc, next_length _ word,
    List.append_assoc, next_others, List.append_assoc, next_empty]
  cases size : (Text.bytes frame.payload.text).length with
  | zero =>
    have empty := List.length_eq_zero_iff.mp size
    rw [endHeader, proceed, empty, List.nil_append, ← empty, payloadMessage_bytes]
  | succ left =>
    rw [endHeader, if_pos (size ▸ fits), proceed, next_payload size, List.reverse_nil,
      List.nil_append, payloadMessage_bytes]

theorem calls_frames (frames : List Frame) :
    Calls (frames.flatMap Frame.bytes)
      (frames.map (fun frame => .message frame.payload.text) ++ [.closed]) := by
  induction frames with
  | nil => exact .last (show call [] = (.closed, []) from rfl) trivial
  | cons frame frames ih => exact .message (call_frame frame _) ih

def Frame.plain (payload : Payload) : Frame where
  payload := payload
  earlier := []
  length :=
    { name := lengthName.toList
      named := rfl
      beforeName := { text := [], blank := by simp, oneLine := by simp }
      afterName := { text := [], blank := by simp, oneLine := by simp }
      beforeValue := { text := [' '], blank := List.forall_mem_singleton.mpr rfl, oneLine := by simp }
      afterValue := { text := [], blank := by simp, oneLine := by simp }
      crlf := true }
  later := []
  crlf := true

theorem Frame.plain_bytes (payload : Payload) :
    (Frame.plain payload).bytes = frame payload.text := by
  have ends : ": ".toList = [':', ' '] ∧ "\r\n\r\n".toList = lineEnd true ++ lineEnd true :=
    ⟨rfl, rfl⟩
  simp only [Frame.bytes, Frame.plain, frame, frameBytes, LengthLine.bytes, LengthLine.text,
    Text.bytes, String.toList_append, ends.1, ends.2, List.flatMap_nil, List.nil_append,
    List.append_nil, List.append_assoc, List.cons_append, Text.Utf8.encode_append,
    Text.Utf8.encode_cons]

/-- What was written is read back, message by message, and then the stream is closed, with the
header that is written and with any other that gives the length. -/
theorem frames_read_back :
    (∀ bytes inbound, Calls bytes inbound ↔ inbound = read bytes) ∧
    (∀ (payload : Payload) rest,
      call (frame payload.text ++ rest) = (.message payload.text, rest)) ∧
    (∀ payloads : List Payload, Calls (payloads.flatMap fun payload => frame payload.text)
      (payloads.map (fun payload => .message payload.text) ++ [.closed])) ∧
    (∀ (frame : Frame) rest, call (frame.bytes ++ rest) = (.message frame.payload.text, rest)) ∧
    ∀ frames : List Frame, Calls (frames.flatMap Frame.bytes)
      (frames.map (fun frame => .message frame.payload.text) ++ [.closed]) := by
  refine ⟨fun bytes inbound => ?_, fun payload rest => ?_, fun payloads => ?_, call_frame,
    calls_frames⟩
  · constructor
    · intro calls
      exact calls.unique (calls_read bytes)
    · rintro rfl
      exact calls_read bytes
  · rw [← Frame.plain_bytes, call_frame]
    rfl
  · have calls := calls_frames (payloads.map Frame.plain)
    simp only [List.flatMap_map, List.map_map, Frame.plain_bytes] at calls
    exact calls

example : read (Text.bytes "X-Note: é\ncontent-LENGTH :\t3 \r\n\na\r\n") =
    [.message "a\r\n", .closed] := by
  decide +kernel

end Framing
end DebugAdapter.Transport
