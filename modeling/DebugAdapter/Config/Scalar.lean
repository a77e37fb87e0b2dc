import DebugAdapter.Json.Basic
import DebugAdapter.Number.Digits

/-!
The atoms of TOML documents: strings in their four notations, whole numbers, floating-point
numbers, truth values, dates and times. Readers return what is left of the text.
-/

namespace DebugAdapter.Config.Scalar

abbrev Reader (α : Type) := List Char → Option (α × List Char)

def isPlain (c : Char) : Bool :=
  c = '\t' || (0x20 ≤ c.toNat && c.toNat ≠ 0x7F)

def isHorizontal (c : Char) : Bool :=
  c = ' ' || c = '\t'

def newline? : List Char → Option (List Char)
  | '\n' :: rest => some rest
  | '\r' :: '\n' :: rest => some rest
  | _ => none

def isHex (c : Char) : Bool := (Digits.digit? c).isSome

/-- The character that a code point of exactly `digits` hexadecimal digits names. -/
def codePoint? (digits : Nat) (text : List Char) : Option (Char × List Char) :=
  let head := text.take digits
  let code := Digits.value 16 head
  if head.length = digits ∧ head.all isHex
      ∧ (code < 0xD800 ∨ (0xE000 ≤ code ∧ code < 0x110000)) then
    some (.ofNat code, text.drop digits)
  else none

def escape? : List Char → Option (Char × List Char)
  | 'b' :: rest => some ('\x08', rest)
  | 't' :: rest => some ('\t', rest)
  | 'n' :: rest => some ('\n', rest)
  | 'f' :: rest => some ('\x0c', rest)
  | 'r' :: rest => some ('\r', rest)
  | 'e' :: rest => some ('\x1b', rest)
  | '"' :: rest => some ('"', rest)
  | '\\' :: rest => some ('\\', rest)
  | 'x' :: rest => codePoint? 2 rest
  | 'u' :: rest => codePoint? 4 rest
  | 'U' :: rest => codePoint? 8 rest
  | _ => none

/-- Reads a basic string after its opening quote; `rounds` bounds the characters read. -/
def basic? : Nat → List Char → Reader String
  | 0, _, _ => none
  | rounds + 1, seen, text =>
    match text with
    | '"' :: rest => some (.ofList seen.reverse, rest)
    | '\\' :: rest => do
      let (c, rest) ← escape? rest
      basic? rounds (c :: seen) rest
    | c :: rest => if isPlain c then basic? rounds (c :: seen) rest else none
    | [] => none

def literal? (seen : List Char) : Reader String
  | '\'' :: rest => some (.ofList seen.reverse, rest)
  | c :: rest => if isPlain c then literal? (c :: seen) rest else none
  | [] => none

/-- The quotes that end a text of several lines: three close it, up to two more belong to it. -/
def closing? (quote : Char) (text : List Char) : Option (List Char × List Char) :=
  let count := (text.takeWhile (· = quote)).length
  if count < 3 then none
  else if count ≤ 5 then some (List.replicate (count - 3) quote, text.drop count)
  else some ([quote, quote], text.drop 5)

def skipSpace : List Char → List Char
  | ' ' :: rest | '\t' :: rest | '\n' :: rest | '\r' :: '\n' :: rest => skipSpace rest
  | text => text

/-- What follows a backslash at the end of a line, without the blanks before the next text. -/
def continuation? (text : List Char) : Option (List Char) :=
  (newline? (text.dropWhile isHorizontal)).map skipSpace

/-- Reads a string of several lines after its opening quotes. Line ends are kept as they are
written. -/
def longText? (quote : Char) (escapes : Bool) : Nat → List Char → Reader String
  | 0, _, _ => none
  | rounds + 1, seen, text =>
    match closing? quote text with
    | some (extra, rest) => some (.ofList (seen.reverse ++ extra), rest)
    | none =>
      match text with
      | [] => none
      | '\n' :: rest => longText? quote escapes rounds ('\n' :: seen) rest
      | '\r' :: '\n' :: rest => longText? quote escapes rounds ('\n' :: '\r' :: seen) rest
      | c :: rest =>
        if escapes && c = '\\' then
          match continuation? rest with
          | some rest => longText? quote escapes rounds seen rest
          | none => do
            let (c, rest) ← escape? rest
            longText? quote escapes rounds (c :: seen) rest
        else if isPlain c then longText? quote escapes rounds (c :: seen) rest
        else none

def afterNewline (text : List Char) : List Char :=
  (newline? text).getD text

def string? (text : List Char) : Option (String × List Char) :=
  let rounds := text.length + 1
  match text with
  | '"' :: '"' :: '"' :: rest => longText? '"' true rounds [] (afterNewline rest)
  | '\'' :: '\'' :: '\'' :: rest => longText? '\'' false rounds [] (afterNewline rest)
  | '"' :: rest => basic? rounds [] rest
  | '\'' :: rest => literal? [] rest
  | _ => none

def digits? (isDigit : Char → Bool) : List Char → Option (List Char)
  | [] => none
  | [c] => if isDigit c then some [c] else none
  | c :: '_' :: rest => if isDigit c then (digits? isDigit rest).map (c :: ·) else none
  | c :: rest => if isDigit c then (digits? isDigit rest).map (c :: ·) else none

def isBinary (c : Char) : Bool := c = '0' || c = '1'

def isOctal (c : Char) : Bool := '0' ≤ c && c ≤ '7'

def decimal? (text : List Char) : Option (List Char) := do
  let digits ← digits? Char.isDigit text
  if digits.head? = some '0' ∧ digits.length ≠ 1 then none else return digits

/-- Whole numbers have to fit a signed or an unsigned 64-bit word. -/
def whole? (value : Int) : Option Json :=
  if -(Word.signedLimit64 : Int) ≤ value ∧ value < Word.limit64 then some (.ofInt value) else none

def splitSign : List Char → Bool × Bool × List Char
  | '-' :: rest => (true, true, rest)
  | '+' :: rest => (true, false, rest)
  | text => (false, false, text)

def isExponentMark (c : Char) : Bool := c = 'e' || c = 'E'

def float? (negative : Bool) (text : List Char) : Option Json := do
  let mantissa := text.takeWhile (!isExponentMark ·)
  let power ←
    match text.dropWhile (!isExponentMark ·) with
    | [] => some (0 : Int)
    | _ :: rest =>
      let (_, minus, rest) := splitSign rest
      (digits? Char.isDigit rest).map fun digits =>
        let value := Digits.value 10 digits
        if minus then -value else value
  let whole ← decimal? (mantissa.takeWhile (· ≠ '.'))
  let fraction ←
    match mantissa.dropWhile (· ≠ '.') with
    | [] => some []
    | _ :: rest => digits? Char.isDigit rest
  let digits := Digits.value 10 (whole ++ fraction)
  let exponent := power - fraction.length
  if digits = 0 then return .number (.double (.zero negative))
  else if exponent + (whole.length + fraction.length : Nat) < -400 then
    return .number (.double (.zero negative))
  else if 400 < exponent then none
  else (Double.ofDecimal? negative digits exponent).map fun value => .number (.double value)

def number? (text : List Char) : Option Json :=
  let (signed, negative, rest) := splitSign text
  match signed, rest with
  | _, ['i', 'n', 'f'] | _, ['n', 'a', 'n'] => some .null
  | false, '0' :: 'x' :: digits => (digits? isHex digits).bind fun d => whole? (Digits.value 16 d)
  | false, '0' :: 'o' :: digits => (digits? isOctal digits).bind fun d => whole? (Digits.value 8 d)
  | false, '0' :: 'b' :: digits => (digits? isBinary digits).bind fun d => whole? (Digits.value 2 d)
  | _, _ =>
    match decimal? rest with
    | some digits =>
      let value : Int := Digits.value 10 digits
      whole? (if negative then -value else value)
    | none =>
      if rest.any fun c => isExponentMark c || c = '.' then float? negative rest else none

def fixed? (count : Nat) (text : List Char) : Option (Nat × List Char) :=
  let head := text.take count
  if head.length = count ∧ head.all Char.isDigit then some (Digits.value 10 head, text.drop count)
  else none

def expect? (c : Char) : List Char → Option (List Char)
  | d :: rest => if c = d then some rest else none
  | [] => none

def isLeapYear (year : Nat) : Bool :=
  year % 4 = 0 && (year % 100 ≠ 0 || year % 400 = 0)

def monthLength (year month : Nat) : Nat :=
  if month = 2 then if isLeapYear year then 29 else 28
  else if month = 4 ∨ month = 6 ∨ month = 9 ∨ month = 11 then 30
  else 31

def date? (text : List Char) : Option (List Char) := do
  let (year, rest) ← fixed? 4 text
  let (month, rest) ← fixed? 2 (← expect? '-' rest)
  let (day, rest) ← fixed? 2 (← expect? '-' rest)
  if 1 ≤ month ∧ month ≤ 12 ∧ 1 ≤ day ∧ day ≤ monthLength year month then return rest else none

/-- Seconds and their fraction may be left out. -/
def time? (text : List Char) : Option (List Char) := do
  let (hour, rest) ← fixed? 2 text
  let (minute, rest) ← fixed? 2 (← expect? ':' rest)
  if 23 < hour ∨ 59 < minute then none
  else
    match rest with
    | ':' :: rest =>
      let (second, rest) ← fixed? 2 rest
      if 60 < second then none
      else
        match rest with
        | '.' :: rest =>
          if (rest.takeWhile Char.isDigit).isEmpty then none
          else return rest.dropWhile Char.isDigit
        | rest => return rest
    | rest => return rest

def offset? : List Char → Option (List Char)
  | 'Z' :: rest | 'z' :: rest => some rest
  | c :: rest =>
    if c = '+' ∨ c = '-' then do
      let (hour, rest) ← fixed? 2 rest
      let (minute, rest) ← fixed? 2 (← expect? ':' rest)
      if hour ≤ 23 ∧ minute ≤ 59 then return rest else none
    else none
  | [] => none

def isMoment (text : List Char) : Bool :=
  match date? text with
  | some [] => true
  | some (c :: rest) =>
    (c = 'T' || c = 't' || c = ' ') &&
      match time? rest with
      | some [] => true
      | some rest => offset? rest = some []
      | none => false
  | none => time? text = some []

/-- A moment is an object with its text under a private key. -/
def moment (text : List Char) : Json :=
  .object [("$__toml_private_datetime", .string (.ofList text))]

def isAtomChar (c : Char) : Bool :=
  c.isAlphanum || c = '+' || c = '-' || c = '.' || c = '_' || c = ':'

def isDate (text : List Char) : Bool :=
  date? text = some []

/-- The characters of an atom. A time may follow its date after a single space. -/
def atomChars (text : List Char) : List Char × List Char :=
  let atom := text.takeWhile isAtomChar
  let rest := text.dropWhile isAtomChar
  match rest with
  | ' ' :: d :: more =>
    if isDate atom && d.isDigit then
      (atom ++ ' ' :: (d :: more).takeWhile isAtomChar, (d :: more).dropWhile isAtomChar)
    else (atom, rest)
  | _ => (atom, rest)

def atom? (text : List Char) : Option (Json × List Char) :=
  let (atom, rest) := atomChars text
  match atom with
  | ['t', 'r', 'u', 'e'] => some (.bool true, rest)
  | ['f', 'a', 'l', 's', 'e'] => some (.bool false, rest)
  | _ =>
    if isMoment atom then some (moment atom, rest)
    else (number? atom).map fun value => (value, rest)

end DebugAdapter.Config.Scalar
