import DebugAdapter.Json.Basic
import DebugAdapter.Number.Digits

/-!
JSON text. Reading has three stages on lists: characters to tokens, tokens to a tree of literals
by a stack of open brackets, and literals to values. Only the last stage looks at the range of
numbers, at surrogates and at the depth of nesting, so a part of a text that nobody reads is
checked for its grammar alone.
-/

namespace DebugAdapter.Json

/-- A character of a string, or one 16-bit unit written as an escape. -/
inductive Piece where
  | char (c : Char)
  | unit (code : Nat)
  deriving DecidableEq, Repr

structure Numeral where
  negative : Bool
  whole : List Char
  fraction : Option (List Char)
  exponent : Option (Bool × List Char)
  deriving DecidableEq, Repr

inductive Literal where
  | null
  | bool (value : Bool)
  | number (numeral : Numeral)
  | string (pieces : List Piece)
  | array (items : List Literal)
  | object (members : List (List Piece × Literal))
  deriving Inhabited

inductive Token where
  | openArray
  | closeArray
  | openObject
  | closeObject
  | colon
  | comma
  | word (literal : Literal)
  | text (pieces : List Piece)

namespace Numeral

/-- A digit string without a leading zero, unless it is the zero alone. -/
def isWhole : List Char → Bool
  | [] => false
  | ['0'] => true
  | c :: rest => c ≠ '0' && (c :: rest).all Char.isDigit

def ofUnsigned? (negative : Bool) (text : List Char) : Option Numeral :=
  let whole := text.takeWhile Char.isDigit
  let rest := text.dropWhile Char.isDigit
  if !isWhole whole then none
  else
    let withExponent (fraction : Option (List Char)) : List Char → Option Numeral
      | [] => some ⟨negative, whole, fraction, none⟩
      | e :: rest =>
        if e = 'e' ∨ e = 'E' then
          let (minus, digits) :=
            match rest with
            | '-' :: digits => (true, digits)
            | '+' :: digits => (false, digits)
            | digits => (false, digits)
          if digits.isEmpty || !digits.all Char.isDigit then none
          else some ⟨negative, whole, fraction, some (minus, digits)⟩
        else none
    match rest with
    | '.' :: rest =>
      let fraction := rest.takeWhile Char.isDigit
      if fraction.isEmpty then none
      else withExponent (some fraction) (rest.dropWhile Char.isDigit)
    | rest => withExponent none rest

def ofChars? : List Char → Option Numeral
  | '-' :: rest => ofUnsigned? true rest
  | text => ofUnsigned? false text

end Numeral

/-- What the reader of tokens is inside of; collected characters are in reverse. -/
inductive LexState where
  | ground
  | numeral (seen : List Char)
  | word (seen : List Char)
  | string (seen : List Piece)
  | escape (seen : List Piece)
  | unicode (seen : List Piece) (left value : Nat)

def isNumeralChar (c : Char) : Bool :=
  c.isDigit || c = '-' || c = '+' || c = '.' || c = 'e' || c = 'E'

def escaped? : Char → Option Char
  | '"' => some '"'
  | '\\' => some '\\'
  | '/' => some '/'
  | 'b' => some '\x08'
  | 'f' => some '\x0c'
  | 'n' => some '\n'
  | 'r' => some '\r'
  | 't' => some '\t'
  | _ => none

def lexGround (c : Char) : Option (List Token × LexState) :=
  match c with
  | '[' => some ([.openArray], .ground)
  | ']' => some ([.closeArray], .ground)
  | '{' => some ([.openObject], .ground)
  | '}' => some ([.closeObject], .ground)
  | ':' => some ([.colon], .ground)
  | ',' => some ([.comma], .ground)
  | '"' => some ([], .string [])
  | _ =>
    if c = ' ' ∨ c = '\n' ∨ c = '\t' ∨ c = '\r' then some ([], .ground)
    else if c = '-' ∨ c.isDigit then some ([], .numeral [c])
    else if c.isAlpha then some ([], .word [c])
    else none

def numeralToken? (seen : List Char) : Option Token :=
  (Numeral.ofChars? seen.reverse).map fun numeral => .word (.number numeral)

def wordToken? (seen : List Char) : Option Token :=
  match String.ofList seen.reverse with
  | "null" => some (.word .null)
  | "true" => some (.word (.bool true))
  | "false" => some (.word (.bool false))
  | _ => none

def lexStep : LexState → Char → Option (List Token × LexState)
  | .ground, c => lexGround c
  | .numeral seen, c =>
    if isNumeralChar c then some ([], .numeral (c :: seen))
    else do
      let token ← numeralToken? seen
      let (tokens, state) ← lexGround c
      return (token :: tokens, state)
  | .word seen, c =>
    if c.isAlpha then some ([], .word (c :: seen))
    else do
      let token ← wordToken? seen
      let (tokens, state) ← lexGround c
      return (token :: tokens, state)
  | .string seen, c =>
    if c = '"' then some ([.text seen.reverse], .ground)
    else if c = '\\' then some ([], .escape seen)
    else if c.toNat < 0x20 then none
    else some ([], .string (.char c :: seen))
  | .escape seen, c =>
    if c = 'u' then some ([], .unicode seen 4 0)
    else (escaped? c).map fun plain => ([], .string (.char plain :: seen))
  | .unicode seen left value, c =>
    (Digits.digit? c).map fun digit =>
      let value := value * 16 + digit
      ([], if left ≤ 1 then .string (.unit value :: seen) else .unicode seen (left - 1) value)

def lexFinish? : LexState → Option (List Token)
  | .ground => some []
  | .numeral seen => (numeralToken? seen).map fun token => [token]
  | .word seen => (wordToken? seen).map fun token => [token]
  | _ => none

def lex? : LexState → List Char → Option (List Token)
  | state, [] => lexFinish? state
  | state, c :: rest => do
    let (tokens, next) ← lexStep state c
    let more ← lex? next rest
    return tokens ++ more

inductive Bracket where
  | array (items : List Literal)
  | object (members : List (List Piece × Literal)) (key : List Piece)

inductive Awaiting where
  | value (mayClose : Bool)
  | key (members : List (List Piece × Literal)) (mayClose : Bool)
  | colon (members : List (List Piece × Literal)) (key : List Piece)
  | separator (value : Literal)

structure TreeState where
  stack : List Bracket
  awaiting : Awaiting

def treeStep? (state : TreeState) (token : Token) : Option TreeState :=
  match state.awaiting, token, state.stack with
  | .value _, .openArray, stack => some ⟨.array [] :: stack, .value true⟩
  | .value _, .openObject, stack => some ⟨stack, .key [] true⟩
  | .value _, .word literal, stack => some ⟨stack, .separator literal⟩
  | .value _, .text pieces, stack => some ⟨stack, .separator (.string pieces)⟩
  | .value true, .closeArray, .array _ :: stack => some ⟨stack, .separator (.array [])⟩
  | .key members _, .text key, stack => some ⟨stack, .colon members key⟩
  | .key _ true, .closeObject, stack => some ⟨stack, .separator (.object [])⟩
  | .colon members key, .colon, stack => some ⟨.object members key :: stack, .value false⟩
  | .separator value, .comma, .array items :: stack =>
    some ⟨.array (value :: items) :: stack, .value false⟩
  | .separator value, .closeArray, .array items :: stack =>
    some ⟨stack, .separator (.array (value :: items).reverse)⟩
  | .separator value, .comma, .object members key :: stack =>
    some ⟨stack, .key ((key, value) :: members) false⟩
  | .separator value, .closeObject, .object members key :: stack =>
    some ⟨stack, .separator (.object ((key, value) :: members).reverse)⟩
  | _, _, _ => none

def Literal.ofTokens? (tokens : List Token) : Option Literal := do
  let state ← tokens.foldlM treeStep? ⟨[], .value false⟩
  match state with
  | ⟨[], .separator value⟩ => return value
  | _ => none

def Literal.ofText? (text : String) : Option Literal := do
  let tokens ← lex? .ground text.toList
  Literal.ofTokens? tokens

/-- Joins pairs of surrogate units; a unit without its partner has no text. -/
def piecesText? : List Piece → Option (List Char)
  | [] => some []
  | .char c :: rest => (piecesText? rest).map (c :: ·)
  | .unit code :: rest =>
    if code < 0xD800 ∨ 0xE000 ≤ code then (piecesText? rest).map (Char.ofNat code :: ·)
    else if 0xDC00 ≤ code then none
    else
      match rest with
      | .unit low :: rest =>
        if 0xDC00 ≤ low ∧ low < 0xE000 then
          (piecesText? rest).map
            (Char.ofNat (0x10000 + (code - 0xD800) * 0x400 + (low - 0xDC00)) :: ·)
        else none
      | _ => none

/-- Appends digits to a number while it stays below 2 ^ 64; the digits left over are returned. -/
def takeDigits (n : Nat) : List Char → Nat × List Char
  | [] => (n, [])
  | c :: rest =>
    let next := n * 10 + (c.toNat - 48)
    if next < Word.limit64 then takeDigits next rest else (n, c :: rest)

def powerOfTen (n : Nat) : Double :=
  (Double.ofDecimal? false 1 n).getD (.zero false)

/-- Divides by 10 ^ 308 until the exponent left is above -309; a significand below 2 ^ 64 is zero
after three such steps. -/
def scaleDown (x : Double) (exponent : Int) : Nat → Option Double
  | 0 => some (.zero x.negative)
  | steps + 1 =>
    if x.mantissa = 0 then some x
    else if -308 ≤ exponent then x.over? (powerOfTen (-exponent).toNat)
    else do scaleDown (← x.over? (powerOfTen 308)) (exponent + 308) steps

/-- The significand as a double, multiplied or divided by the double of the power of ten: two
roundings. Nothing if it leaves the finite range. -/
def doubleOfParts? (negative : Bool) (significand : Nat) (exponent : Int) : Option Double := do
  let x ← Double.ofDecimal? negative significand 0
  if x.mantissa = 0 then return x
  else if exponent < 0 then scaleDown x exponent 4
  else if exponent ≤ 308 then x.times? (powerOfTen exponent.toNat)
  else none

/-- Exponents from here on are past every double. -/
def exponentLimit : Nat := 0x80000000

def Numeral.double? (numeral : Numeral) (significand : Nat) (skipped : Nat) : Option Double :=
  let (significand, exponent) :=
    match numeral.fraction with
    | none => (significand, (skipped : Int))
    | some digits =>
      let (next, rest) := takeDigits significand digits
      (next, (skipped : Int) - (digits.length - rest.length : Nat))
  match numeral.exponent with
  | none => doubleOfParts? numeral.negative significand exponent
  | some (minus, digits) =>
    let power := Digits.value 10 digits
    if exponentLimit ≤ power then
      if significand ≠ 0 ∧ !minus then none else some (.zero numeral.negative)
    else
      doubleOfParts? numeral.negative significand
        (if minus then exponent - power else exponent + power)

/-- Whole numbers that fit a signed or an unsigned 64-bit word stay whole; minus zero does not. -/
def Numeral.value? (numeral : Numeral) : Option Number :=
  let (significand, rest) := takeDigits 0 numeral.whole
  let isWhole := rest.isEmpty && numeral.fraction.isNone && numeral.exponent.isNone
  if isWhole && !numeral.negative then some (.int significand)
  else if isWhole && significand ≠ 0 && significand ≤ Word.signedLimit64 then some (.int (-significand))
  else (numeral.double? significand rest.length).map .double

mutual

/-- The value of a literal whose brackets nest at most `depth` deep. -/
def Literal.value? (depth : Nat) : Literal → Option Json
  | .null => some .null
  | .bool value => some (.bool value)
  | .number numeral => numeral.value?.map .number
  | .string pieces => (piecesText? pieces).map fun text => .string (.ofList text)
  | .array items =>
    match depth with
    | 0 => none
    | depth + 1 => (Literal.items? depth items).map .array
  | .object members =>
    match depth with
    | 0 => none
    | depth + 1 => (Literal.members? depth members).map Json.ofMembers

def Literal.items? (depth : Nat) : List Literal → Option (List Json)
  | [] => some []
  | item :: rest => do
    let value ← Literal.value? depth item
    return value :: (← Literal.items? depth rest)

def Literal.members? (depth : Nat) : List (List Piece × Literal) → Option (List (String × Json))
  | [] => some []
  | (key, literal) :: rest => do
    let key ← piecesText? key
    let value ← Literal.value? depth literal
    return (.ofList key, value) :: (← Literal.members? depth rest)

end

def maxDepth : Nat := 127

def ofText? (text : String) : Option Json := do
  Literal.value? maxDepth (← Literal.ofText? text)

def hexChar (n : Nat) : Char :=
  (Nat.toDigits 16 n).headD '0'

def escapeChar (c : Char) : List Char :=
  if c = '"' then ['\\', '"']
  else if c = '\\' then ['\\', '\\']
  else if c = '\n' then ['\\', 'n']
  else if c = '\r' then ['\\', 'r']
  else if c = '\t' then ['\\', 't']
  else if c = '\x08' then ['\\', 'b']
  else if c = '\x0c' then ['\\', 'f']
  else if c.toNat < 0x20 then
    ['\\', 'u', '0', '0', hexChar (c.toNat / 16), hexChar (c.toNat % 16)]
  else [c]

def quote (text : String) : List Char :=
  '"' :: text.toList.flatMap escapeChar ++ ['"']

def Number.text : Number → List Char
  | .int value => (toString value).toList
  | .double value => value.text.toList

mutual

def chars : Json → List Char
  | .null => ['n', 'u', 'l', 'l']
  | .bool true => ['t', 'r', 'u', 'e']
  | .bool false => ['f', 'a', 'l', 's', 'e']
  | .number value => Number.text value
  | .string value => quote value
  | .array items => '[' :: itemChars items ++ [']']
  | .object members => '{' :: memberChars members ++ ['}']

def itemChars : List Json → List Char
  | [] => []
  | [item] => chars item
  | item :: rest => chars item ++ ',' :: itemChars rest

def memberChars : List (String × Json) → List Char
  | [] => []
  | [(key, value)] => quote key ++ ':' :: chars value
  | (key, value) :: rest => quote key ++ ':' :: chars value ++ ',' :: memberChars rest

end

def text (json : Json) : String :=
  .ofList (chars json)

end DebugAdapter.Json
