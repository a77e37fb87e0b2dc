import DebugAdapter.Text.Blank

/-!
Log messages: texts with expressions in braces. A brace that is text is written twice; a closing
brace may also stand alone.
-/

namespace DebugAdapter.Breakpoint

inductive Fragment where
  | text (text : String)
  | expr (expression : String)
  deriving DecidableEq, Repr

inductive LogMessageFault where
  | unterminated
  | emptyExpression
  deriving DecidableEq, Repr

def LogMessageFault.message : LogMessageFault → String
  | .unterminated => "unterminated '\x7b' in log message"
  | .emptyExpression => "empty log expression"

namespace LogMessage

/-- The text before a brace or the end, unless it is empty; it is held in reverse. -/
def textFragment (literal : List Char) : List Fragment :=
  if literal.isEmpty then [] else [.text (.ofList literal.reverse)]

def closeExpression (expr : List Char) : Except LogMessageFault Fragment :=
  let expression := Text.trim expr.reverse
  if expression.isEmpty then .error .emptyExpression else .ok (.expr (.ofList expression))

/-- Reads a template. The first argument is the text read since the last fragment and the second
the part of an expression that is read, both in reverse. -/
def parseFrom : List Char → Option (List Char) → List Char → Except LogMessageFault (List Fragment)
  | literal, none, [] => .ok (textFragment literal)
  | literal, none, '{' :: '{' :: rest => parseFrom ('{' :: literal) none rest
  | literal, none, '{' :: rest =>
    (parseFrom [] (some []) rest).map (textFragment literal ++ ·)
  | literal, none, '}' :: '}' :: rest => parseFrom ('}' :: literal) none rest
  | literal, none, '}' :: rest => parseFrom ('}' :: literal) none rest
  | literal, none, c :: rest => parseFrom (c :: literal) none rest
  | _, some _, [] => .error .unterminated
  | _, some expr, '}' :: rest => do
    let fragment ← closeExpression expr
    return fragment :: (← parseFrom [] none rest)
  | literal, some expr, c :: rest => parseFrom literal (some (c :: expr)) rest

def parse (template : String) : Except LogMessageFault (List Fragment) :=
  parseFrom [] none template.toList

end LogMessage

end DebugAdapter.Breakpoint
