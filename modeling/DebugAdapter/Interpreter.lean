/-!
The interpreter of the debugged program, as it answers while one of its threads is inside a call to
the debugger.
-/

namespace DebugAdapter

inductive InterpreterError where
  | unknownFrame (frame : Nat)
  | unknownReference (reference : Nat)
  | evaluation (text : String)
  | unsupported (operation : String)
  deriving DecidableEq, Repr

def InterpreterError.message : InterpreterError → String
  | .unknownFrame frame => "frame " ++ toString frame ++ " does not exist"
  | .unknownReference reference => "unknown variables reference " ++ toString reference
  | .evaluation text => text
  | .unsupported operation => operation ++ " is not supported"

/-- A frame of the call stack; one without a chunk belongs to native code. -/
structure Frame where
  name : String
  chunk : Option (List UInt8)
  line : Nat
  column : Nat
  deriving DecidableEq, Repr

structure Scope where
  name : String
  reference : Nat
  expensive : Bool
  deriving DecidableEq, Repr

structure Variable where
  name : String
  value : String
  type? : Option String
  reference : Nat
  deriving DecidableEq, Repr

structure Evaluation where
  value : String
  type? : Option String
  reference : Nat
  deriving DecidableEq, Repr

/-- What the interpreter answers during one call. The text of a chunk and the setting of variables
are abilities that it may lack. -/
structure Interpreter where
  chunk : List UInt8
  /-- The call depth; the outermost function is at depth zero. -/
  depth : Nat
  stackFrames : List Frame
  scopes : Nat → Except InterpreterError (List Scope)
  children : Nat → Except InterpreterError (List Variable)
  evaluate : String → Option Nat → Except InterpreterError Evaluation
  setVariable : Option (Nat → String → String → Except InterpreterError Variable) := none
  chunkCode : Option (List UInt8 → Option (List UInt8)) := none

inductive Callback where
  | stackFrames
  | scopes (frame : Nat)
  | children (reference : Nat)
  | setVariable (reference : Nat) (name value : String)
  | evaluate (expression : String) (frame : Option Nat)
  | chunkCode (chunk : List UInt8)
  deriving DecidableEq, Repr

namespace Interpreter

/-- A condition holds unless its value is one of the two false ones. -/
def isTrue (evaluation : Evaluation) : Bool :=
  evaluation.value ≠ "nil" && evaluation.value ≠ "false"

def condition (interpreter : Interpreter) (expression : String) : Except InterpreterError Bool :=
  (interpreter.evaluate expression (some 0)).map isTrue

end Interpreter

end DebugAdapter
