import DebugAdapter.Json.Basic
import DebugAdapter.Text.Quoted

/-!
How a JSON value can fail to have the shape a reader expects, and the wording of each failure.
-/

namespace DebugAdapter.Json

/-- What stands where something else was expected. -/
inductive Found where
  | null
  | bool (value : Bool)
  | int (value : Int)
  | double (value : Double)
  | string (value : String)
  | array
  | object
  deriving DecidableEq, Repr

inductive Mismatch where
  | type (found : Found) (expected : String)
  | value (found : Found) (expected : String)
  | length (count : Nat) (expected : String)
  | variant (name : String) (known : List String)
  | missingField (name : String)
  deriving DecidableEq, Repr

def found : Json → Found
  | .null => .null
  | .bool value => .bool value
  | .number (.int value) => .int value
  | .number (.double value) => .double value
  | .string value => .string value
  | .array _ => .array
  | .object _ => .object

def Found.text : Found → String
  | .null => "null"
  | .bool value => "boolean `" ++ (if value then "true" else "false") ++ "`"
  | .int value => "integer `" ++ toString value ++ "`"
  | .double value => "floating point `" ++ value.text ++ "`"
  | .string value => "string " ++ Text.Quoted.encode value
  | .array => "sequence"
  | .object => "map"

/-- Two alternatives are joined by "or"; more are listed. -/
def alternatives : List String → String
  | [] => "there are no variants"
  | [one] => "`" ++ one ++ "`"
  | [one, other] => "`" ++ one ++ "` or `" ++ other ++ "`"
  | many => "one of " ++ ", ".intercalate (many.map fun name => "`" ++ name ++ "`")

def Mismatch.message : Mismatch → String
  | .type found expected => "invalid type: " ++ found.text ++ ", expected " ++ expected
  | .value found expected => "invalid value: " ++ found.text ++ ", expected " ++ expected
  | .length count expected => "invalid length " ++ toString count ++ ", expected " ++ expected
  | .variant name known =>
    "unknown variant `" ++ name ++ "`, expected " ++ alternatives known
  | .missingField name => "missing field `" ++ name ++ "`"

end DebugAdapter.Json
