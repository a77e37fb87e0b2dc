import DebugAdapter.Number.Double

/-!
JSON values. The members of an object are kept in ascending order of their keys, each key once.
-/

namespace DebugAdapter

inductive Number where
  | int (value : Int)
  | double (value : Double)
  deriving DecidableEq, Repr, Inhabited

inductive Json where
  | null
  | bool (value : Bool)
  | number (value : Number)
  | string (value : String)
  | array (items : List Json)
  | object (members : List (String × Json))
  deriving Inhabited

namespace Json

/-- Members in ascending key order. -/
abbrev Members := List (String × Json)

namespace Members

/-- Sets a key; a later value replaces an earlier one. -/
def insert (key : String) (value : Json) : Members → Members
  | [] => [(key, value)]
  | (k, v) :: rest =>
    if key = k then (key, value) :: rest
    else if key < k then (key, value) :: (k, v) :: rest
    else (k, v) :: insert key value rest

def find? (key : String) (members : Members) : Option Json :=
  (List.find? (fun member => member.1 = key) members).map (·.2)

def erase (key : String) (members : Members) : Members :=
  members.filter (·.1 ≠ key)

/-- Members given in any order; of equal keys the last counts. -/
def ofList (pairs : List (String × Json)) : Members :=
  pairs.foldl (fun members (key, value) => insert key value members) []

end Members

def ofMembers (pairs : List (String × Json)) : Json :=
  .object (Members.ofList pairs)

def ofNat (n : Nat) : Json := .number (.int n)

def ofInt (n : Int) : Json := .number (.int n)

def ofOption (f : α → Json) : Option α → Json
  | none => .null
  | some a => f a

def ofList (f : α → Json) (items : List α) : Json := .array (items.map f)

/-- A member that is written only when it has a value. -/
def member? (key : String) (f : α → Json) : Option α → List (String × Json)
  | none => []
  | some a => [(key, f a)]

def get? (key : String) : Json → Option Json
  | .object members => Members.find? key members
  | _ => none

end Json

end DebugAdapter
