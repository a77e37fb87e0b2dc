import DebugAdapter.Json.Mismatch
import DebugAdapter.Number.Word

/-!
Readers of JSON values. A record is read from an object, whose members are visited in ascending
order of their keys, or from an array that holds its fields in the order of their declaration.
-/

namespace DebugAdapter.Json

abbrev Reader (α : Type) := Json → Except Mismatch α

def expected (what : String) (json : Json) : Except Mismatch α :=
  .error (.type json.found what)

def readJson : Reader Json := .ok

def readString : Reader String
  | .string value => .ok value
  | json => expected "a string" json

def readBool : Reader Bool
  | .bool value => .ok value
  | json => expected "a boolean" json

def readUnit : Reader Unit
  | .null => .ok ()
  | json => expected "unit" json

/-- A whole number from `low` up to, not including, `limit`; `kind` names the range. -/
def readInt (kind : String) (low limit : Int) : Reader Int
  | .number (.int value) =>
    if low ≤ value ∧ value < limit then .ok value else .error (.value (.int value) kind)
  | json => expected kind json

def readU32 : Reader Nat := fun json => (readInt "u32" 0 Word.limit32 json).map Int.toNat

/-- Null stands for an absent value. -/
def readOption (read : Reader α) : Reader (Option α)
  | .null => .ok none
  | json => (read json).map some

def readList (read : Reader α) : Reader (List α)
  | .array items => items.mapM read
  | json => expected "a sequence" json

def noMore (total : Nat) (rest : List Json) : Except Mismatch Unit :=
  if rest.isEmpty then .ok () else .error (.length total "fewer elements in array")

def readPair (first : Reader α) (second : Reader β) : Reader (α × β)
  | .array items =>
    match items with
    | [] => .error (.length 0 "a tuple of size 2")
    | a :: rest => do
      let a ← first a
      match rest with
      | [] => .error (.length 1 "a tuple of size 2")
      | b :: rest =>
        let b ← second b
        noMore items.length rest
        return (a, b)
  | json => expected "a tuple of size 2" json

/-- A constant given by one of its names. An object with the name as its only key and null as the
value is read as well. -/
def readName (names : List (String × α)) (known : List String) : Reader α :=
  let find (name : String) : Except Mismatch α :=
    match names.lookup name with
    | some a => .ok a
    | none => .error (.variant name known)
  fun
    | .string name => find name
    | .object [(name, value)] => do
      let a ← find name
      readUnit value
      return a
    | .object _ => .error (.value .object "map with a single key")
    | json => expected "string or map" json

/-- One field of a record `σ`: how to set it, and whether it may be left out of an object or off
the end of an array. -/
structure Field (σ : Type) where
  name : String
  set : σ → Json → Except Mismatch σ
  optional : Bool
  optionalInArray : Bool

def Field.required (name : String) (read : Reader α) (set : σ → α → σ) : Field σ :=
  ⟨name, fun s json => (read json).map (set s), false, false⟩

/-- A field that keeps its first value when it is absent from an object. -/
def Field.option (name : String) (read : Reader α) (set : σ → Option α → σ) : Field σ :=
  ⟨name, fun s json => (readOption read json).map (set s), true, false⟩

/-- A field that keeps its first value when it is absent. -/
def Field.default (name : String) (read : Reader α) (set : σ → α → σ) : Field σ :=
  ⟨name, fun s json => (read json).map (set s), true, true⟩

structure Record (σ : Type) where
  /-- The word for the record in an error text. -/
  title : String
  start : σ
  fields : List (Field σ)

namespace Record

def countText (n : Nat) : String :=
  toString n ++ if n = 1 then " element" else " elements"

def setMember (record : Record σ) (s : σ) (key : String) (value : Json) : Except Mismatch σ :=
  match record.fields.find? (·.name = key) with
  | some field => field.set s value
  | none => .ok s

def readMembers (record : Record σ) (members : Members) : Except Mismatch σ := do
  let s ← members.foldlM (fun s (key, value) => record.setMember s key value) record.start
  match record.fields.find? fun f => !f.optional && (Members.find? f.name members).isNone with
  | some field => .error (.missingField field.name)
  | none => return s

def readItems (record : Record σ) (total : Nat) :
    List (Field σ) → Nat → σ → List Json → Except Mismatch σ
  | [], _, s, rest => do
    noMore total rest
    return s
  | field :: fields, n, s, [] =>
    if field.optionalInArray then readItems record total fields (n + 1) s []
    else .error (.length n (record.title ++ " with " ++ countText record.fields.length))
  | field :: fields, n, s, item :: rest => do
    let s ← field.set s item
    readItems record total fields (n + 1) s rest

def read (record : Record σ) : Reader σ
  | .object members => record.readMembers members
  | .array items => record.readItems items.length record.fields 0 record.start items
  | json => expected record.title json

end Record

end DebugAdapter.Json
