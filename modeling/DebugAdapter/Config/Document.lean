import DebugAdapter.Config.Scalar
import DebugAdapter.Config.Store

/-!
Configuration documents in TOML. A document is read statement by statement into a tree of tables
that remembers how each table came about, because that decides which later statements may add to
it; the tree is then an object of JSON.
-/

namespace DebugAdapter.Config.Document

open Scalar

/-- How a table came about: on the way to another one, by a header of its own, or by a key with
dots. -/
inductive Origin where
  | implied
  | header
  | dotted
  deriving DecidableEq, Repr

inductive Node where
  | value (json : Json)
  | table (origin : Origin) (members : List (String × Node))
  | tables (items : List (List (String × Node)))
  deriving Inhabited

abbrev Table := List (String × Node)

abbrev Keys := List String

namespace Table

def find? (key : String) (table : Table) : Option Node :=
  List.lookup key table

def set (key : String) (node : Node) : Table → Table
  | [] => [(key, node)]
  | (k, n) :: rest => if k = key then (k, node) :: rest else (k, n) :: set key node rest

/-- Changes the table at the end of a header's path; a list of tables stands for its last one. -/
def descend? (change : Table → Option Table) : Keys → Table → Option Table
  | [], table => change table
  | key :: keys, table =>
    match find? key table with
    | none => (descend? change keys []).map fun inner => set key (.table .implied inner) table
    | some (.table origin inner) =>
      (descend? change keys inner).map fun inner => set key (.table origin inner) table
    | some (.tables items) =>
      match items.reverse with
      | [] => none
      | last :: before =>
        (descend? change keys last).map fun inner =>
          set key (.tables (before.reverse ++ [inner])) table
    | some (.value _) => none

/-- Sets a value under a key with dots. Tables on its way that have a header of their own are
closed, and the others come from such keys from then on. A list of tables stands for its last one,
which takes no value itself. -/
def assign? (value : Json) : Keys → Table → Option Table
  | [], _ => none
  | [key], table =>
    match find? key table with
    | none => some (set key (.value value) table)
    | some _ => none
  | key :: keys, table =>
    match find? key table with
    | none => (assign? value keys []).map fun inner => set key (.table .dotted inner) table
    | some (.table origin inner) =>
      if origin = .header then none
      else (assign? value keys inner).map fun inner => set key (.table .dotted inner) table
    | some (.tables items) =>
      match items.reverse with
      | [] => none
      | last :: before =>
        if keys.length = 1 then none
        else
          (assign? value keys last).map fun inner =>
            set key (.tables (before.reverse ++ [inner])) table
    | some (.value _) => none

def openTable? (key : String) (table : Table) : Option Table :=
  match find? key table with
  | none => some (set key (.table .header []) table)
  | some (.table .implied inner) => some (set key (.table .header inner) table)
  | some _ => none

/-- A header in double brackets adds one more table to a list. -/
def appendTable? (key : String) (table : Table) : Option Table :=
  match find? key table with
  | none => some (set key (.tables [[]]) table)
  | some (.tables items) => some (set key (.tables (items ++ [[]])) table)
  | some _ => none

end Table

mutual

def Node.json : Node → Json
  | .value json => json
  | .table _ members => .ofMembers (membersJson members)
  | .tables items => .array (tablesJson items)

def membersJson : List (String × Node) → List (String × Json)
  | [] => []
  | (key, node) :: rest => (key, node.json) :: membersJson rest

def tablesJson : List (List (String × Node)) → List Json
  | [] => []
  | members :: rest => .ofMembers (membersJson members) :: tablesJson rest

end

def skipBlanks (text : List Char) : List Char :=
  text.dropWhile isHorizontal

def skipComment? : List Char → Option (List Char)
  | '#' :: rest =>
    match rest.dropWhile isPlain with
    | [] => some []
    | after => if (newline? after).isSome then some after else none
  | text => some text

def endLine? (text : List Char) : Option (List Char) := do
  let rest ← skipComment? (skipBlanks text)
  if rest.isEmpty then return [] else newline? rest

/-- Removes blanks, comments and line ends; `rounds` bounds the lines. -/
def skipLines? : Nat → List Char → Option (List Char)
  | 0, _ => none
  | rounds + 1, text => do
    let rest ← skipComment? (skipBlanks text)
    match newline? rest with
    | some rest => skipLines? rounds rest
    | none => return rest

def isBareKeyChar (c : Char) : Bool :=
  c.isAlphanum || c = '_' || c = '-'

def simpleKey? (text : List Char) : Option (String × List Char) :=
  match text with
  | '"' :: rest => basic? (text.length + 1) [] rest
  | '\'' :: rest => literal? [] rest
  | _ =>
    let key := text.takeWhile isBareKeyChar
    if key.isEmpty then none else some (.ofList key, text.dropWhile isBareKeyChar)

def maxKeys : Nat := 80

def keys? : Nat → List Char → Option (Keys × List Char)
  | 0, _ => none
  | rounds + 1, text => do
    let (key, rest) ← simpleKey? (skipBlanks text)
    match skipBlanks rest with
    | '.' :: rest =>
      let (keys, rest) ← keys? rounds rest
      return (key :: keys, rest)
    | rest => return ([key], rest)

def maxNesting : Nat := 80

mutual

/-- Reads a value; every call consumes one of the `rounds`, which a longer text has more of than
it needs. -/
def value? (rounds depth : Nat) (text : List Char) : Option (Json × List Char) :=
  match rounds with
  | 0 => none
  | rounds + 1 =>
    match text with
    | '"' :: _ | '\'' :: _ => (string? text).map fun (value, rest) => (.string value, rest)
    | '[' :: rest =>
      if maxNesting ≤ depth then none
      else (items? rounds (depth + 1) [] rest).map fun (items, rest) => (.array items, rest)
    | '{' :: rest =>
      if maxNesting ≤ depth then none
      else
        (members? rounds (depth + 1) [] rest).map fun (table, rest) =>
          ((Node.table .header table).json, rest)
    | _ => atom? text

/-- Reads the items of an array up to its closing bracket; `seen` holds them in reverse. -/
def items? (rounds depth : Nat) (seen : List Json) (text : List Char) :
    Option (List Json × List Char) :=
  match rounds with
  | 0 => none
  | rounds + 1 => do
    match ← skipLines? (text.length + 1) text with
    | ']' :: rest => return (seen.reverse, rest)
    | text =>
      let (item, rest) ← value? rounds depth text
      match ← skipLines? (rest.length + 1) rest with
      | ',' :: rest => items? rounds depth (item :: seen) rest
      | ']' :: rest => return ((item :: seen).reverse, rest)
      | _ => none

def members? (rounds depth : Nat) (table : Table) (text : List Char) :
    Option (Table × List Char) :=
  match rounds with
  | 0 => none
  | rounds + 1 => do
    match ← skipLines? (text.length + 1) text with
    | '}' :: rest => return (table, rest)
    | text =>
      let (keys, rest) ← keys? maxKeys text
      match ← skipLines? (rest.length + 1) rest with
      | '=' :: rest =>
        let (value, rest) ← value? rounds depth (← skipLines? (rest.length + 1) rest)
        let table ← Table.assign? value keys table
        match ← skipLines? (rest.length + 1) rest with
        | ',' :: rest => members? rounds depth table rest
        | '}' :: rest => return (table, rest)
        | _ => none
      | _ => none

end

inductive Statement where
  | assign (keys : Keys) (value : Json)
  | open_ (keys : Keys)
  | append (keys : Keys)

def header? (text : List Char) : Option (Statement × List Char) :=
  match text with
  | '[' :: '[' :: rest => do
    let (keys, rest) ← keys? maxKeys rest
    match rest with
    | ']' :: ']' :: rest => return (.append keys, rest)
    | _ => none
  | '[' :: rest => do
    let (keys, rest) ← keys? maxKeys rest
    match rest with
    | ']' :: rest => return (.open_ keys, rest)
    | _ => none
  | _ => none

def statement? (text : List Char) : Option (Statement × List Char) :=
  match text with
  | '[' :: _ => header? text
  | _ => do
    let (keys, rest) ← keys? maxKeys text
    match rest with
    | '=' :: rest =>
      let rest := skipBlanks rest
      let (value, rest) ← value? (2 * rest.length + 2) 0 rest
      return (.assign keys value, rest)
    | _ => none

def statements? : Nat → List Char → Option (List Statement)
  | 0, _ => none
  | rounds + 1, text => do
    let text ← skipLines? (text.length + 1) text
    if text.isEmpty then return []
    else
      let (statement, rest) ← statement? text
      let rest ← endLine? rest
      return statement :: (← statements? rounds rest)

/-- The tables read so far and the path of the one that is open. -/
structure Draft where
  root : Table := []
  current : Keys := []

def Draft.add? (draft : Draft) : Statement → Option Draft
  | .assign keys value =>
    (Table.descend? (Table.assign? value keys) draft.current draft.root).map fun root =>
      { draft with root }
  | .open_ keys =>
    (Table.descend? (Table.openTable? (keys.getLastD "")) keys.dropLast draft.root).map
      fun root => { root, current := keys }
  | .append keys =>
    (Table.descend? (Table.appendTable? (keys.getLastD "")) keys.dropLast draft.root).map
      fun root => { root, current := keys }

def skipMark : List Char → List Char
  | '\uFEFF' :: rest => rest
  | text => text

def read? (text : String) : Option Json := do
  let chars := skipMark text.toList
  let statements ← statements? (chars.length + 1) chars
  let draft ← statements.foldlM Draft.add? {}
  return (Node.table .header draft.root).json

end DebugAdapter.Config.Document

namespace DebugAdapter.Config

namespace Store

def applyDocument (store : Store) (level : Level) (text : String) : Except Error Store :=
  match Document.read? text with
  | some update => store.apply level update
  | none => .error .document

/-- Takes what reading a file gave as the defaults. -/
def loadDefaults (store : Store) (path : String) :
    Except ReadFault (List UInt8) → Except Error Store
  | .error fault => .error (.unreadable path fault)
  | .ok content =>
    match Text.Utf8.decode? content with
    | none => .error (.unreadable path .notText)
    | some text => store.applyDocument .defaults (.ofList text)

end Store

end DebugAdapter.Config
