import DebugAdapter.Path.Mapping

/-!
Configuration in three levels. A later level overrides an earlier one key by key, and an update is
taken over only if the whole that results is valid.
-/

namespace DebugAdapter.Config

inductive Level where
  | defaults
  | launch
  | runtime
  deriving DecidableEq, Repr

structure Levels where
  defaults : Json.Members := []
  launch : Json.Members := []
  runtime : Json.Members := []
  deriving Inhabited

namespace Levels

def get (levels : Levels) : Level → Json.Members
  | .defaults => levels.defaults
  | .launch => levels.launch
  | .runtime => levels.runtime

def set (levels : Levels) (level : Level) (members : Json.Members) : Levels :=
  match level with
  | .defaults => { levels with defaults := members }
  | .launch => { levels with launch := members }
  | .runtime => { levels with runtime := members }

/-- Each key with the value of the latest level that holds it. -/
def merged (levels : Levels) : Json.Members :=
  let overlay (members : Json.Members) (level : Json.Members) :=
    level.foldl (fun members (key, value) => members.insert key value) members
  overlay (overlay (overlay [] levels.defaults) levels.launch) levels.runtime

end Levels

/-- Null removes a key. -/
def updateMembers (members : Json.Members) (update : Json.Members) : Json.Members :=
  update.foldl
    (fun members (key, value) =>
      match value with
      | .null => members.erase key
      | value => members.insert key value)
    members

def exceptionFilterNames : List String := ["error", "caught"]

def checkFilters (filters : List String) : Except Error Unit :=
  match filters.find? (!exceptionFilterNames.contains ·) with
  | some unknown => .error (.exceptionFilter unknown)
  | none => .ok ()

structure Store where
  levels : Levels := {}
  settings : Settings := {}
  mapping : Path.Mapping := {}
  deriving Inhabited

namespace Store

def readSettings (json : Json) : Except Error Settings :=
  (Settings.ofJson json).mapError .invalid

/-- The store that holds the given levels, if they make up a valid whole. -/
def ofLevels (levels : Levels) : Except Error Store := do
  let settings ← readSettings (.object levels.merged)
  checkFilters settings.exceptionFilters
  let mapping ← Path.Mapping.ofSettings settings
  return { levels, settings, mapping }

def apply (store : Store) (level : Level) (update : Json) : Except Error Store :=
  match update with
  | .object update =>
    ofLevels (store.levels.set level (updateMembers (store.levels.get level) update))
  | _ => .error .notAnObject

end Store

end DebugAdapter.Config
