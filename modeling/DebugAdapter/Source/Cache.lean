import DebugAdapter.Source.Basic
import DebugAdapter.Path.Mapping

/-!
The sources seen so far. Each chunk name is resolved once, to a file of the client or to a text
that is served under a reference.
-/

namespace DebugAdapter.Source

inductive Origin where
  | file (server client : String) (skipped : Bool)
  | virtual (name code : String)
  deriving DecidableEq, Repr

def Origin.file? (mapping : Path.Mapping) (chunk : List UInt8) : Option Origin := do
  let server ← mapping.sourceToServer chunk
  let client := mapping.serverToClient server
  return .file server client (mapping.isSkipped server client)

structure Resolved where
  source : Source
  /-- Names the source in the table of breakpoints. -/
  key : String
  skipped : Bool
  server : Option String
  deriving DecidableEq, Repr

def fileName (path : String) : String :=
  .ofList ((Text.split '/' path.toList).getLastD [])

def Resolved.ofFile (server client : String) (skipped : Bool) : Resolved where
  source := { name := some (fileName client), path := some client }
  key := Path.key client
  skipped
  server := some server

def referenceKey (reference : Nat) : String :=
  "ref:" ++ toString reference

def Resolved.ofReference (name : String) (reference : Nat) : Resolved where
  source := { name := some name, sourceReference := some reference }
  key := referenceKey reference
  skipped := false
  server := none

structure Cache where
  chunks : List (List UInt8 × Resolved) := []
  /-- The keys that the client has been told of. -/
  keys : List String := []
  contents : List (Nat × String) := []
  lastReference : Nat := 0
  deriving DecidableEq, Repr, Inhabited

namespace Cache

def find? (cache : Cache) (chunk : List UInt8) : Option Resolved :=
  cache.chunks.lookup chunk

def addKey (cache : Cache) (key : String) : Cache :=
  if cache.keys.contains key then cache else { cache with keys := cache.keys ++ [key] }

def add (cache : Cache) (chunk : List UInt8) (resolved : Resolved) : Cache × Resolved × Bool :=
  let created := !cache.keys.contains resolved.key
  (({ cache with chunks := cache.chunks ++ [(chunk, resolved)] }).addKey resolved.key,
    resolved, created)

/-- Resolves a chunk; the flag is true the first time that its source is seen. -/
def register (cache : Cache) (chunk : List UInt8) (origin : Origin) : Cache × Resolved × Bool :=
  match cache.find? chunk with
  | some resolved => (cache, resolved, false)
  | none =>
    match origin with
    | .file server client skipped => cache.add chunk (.ofFile server client skipped)
    | .virtual name code =>
      let reference := cache.lastReference + 1
      let cache := { cache with
        lastReference := reference, contents := cache.contents ++ [(reference, code)] }
      cache.add chunk (.ofReference name reference)

def content? (cache : Cache) (reference : Nat) : Option String :=
  cache.contents.lookup reference

/-- The first of the resolutions with each key, in order. -/
def distinct (seen : List String) : List Resolved → List Resolved
  | [] => []
  | resolved :: rest =>
    if seen.contains resolved.key then distinct seen rest
    else resolved :: distinct (resolved.key :: seen) rest

def loaded (cache : Cache) : List Source :=
  (distinct [] (cache.chunks.map (·.2))).map (·.source)

/-- The resolution of a chunk under a new mapping; chunks that are no files stay as they are. -/
def remapped (mapping : Path.Mapping) (chunk : List UInt8) (resolved : Resolved) : Resolved :=
  if resolved.server.isNone then resolved
  else
    match Origin.file? mapping chunk with
    | some (.file server client skipped) => .ofFile server client skipped
    | _ => resolved

/-- The resolutions whose path has changed, each key once. -/
def moved (mapping : Path.Mapping) (cache : Cache) : List Resolved :=
  distinct [] <| cache.chunks.filterMap fun (chunk, resolved) =>
    let updated := remapped mapping chunk resolved
    if updated.source.path ≠ resolved.source.path then some updated else none

/-- Resolves the files again under a new mapping and returns the sources that moved. -/
def remap (cache : Cache) (mapping : Path.Mapping) : Cache × List Resolved :=
  let moved := cache.moved mapping
  let chunks := cache.chunks.map fun (chunk, resolved) => (chunk, remapped mapping chunk resolved)
  (moved.foldl (fun cache resolved => cache.addKey resolved.key) { cache with chunks }, moved)

end Cache

end DebugAdapter.Source
