import DebugAdapter.Execution.Control
import DebugAdapter.Thread.Index

/-!
The threads of the debugged program. A thread has a handle of the interpreter and an identifier
for the client; identifiers start at one, grow and are never given again. The live threads are
found by either of the two, each in an index of its own; the two indices agree.
-/

namespace DebugAdapter

open Execution (StopReason)

inductive Phase where
  | running
  | stepping
  | stopped
  | suspended
  deriving DecidableEq, Repr

/-- What is known of the exception that stopped a thread. -/
structure ExceptionRecord where
  kind : String
  message : String
  fatal : Bool
  deriving DecidableEq, Repr

structure Thread where
  id : Nat
  handle : Nat
  phase : Phase := .running
  /-- The reason of the last stop. -/
  stopReason : Option StopReason := none
  exception : Option ExceptionRecord := none
  deriving DecidableEq, Repr

def Phase.name : Phase → String
  | .running => "running"
  | .stepping => "stepping"
  | .stopped => "stopped"
  | .suspended => "suspended"

namespace Thread

def name (thread : Thread) : String :=
  "Thread " ++ toString thread.id

def setRunning (stepping : Bool) (thread : Thread) : Thread :=
  { thread with phase := if stepping then .stepping else .running, exception := none }

def setStopped (reason : StopReason) (exception : Option ExceptionRecord) (thread : Thread) :
    Thread :=
  { thread with phase := .stopped, stopReason := some reason, exception }

def setSuspended (thread : Thread) : Thread :=
  { thread with phase := .suspended }

/-- Changes what is known of a thread, which stays the thread that it is. -/
def change (change : Thread → Thread) (thread : Thread) : Thread :=
  { change thread with id := thread.id, handle := thread.handle }

/-- Puts a thread before the first with a greater identifier. -/
def insertById (thread : Thread) : List Thread → List Thread
  | [] => [thread]
  | other :: rest =>
    if thread.id ≤ other.id then thread :: other :: rest else other :: insertById thread rest

def sortById (threads : List Thread) : List Thread :=
  threads.foldr insertById []

end Thread

/-- The live threads by identifier, their identifiers by handle, and the last identifier given. -/
structure Indices where
  byId : Index Thread := []
  byHandle : Index Nat := []
  lastId : Nat := 0
  deriving DecidableEq, Repr

namespace Indices

def find? (indices : Indices) (id : Nat) : Option Thread :=
  indices.byId.lookup id

def findByHandle? (indices : Indices) (handle : Nat) : Option Thread :=
  (indices.byHandle.lookup handle).bind indices.find?

/-- The live threads in ascending order of their identifiers. -/
def threads (indices : Indices) : List Thread :=
  Thread.sortById (indices.byId.map (·.2))

def size (indices : Indices) : Nat :=
  indices.byId.length

/-- The thread of a handle, made if there is none yet; the flag tells whether it was made. -/
def attach (indices : Indices) (handle : Nat) : Indices × Thread × Bool :=
  match indices.findByHandle? handle with
  | some thread => (indices, thread, false)
  | none =>
    let id := indices.lastId + 1
    let thread : Thread := { id, handle }
    ({ byId := .insert id thread indices.byId
       byHandle := .insert handle id indices.byHandle
       lastId := id }, thread, true)

/-- Removes the thread of a handle. -/
def detach (indices : Indices) (handle : Nat) : Indices × Option Thread :=
  match indices.byHandle.lookup handle with
  | some id =>
    ({ indices with byId := .erase id indices.byId, byHandle := .erase handle indices.byHandle },
      indices.byId.lookup id)
  | none => (indices, none)

def detachAll (indices : Indices) : Indices × List Thread :=
  ({ indices with byId := [], byHandle := [] }, indices.threads)

def update (indices : Indices) (change : Thread → Thread) : Indices :=
  { indices with byId := indices.byId.map fun (id, thread) => (id, thread.change change) }

/-- Both indices are of the same threads. -/
structure Agree (indices : Indices) : Prop where
  ids : indices.byId.Distinct
  handles : indices.byHandle.Distinct
  own : ∀ id thread, (id, thread) ∈ indices.byId → thread.id = id
  mirrored : ∀ id handle, (handle, id) ∈ indices.byHandle ↔
    ∃ thread, (id, thread) ∈ indices.byId ∧ thread.handle = handle
  bounded : ∀ id thread, (id, thread) ∈ indices.byId → id ≤ indices.lastId

variable {indices : Indices} {id handle : Nat} {thread : Thread}

theorem agree_empty (lastId : Nat) : Agree { lastId } where
  ids := Index.distinct_nil
  handles := Index.distinct_nil
  own := by simp
  mirrored := by simp
  bounded := by simp

theorem mem_update {change : Thread → Thread} : (id, thread) ∈ (indices.update change).byId ↔
    ∃ old, (id, old) ∈ indices.byId ∧ old.change change = thread := by
  simp only [Indices.update, List.mem_map, Prod.mk.injEq, Prod.exists]
  constructor
  · rintro ⟨_, old, member, rfl, same⟩
    exact ⟨old, member, same⟩
  · rintro ⟨old, member, same⟩
    exact ⟨id, old, member, rfl, same⟩

theorem agree_new : Agree {} :=
  agree_empty 0

namespace Agree

theorem find?_eq_some (agree : indices.Agree) :
    indices.find? id = some thread ↔ (id, thread) ∈ indices.byId :=
  agree.ids.lookup_eq_some

theorem findByHandle?_eq_some (agree : indices.Agree) : indices.findByHandle? handle = some thread ↔
    (thread.id, thread) ∈ indices.byId ∧ thread.handle = handle := by
  simp only [findByHandle?, Option.bind_eq_some_iff, agree.handles.lookup_eq_some,
    agree.find?_eq_some, agree.mirrored]
  constructor
  · rintro ⟨id, ⟨other, listed, rfl⟩, found⟩
    obtain rfl := agree.ids.unique found listed
    obtain rfl := agree.own id thread found
    exact ⟨found, rfl⟩
  · rintro ⟨listed, same⟩
    exact ⟨thread.id, ⟨thread, listed, same⟩, listed⟩

theorem findByHandle?_eq_none (agree : indices.Agree) :
    indices.findByHandle? handle = none ↔ ∀ id, (handle, id) ∉ indices.byHandle := by
  constructor
  · intro missed id listed
    obtain ⟨thread, member, same⟩ := (agree.mirrored id handle).mp listed
    have found := agree.findByHandle?_eq_some.mpr ⟨agree.own id thread member ▸ member, same⟩
    rw [missed] at found
    contradiction
  · intro absent
    rw [findByHandle?, Index.lookup_eq_none.mpr absent]
    rfl

theorem attach (agree : indices.Agree) (handle : Nat) : (indices.attach handle).1.Agree := by
  rw [Indices.attach]
  split
  · exact agree
  · rename_i missed
    have absent := agree.findByHandle?_eq_none.mp missed
    refine ⟨agree.ids.insert _ _, agree.handles.insert _ _, ?_, ?_, ?_⟩
    · intro id thread member
      rcases Index.mem_insert.mp member with ⟨rfl, rfl⟩ | ⟨old, -⟩
      · rfl
      · exact agree.own id thread old
    · intro id other
      rw [Index.mem_insert]
      constructor
      · rintro (⟨rfl, rfl⟩ | ⟨old, -⟩)
        · exact ⟨_, Index.mem_insert.mpr (.inl ⟨rfl, rfl⟩), rfl⟩
        · obtain ⟨thread, member, same⟩ := (agree.mirrored id other).mp old
          have given := agree.bounded id thread member
          exact ⟨thread, Index.mem_insert.mpr (.inr ⟨member, by omega⟩), same⟩
      · rintro ⟨thread, member, rfl⟩
        rcases Index.mem_insert.mp member with ⟨rfl, rfl⟩ | ⟨old, -⟩
        · exact .inl ⟨rfl, rfl⟩
        · have listed := (agree.mirrored id thread.handle).mpr ⟨thread, old, rfl⟩
          refine .inr ⟨listed, ?_⟩
          intro same
          exact absent id (same ▸ listed)
    · intro id thread member
      rcases Index.mem_insert.mp member with ⟨rfl, rfl⟩ | ⟨old, -⟩
      · exact Nat.le_refl _
      · exact Nat.le_succ_of_le (agree.bounded id thread old)

theorem detach (agree : indices.Agree) (handle : Nat) : (indices.detach handle).1.Agree := by
  rw [Indices.detach]
  split
  · rename_i own found
    have listed := Index.mem_of_lookup found
    refine ⟨agree.ids.erase own, agree.handles.erase handle, ?_, ?_, ?_⟩
    · intro id thread member
      exact agree.own id thread (Index.mem_erase.mp member).1
    · intro id other
      rw [Index.mem_erase]
      constructor
      · rintro ⟨old, apart⟩
        -- One identifier has one handle, so erasing by identifier takes no other handle along.
        obtain ⟨thread, member, same⟩ := (agree.mirrored id other).mp old
        refine ⟨thread, Index.mem_erase.mpr ⟨member, ?_⟩, same⟩
        rintro rfl
        obtain ⟨second, also, owner⟩ := (agree.mirrored id handle).mp listed
        obtain rfl := agree.ids.unique member also
        exact apart (same.symm.trans owner)
      · rintro ⟨thread, member, same⟩
        obtain ⟨old, apart⟩ := Index.mem_erase.mp member
        have also := (agree.mirrored id other).mpr ⟨thread, old, same⟩
        refine ⟨also, ?_⟩
        rintro rfl
        exact apart (agree.handles.unique also listed)
    · intro id thread member
      exact agree.bounded id thread (Index.mem_erase.mp member).1
  · exact agree

theorem update (agree : indices.Agree) (change : Thread → Thread) :
    (indices.update change).Agree := by
  refine ⟨?_, agree.handles, ?_, ?_, ?_⟩
  · have same : (indices.update change).byId.map (·.1) = indices.byId.map (·.1) := List.map_map
    rw [Index.Distinct, same]
    exact agree.ids
  · intro id thread member
    obtain ⟨old, listed, rfl⟩ := mem_update.mp member
    exact agree.own id old listed
  · intro id handle
    refine (agree.mirrored id handle).trans ⟨?_, ?_⟩
    · rintro ⟨old, listed, same⟩
      exact ⟨_, mem_update.mpr ⟨old, listed, rfl⟩, same⟩
    · rintro ⟨thread, member, same⟩
      obtain ⟨old, listed, rfl⟩ := mem_update.mp member
      exact ⟨old, listed, same⟩
  · intro id thread member
    obtain ⟨old, listed, -⟩ := mem_update.mp member
    exact agree.bounded id old listed

end Agree

end Indices

/-- The live threads under indices that agree. -/
structure Registry extends Indices where
  agree : toIndices.Agree := by exact Indices.agree_new
  deriving DecidableEq, Repr

instance : Inhabited Registry := ⟨{}⟩

namespace Registry

def attach (registry : Registry) (handle : Nat) : Registry × Thread × Bool :=
  (⟨(registry.toIndices.attach handle).1, registry.agree.attach handle⟩,
    (registry.toIndices.attach handle).2)

def detach (registry : Registry) (handle : Nat) : Option (Registry × Thread) :=
  (registry.toIndices.detach handle).2.map fun thread =>
    (⟨(registry.toIndices.detach handle).1, registry.agree.detach handle⟩, thread)

def detachAll (registry : Registry) : Registry × List Thread :=
  (⟨registry.toIndices.detachAll.1, Indices.agree_empty _⟩, registry.toIndices.detachAll.2)

def update (registry : Registry) (change : Thread → Thread) : Registry :=
  ⟨registry.toIndices.update change, registry.agree.update change⟩

/-- Changes the thread with an identifier, if it is still there. -/
def modify (registry : Registry) (id : Nat) (change : Thread → Thread) : Registry :=
  registry.update fun thread => if thread.id = id then change thread else thread

end Registry

end DebugAdapter
