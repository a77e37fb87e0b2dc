import DebugAdapter.Proofs.Thread.Registry
import Mathlib.Data.List.Induction

/-! The indices after any history of operations hold the threads that were attached and not detached
since, each under its identifier and its handle, and no identifier is given again. -/
namespace DebugAdapter

/-- What a history is cut at is its last entry, or one before it. -/
theorem append_eq_cut {α : Type} {history before after : List α} {last entry : α}
    (whole : history ++ [last] = before ++ entry :: after) :
    (history = before ∧ last = entry ∧ after = []) ∨
      ∃ since, history = before ++ entry :: since ∧ after = since ++ [last] := by
  rcases List.eq_nil_or_concat' after with rfl | ⟨since, final, rfl⟩
  · obtain ⟨same, alone⟩ := List.append_inj' whole rfl
    exact .inl ⟨same, List.singleton_inj.mp alone, rfl⟩
  · rw [← List.cons_append, ← List.append_assoc] at whole
    obtain ⟨same, alone⟩ := List.append_inj' whole rfl
    exact .inr ⟨since, same, by rw [List.singleton_inj.mp alone]⟩

namespace Indices

inductive Operation where
  | attach (handle : Nat)
  | detach (handle : Nat)
  | detachAll
  deriving DecidableEq, Repr

def Operation.attaches : Operation → Bool
  | .attach _ => true
  | _ => false

def perform (indices : Indices) : Operation → Indices
  | .attach handle => (indices.attach handle).1
  | .detach handle => (indices.detach handle).1
  | .detachAll => indices.detachAll.1

def after (history : List Operation) : Indices :=
  history.foldl perform {}

/-- The handle was attached, and not detached since. -/
def Live (history : List Operation) (handle : Nat) : Prop :=
  ∃ before later, history = before ++ .attach handle :: later ∧
    .detach handle ∉ later ∧ .detachAll ∉ later

/-- An attach of the handle returned the thread, and the handle was not detached since. -/
def LiveThread (history : List Operation) (handle : Nat) (thread : Thread) : Prop :=
  ∃ before later, history = before ++ .attach handle :: later ∧
    .detach handle ∉ later ∧ .detachAll ∉ later ∧ ((after before).attach handle).2.1 = thread

/-- An attach returned a thread with this identifier. -/
def Given (history : List Operation) (id : Nat) : Prop :=
  ∃ before handle later, history = before ++ .attach handle :: later ∧
    ((after before).attach handle).2.1.id = id

/-- The pairs of an identifier and a handle in the index by identifier. -/
def pairsById (indices : Indices) : List (Nat × Nat) :=
  indices.byId.map fun (id, thread) => (id, thread.handle)

/-- The pairs of an identifier and a handle in the index by handle. -/
def pairsByHandle (indices : Indices) : List (Nat × Nat) :=
  indices.byHandle.map fun (handle, id) => (id, handle)

/-- Both indices pair the same identifiers with the same handles, one with one. -/
structure Matched (indices : Indices) : Prop where
  same : indices.pairsById.Perm indices.pairsByHandle
  ids : (indices.pairsById.map (·.1)).Nodup
  handles : (indices.pairsById.map (·.2)).Nodup

/-- The indices hold the threads that are live after a history, and an attach makes a thread only
for a handle that is not live. -/
structure Tracks (indices : Indices) (history : List Operation) : Prop where
  matched : indices.Matched
  byHandle : ∀ handle thread,
    indices.findByHandle? handle = some thread ↔ LiveThread history handle thread
  byId : ∀ id thread, indices.find? id = some thread ↔
    thread.id = id ∧ indices.findByHandle? thread.handle = some thread
  created : ∀ handle, (indices.attach handle).2.2 = true ↔ ¬Live history handle
  returned : ∀ handle thread,
    indices.attach handle = (indices, thread, false) ↔ LiveThread history handle thread
  new : ∀ handle, ¬Live history handle → (indices.attach handle).2.1.handle = handle ∧
    ∀ id, Given history id → id < (indices.attach handle).2.1.id
  ascending : indices.threads.Pairwise fun before after => before.id < after.id
  listed : ∀ thread, thread ∈ indices.threads ↔ LiveThread history thread.handle thread
  removed : indices.detachAll.2 = indices.threads
  /-- The identifiers need no wider a number than the count of the attaches does. -/
  counted : indices.lastId ≤ history.countP (·.attaches)

variable {indices : Indices} {history : List Operation} {operation : Operation} {handle id : Nat}
  {thread : Thread}

namespace Agree

theorem matched (agree : indices.Agree) : indices.Matched := by
  have ids : (indices.pairsById.map (·.1)).Nodup := by
    rw [pairsById, List.map_map]
    exact agree.ids
  have handles : (indices.pairsByHandle.map (·.2)).Nodup := by
    rw [pairsByHandle, List.map_map]
    exact agree.handles
  have same : indices.pairsById.Perm indices.pairsByHandle := by
    refine (List.perm_ext_iff_of_nodup ids.of_map handles.of_map).mpr fun (id, handle) => ?_
    simp only [pairsById, pairsByHandle, List.mem_map, Prod.exists, Prod.mk.injEq]
    constructor
    · rintro ⟨_, thread, member, rfl, rfl⟩
      exact ⟨_, _, (agree.mirrored _ _).mpr ⟨thread, member, rfl⟩, rfl, rfl⟩
    · rintro ⟨_, _, member, rfl, rfl⟩
      obtain ⟨thread, listed, same⟩ := (agree.mirrored _ _).mp member
      exact ⟨_, thread, listed, rfl, same⟩
  exact ⟨same, ids, (same.map _).nodup_iff.mpr handles⟩

theorem find?_iff (agree : indices.Agree) : indices.find? id = some thread ↔
    thread.id = id ∧ indices.findByHandle? thread.handle = some thread := by
  rw [agree.find?_eq_some, agree.findByHandle?_eq_some]
  constructor
  · intro member
    obtain rfl := agree.own id thread member
    exact ⟨rfl, member, rfl⟩
  · rintro ⟨rfl, member, -⟩
    exact member

theorem findByHandle?_attach (agree : indices.Agree) (handle other : Nat) :
    (indices.attach handle).1.findByHandle? other =
      if other = handle then some (indices.attach handle).2.1 else indices.findByHandle? other := by
  cases known : indices.findByHandle? handle with
  | some thread =>
    rw [attach_known known]
    split
    · subst other
      exact known
    · rfl
  | none =>
    ext thread
    rw [(agree.attach handle).findByHandle?_eq_some, attach_unknown known, Index.mem_insert]
    split
    · subst other
      constructor
      · rintro ⟨⟨-, rfl⟩ | ⟨member, -⟩, owner⟩
        · rfl
        · have found := agree.findByHandle?_eq_some.mpr ⟨member, owner⟩
          rw [known] at found
          contradiction
      · rintro ⟨⟩
        exact ⟨.inl ⟨rfl, rfl⟩, rfl⟩
    · rename_i different
      rw [agree.findByHandle?_eq_some]
      constructor
      · rintro ⟨⟨-, rfl⟩ | ⟨member, -⟩, owner⟩
        · exact absurd owner.symm different
        · exact ⟨member, owner⟩
      · rintro ⟨member, owner⟩
        -- The new identifier is above all others, so nothing gives way to it.
        have given := agree.bounded _ _ member
        exact ⟨.inr ⟨member, by omega⟩, owner⟩

theorem findByHandle?_detach (agree : indices.Agree) (handle other : Nat) :
    (indices.detach handle).1.findByHandle? other =
      if other = handle then none else indices.findByHandle? other := by
  cases known : indices.findByHandle? handle with
  | none =>
    rw [agree.detach_unknown known]
    split
    · subst other
      exact known
    · rfl
  | some gone =>
    ext thread
    rw [(agree.detach handle).findByHandle?_eq_some, agree.detach_known known, Index.mem_erase]
    split
    · subst other
      simp only [reduceCtorEq, iff_false, not_and]
      intro ⟨member, apart⟩ owner
      exact apart ((agree.same_id_iff known member).mpr owner)
    · rename_i different
      rw [agree.findByHandle?_eq_some]
      constructor
      · rintro ⟨⟨member, -⟩, owner⟩
        exact ⟨member, owner⟩
      · rintro ⟨member, rfl⟩
        exact ⟨⟨member, (agree.same_id_iff known member).not.mpr different⟩, rfl⟩

theorem attach_id_le (agree : indices.Agree) (handle : Nat) :
    (indices.attach handle).2.1.id ≤ (indices.attach handle).1.lastId := by
  cases known : indices.findByHandle? handle with
  | some thread =>
    rw [attach_known known]
    exact agree.bounded _ _ (agree.findByHandle?_eq_some.mp known).1
  | none =>
    rw [attach_unknown known]

end Agree

theorem attach_eq_known_iff :
    indices.attach handle = (indices, thread, false) ↔
      indices.findByHandle? handle = some thread := by
  refine ⟨fun same => ?_, attach_known⟩
  cases known : indices.findByHandle? handle with
  | some other =>
    rw [attach_known known] at same
    exact congrArg _ (Prod.mk.inj (Prod.mk.inj same).2).1
  | none =>
    rw [attach_unknown known] at same
    have made := (Prod.mk.inj (Prod.mk.inj same).2).2
    contradiction

theorem created_iff : (indices.attach handle).2.2 = true ↔ indices.findByHandle? handle = none := by
  cases known : indices.findByHandle? handle with
  | some thread => simp [attach_known known]
  | none => simp [attach_unknown known]

theorem lastId_perform (indices : Indices) (operation : Operation) :
    indices.lastId ≤ (indices.perform operation).lastId ∧
      (indices.perform operation).lastId ≤
        indices.lastId + if operation.attaches then 1 else 0 := by
  cases operation with
  | attach handle =>
    cases known : indices.findByHandle? handle with
    | some thread => simp [perform, attach_known known]
    | none => simp [perform, attach_unknown known, Operation.attaches]
  | detach handle =>
    simp only [perform, detach]
    split <;> simp
  | detachAll => simp [perform, detachAll]

theorem after_concat : after (history ++ [operation]) = (after history).perform operation := by
  simp only [after, List.foldl_append, List.foldl_cons, List.foldl_nil]

theorem agree_after (history : List Operation) : (after history).Agree := by
  induction history using List.reverseRecOn with
  | nil => exact agree_new
  | append_singleton history operation ih =>
    rw [after_concat]
    cases operation with
    | attach handle => exact ih.attach handle
    | detach handle => exact ih.detach handle
    | detachAll => exact agree_empty _

theorem live_iff : Live history handle ↔ ∃ thread, LiveThread history handle thread := by
  constructor
  · rintro ⟨before, later, whole, kept, left⟩
    exact ⟨_, before, later, whole, kept, left, rfl⟩
  · rintro ⟨_, before, later, whole, kept, left, -⟩
    exact ⟨before, later, whole, kept, left⟩

theorem liveThread_concat : LiveThread (history ++ [operation]) handle thread ↔
    (operation = .attach handle ∧ ((after history).attach handle).2.1 = thread) ∨
      (LiveThread history handle thread ∧ operation ≠ .detach handle ∧ operation ≠ .detachAll) := by
  constructor
  · rintro ⟨before, later, whole, kept, left, same⟩
    rcases append_eq_cut whole with ⟨rfl, rfl, rfl⟩ | ⟨since, rfl, rfl⟩
    · exact .inl ⟨rfl, same⟩
    · simp only [List.mem_append, List.mem_singleton, not_or] at kept left
      exact .inr ⟨⟨before, since, rfl, kept.1, left.1, same⟩, Ne.symm kept.2, Ne.symm left.2⟩
  · rintro (⟨rfl, same⟩ | ⟨⟨before, later, rfl, kept, left, same⟩, other, others⟩)
    · exact ⟨history, [], rfl, List.not_mem_nil, List.not_mem_nil, same⟩
    · refine ⟨before, later ++ [operation], by simp, ?_, ?_, same⟩
      · simp [kept, Ne.symm other]
      · simp [left, Ne.symm others]

theorem findByHandle?_after (history : List Operation) (handle : Nat) (thread : Thread) :
    (after history).findByHandle? handle = some thread ↔ LiveThread history handle thread := by
  induction history using List.reverseRecOn with
  | nil => simp [after, findByHandle?, LiveThread]
  | append_singleton history operation ih =>
    have agree := agree_after history
    rw [after_concat, liveThread_concat, ← ih]
    cases operation with
    | attach other =>
      rw [perform, agree.findByHandle?_attach]
      split
      · subst other
        constructor
        · rintro ⟨⟩
          exact .inl ⟨rfl, rfl⟩
        · rintro (⟨-, rfl⟩ | ⟨found, -⟩)
          · rfl
          · -- The attach before this one returned the same thread.
            rw [attach_known found]
      · rename_i different
        simp [Ne.symm different]
    | detach other =>
      rw [perform, agree.findByHandle?_detach]
      split
      · subst other
        simp
      · rename_i different
        simp [Ne.symm different]
    | detachAll => simp [perform, detachAll, findByHandle?]

theorem given_le (given : Given history id) : id ≤ (after history).lastId := by
  induction history using List.reverseRecOn with
  | nil =>
    obtain ⟨before, _, _, whole, -⟩ := given
    simp at whole
  | append_singleton history operation ih =>
    obtain ⟨before, handle, later, whole, same⟩ := given
    rw [after_concat]
    rcases append_eq_cut whole with ⟨rfl, rfl, rfl⟩ | ⟨since, earlier, -⟩
    · exact same ▸ (agree_after history).attach_id_le handle
    · have before := ih ⟨before, handle, since, earlier, same⟩
      exact before.trans (lastId_perform _ _).1

theorem lastId_le (history : List Operation) :
    (after history).lastId ≤ history.countP (·.attaches) := by
  induction history using List.reverseRecOn with
  | nil => exact Nat.le_refl 0
  | append_singleton history operation ih =>
    have step := (lastId_perform (after history) operation).2
    rw [after_concat, List.countP_append, List.countP_singleton]
    omega

/-- The indices never come apart, whatever is attached and detached. -/
theorem after_tracks (history : List Operation) : (after history).Tracks history := by
  have agree := agree_after history
  have found := findByHandle?_after history
  have unknown {handle : Nat} :
      (after history).findByHandle? handle = none ↔ ¬Live history handle := by
    simp only [Option.eq_none_iff_forall_ne_some, ne_eq, found, live_iff, not_exists]
  refine ⟨agree.matched, found, fun _ _ => agree.find?_iff, fun _ => created_iff.trans unknown,
    fun handle thread => attach_eq_known_iff.trans (found handle thread), ?_,
    agree.threads_ascending, fun thread => ?_, rfl, lastId_le history⟩
  · intro handle absent
    rw [attach_unknown (unknown.mpr absent)]
    exact ⟨rfl, fun id given => Nat.lt_succ_of_le (given_le given)⟩
  · rw [← found, agree.mem_threads, agree.findByHandle?_eq_some]
    exact (and_iff_left rfl).symm

example : ((after [.attach 7, .attach 9, .detach 7]).attach 7).2 =
    ({ id := 3, handle := 7 }, true) := by
  decide

end Indices

end DebugAdapter
