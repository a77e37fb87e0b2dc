import DebugAdapter.Thread.Registry
import Mathlib.Data.List.Sort

/-! The threads of a registry in their order, and its roster, who is in it under which identifier:
identifiers ascend, and neither an identifier nor a handle occurs twice. -/
namespace DebugAdapter

theorem Thread.sortById_eq (threads : List Thread) :
    sortById threads = threads.insertionSort (fun a b => a.id ≤ b.id) := by
  have inserted (thread : Thread) (rest : List Thread) :
      insertById thread rest = rest.orderedInsert (fun a b => a.id ≤ b.id) thread := by
    induction rest with
    | nil => rfl
    | cons other rest ih => rw [insertById, List.orderedInsert, ih]
  induction threads with
  | nil => rfl
  | cons thread rest ih =>
    rw [List.insertionSort_cons, ← ih, ← inserted]
    rfl

namespace Indices

variable {indices : Indices} {handle : Nat} {thread : Thread}

theorem threads_perm (indices : Indices) : indices.threads.Perm (indices.byId.map (·.2)) := by
  rw [threads, Thread.sortById_eq]
  exact List.perm_insertionSort _ _

theorem threads_sorted (indices : Indices) :
    indices.threads.Pairwise fun before after => before.id ≤ after.id := by
  have total : Std.Total fun a b : Thread => a.id ≤ b.id := ⟨fun a b => Nat.le_total a.id b.id⟩
  have trans : IsTrans Thread fun a b => a.id ≤ b.id := ⟨fun _ _ _ => Nat.le_trans⟩
  rw [threads, Thread.sortById_eq]
  exact List.pairwise_insertionSort _ _

namespace Agree

theorem mem_threads (agree : indices.Agree) :
    thread ∈ indices.threads ↔ (thread.id, thread) ∈ indices.byId := by
  rw [indices.threads_perm.mem_iff, List.mem_map]
  constructor
  · rintro ⟨⟨id, thread⟩, member, rfl⟩
    exact agree.own id thread member ▸ member
  · intro member
    exact ⟨_, member, rfl⟩

theorem threads_ascending (agree : indices.Agree) :
    indices.threads.Pairwise fun before after => before.id < after.id := by
  have ids : (indices.threads.map (·.id)).Nodup := by
    rw [(indices.threads_perm.map _).nodup_iff, List.map_map]
    have own : indices.byId.map ((·.id) ∘ (·.2)) = indices.byId.map (·.1) :=
      List.map_congr_left fun entry member => agree.own entry.1 entry.2 member
    rw [own]
    exact agree.ids
  rw [List.Nodup, List.pairwise_map] at ids
  refine List.Pairwise.imp₂ ?_ indices.threads_sorted ids
  intro before after
  exact Nat.lt_of_le_of_ne

/-- The threads are known from who is among them, since their order is that of their identifiers. -/
theorem threads_eq (agree : indices.Agree) {threads : List Thread}
    (ascending : threads.Pairwise fun before after => before.id < after.id)
    (same : ∀ thread, (thread.id, thread) ∈ indices.byId ↔ thread ∈ threads) :
    indices.threads = threads := by
  have nodup {threads : List Thread}
      (ascending : threads.Pairwise fun before after => before.id < after.id) : threads.Nodup := by
    refine ascending.imp ?_
    rintro before after less rfl
    exact Nat.lt_irrefl _ less
  refine List.Perm.eq_of_pairwise ?_ agree.threads_ascending ascending ?_
  · intro before after _ _ less more
    exact absurd (Nat.lt_trans less more) (Nat.lt_irrefl _)
  · refine (List.perm_ext_iff_of_nodup (nodup agree.threads_ascending) (nodup ascending)).mpr ?_
    exact fun thread => agree.mem_threads.trans (same thread)

/-- A thread has the identifier of another if it has its handle. -/
theorem same_id_iff (agree : indices.Agree) {other : Thread}
    (found : indices.findByHandle? handle = some thread)
    (listed : (other.id, other) ∈ indices.byId) : other.id = thread.id ↔ other.handle = handle := by
  obtain ⟨member, owner⟩ := agree.findByHandle?_eq_some.mp found
  constructor
  · intro same
    rw [same] at listed
    rw [agree.ids.unique listed member, owner]
  · intro same
    have also := agree.findByHandle?_eq_some.mpr ⟨listed, same⟩
    rw [Option.some.inj (also.symm.trans found)]

end Agree

theorem attach_known (found : indices.findByHandle? handle = some thread) :
    indices.attach handle = (indices, thread, false) := by
  rw [attach, found]

theorem attach_unknown (unknown : indices.findByHandle? handle = none) :
    indices.attach handle = ({
      byId := .insert (indices.lastId + 1) { id := indices.lastId + 1, handle } indices.byId
      byHandle := .insert handle (indices.lastId + 1) indices.byHandle
      lastId := indices.lastId + 1 }, { id := indices.lastId + 1, handle }, true) := by
  rw [attach, unknown]

namespace Agree

theorem detach_known (agree : indices.Agree)
    (found : indices.findByHandle? handle = some thread) :
    indices.detach handle = ({ indices with
      byId := .erase thread.id indices.byId
      byHandle := .erase handle indices.byHandle }, some thread) := by
  have listed := agree.findByHandle?_eq_some.mp found
  have own : indices.byHandle.lookup handle = some thread.id :=
    agree.handles.lookup_eq_some.mpr ((agree.mirrored _ _).mpr ⟨thread, listed⟩)
  rw [Indices.detach, own]
  exact congrArg _ (agree.find?_eq_some.mpr listed.1)

theorem detach_unknown (agree : indices.Agree) (unknown : indices.findByHandle? handle = none) :
    indices.detach handle = (indices, none) := by
  have absent : indices.byHandle.lookup handle = none :=
    Index.lookup_eq_none.mpr (agree.findByHandle?_eq_none.mp unknown)
  rw [Indices.detach, absent]

end Agree

end Indices

namespace Registry

/-- The identifiers of the live threads with their handles. -/
def roster (registry : Registry) : List (Nat × Nat) :=
  registry.threads.map fun thread => (thread.id, thread.handle)

structure Valid (registry : Registry) : Prop where
  ascending : (registry.roster.map (·.1)).Pairwise (· < ·)
  handles : (registry.roster.map (·.2)).Nodup
  bounded : ∀ entry ∈ registry.roster, entry.1 ≤ registry.lastId

/-- The identifier was given, and if it is still in use then for the handle. -/
structure Knows (registry : Registry) (id handle : Nat) : Prop where
  given : id ≤ registry.lastId
  owner : ∀ other, (id, other) ∈ registry.roster → other = handle

variable {registry : Registry} {id handle : Nat} {thread : Thread}

theorem valid (registry : Registry) : registry.Valid where
  ascending := by
    rw [roster, List.map_map, List.pairwise_map]
    exact registry.agree.threads_ascending
  handles := by
    rw [roster, List.map_map, List.Nodup, List.pairwise_map]
    refine registry.agree.threads_ascending.imp_of_mem fun {before after} first last less same => ?_
    have found := registry.agree.findByHandle?_eq_some.mpr
      ⟨registry.agree.mem_threads.mp first, rfl⟩
    have listed := registry.agree.mem_threads.mp last
    exact Nat.ne_of_gt less ((registry.agree.same_id_iff found listed).mpr same.symm)
  bounded := by
    intro entry member
    obtain ⟨thread, listed, rfl⟩ := List.mem_map.mp member
    exact registry.agree.bounded _ _ (registry.agree.mem_threads.mp listed)

theorem mem_roster (member : thread ∈ registry.threads) :
    (thread.id, thread.handle) ∈ registry.roster :=
  List.mem_map_of_mem member

theorem Valid.owner (valid : registry.Valid) {other : Nat} (first : (id, handle) ∈ registry.roster)
    (second : (id, other) ∈ registry.roster) : other = handle := by
  have distinct : (registry.roster.map (·.1)).Nodup := valid.ascending.imp Nat.ne_of_lt
  have same := List.inj_on_of_nodup_map distinct second first rfl
  exact congrArg Prod.snd same

theorem Valid.holder (valid : registry.Valid) {other : Nat} (first : (id, handle) ∈ registry.roster)
    (second : (other, handle) ∈ registry.roster) : other = id := by
  have same := List.inj_on_of_nodup_map valid.handles second first rfl
  exact congrArg Prod.fst same

theorem Valid.knows (valid : registry.Valid) (member : (id, handle) ∈ registry.roster) :
    registry.Knows id handle :=
  ⟨valid.bounded _ member, fun _ => valid.owner member⟩

theorem find?_eq_some :
    registry.find? id = some thread ↔ thread ∈ registry.threads ∧ thread.id = id := by
  rw [registry.agree.find?_eq_some, registry.agree.mem_threads]
  constructor
  · intro member
    obtain rfl := registry.agree.own id thread member
    exact ⟨member, rfl⟩
  · rintro ⟨member, rfl⟩
    exact member

theorem findByHandle_spec (found : registry.findByHandle? handle = some thread) :
    thread ∈ registry.threads ∧ thread.handle = handle := by
  rwa [registry.agree.findByHandle?_eq_some, ← registry.agree.mem_threads] at found

theorem findByHandle_none (unknown : registry.findByHandle? handle = none) :
    handle ∉ registry.roster.map (·.2) := by
  simp only [roster, List.map_map, List.mem_map, Function.comp_apply, not_exists, not_and]
  intro thread member owner
  have found := registry.agree.findByHandle?_eq_some.mpr
    ⟨registry.agree.mem_threads.mp member, owner⟩
  rw [unknown] at found
  contradiction

theorem attach_known (found : registry.findByHandle? handle = some thread) :
    registry.attach handle = (registry, thread, false) := by
  simp only [attach, Indices.attach_known found]

/-- A new thread comes last. -/
theorem attach_unknown (unknown : registry.findByHandle? handle = none) :
    (registry.attach handle).2 = ({ id := registry.lastId + 1, handle }, true) ∧
      (registry.attach handle).1.threads =
        registry.threads ++ [{ id := registry.lastId + 1, handle }] ∧
      (registry.attach handle).1.lastId = registry.lastId + 1 := by
  have agree := registry.agree.attach handle
  simp only [attach, Indices.attach_unknown unknown] at agree ⊢
  refine ⟨trivial, ?_, trivial⟩
  have older (thread : Thread) (member : (thread.id, thread) ∈ registry.byId) :
      thread.id < registry.lastId + 1 :=
    Nat.lt_succ_of_le (registry.agree.bounded _ _ member)
  refine agree.threads_eq ?_ fun thread => ?_
  · refine List.pairwise_append.mpr ⟨registry.agree.threads_ascending, by simp, ?_⟩
    intro thread member last newest
    obtain rfl := List.mem_singleton.mp newest
    exact older thread (registry.agree.mem_threads.mp member)
  · rw [Index.mem_insert, List.mem_append, List.mem_singleton, registry.agree.mem_threads]
    constructor
    · rintro (⟨-, rfl⟩ | ⟨old, -⟩)
      · exact .inr rfl
      · exact .inl old
    · rintro (old | rfl)
      · exact .inr ⟨old, Nat.ne_of_lt (older thread old)⟩
      · exact .inl ⟨rfl, rfl⟩

theorem detach_known (found : registry.findByHandle? handle = some thread) :
    ∃ rest, registry.detach handle = some (rest, thread) ∧
      rest.threads = registry.threads.filter (·.handle ≠ handle) ∧
      rest.lastId = registry.lastId := by
  have agree := registry.agree.detach handle
  simp only [detach, registry.agree.detach_known found] at agree ⊢
  refine ⟨_, rfl, ?_, rfl⟩
  refine agree.threads_eq (registry.agree.threads_ascending.filter _) fun other => ?_
  rw [Index.mem_erase, List.mem_filter, registry.agree.mem_threads, decide_eq_true_eq]
  exact and_congr_right fun member => not_congr (registry.agree.same_id_iff found member)

theorem detach_unknown (unknown : registry.findByHandle? handle = none) :
    registry.detach handle = none := by
  simp only [detach, registry.agree.detach_unknown unknown, Option.map_none]

/-- The thread of a handle is in the registry, and the roster is as before but for a new thread. -/
theorem attach_spec (registry : Registry) (handle : Nat) :
    ((registry.attach handle).2.1.id, handle) ∈ (registry.attach handle).1.roster ∧
      (((registry.attach handle).2.2 = false ∧ (registry.attach handle).1 = registry) ∨
        ((registry.attach handle).2.2 = true ∧ handle ∉ registry.roster.map (·.2) ∧
          (registry.attach handle).1.roster = registry.roster ++ [(registry.lastId + 1, handle)] ∧
          (registry.attach handle).1.lastId = registry.lastId + 1)) := by
  cases known : registry.findByHandle? handle with
  | some thread =>
    obtain ⟨member, same⟩ := findByHandle_spec known
    rw [attach_known known]
    exact ⟨same ▸ mem_roster member, Or.inl ⟨rfl, rfl⟩⟩
  | none =>
    obtain ⟨made, threads, lastId⟩ := attach_unknown known
    have roster : (registry.attach handle).1.roster =
        registry.roster ++ [(registry.lastId + 1, handle)] := by
      simp [Registry.roster, threads]
    rw [made]
    exact ⟨by simp [roster], Or.inr ⟨rfl, findByHandle_none known, roster, lastId⟩⟩

theorem Knows.attach (knows : registry.Knows id handle) (other : Nat) :
    (registry.attach other).1.Knows id handle := by
  rcases (attach_spec registry other).2 with ⟨_, same⟩ | ⟨_, _, roster, lastId⟩
  · rw [same]
    exact knows
  · refine ⟨lastId ▸ Nat.le_succ_of_le knows.given, ?_⟩
    intro owner member
    rw [roster] at member
    rcases List.mem_append.mp member with old | newest
    · exact knows.owner owner old
    · have given := knows.given
      obtain ⟨rfl, _⟩ := Prod.mk.inj (List.mem_singleton.mp newest)
      omega

/-- Fewer threads under the same identifiers. -/
theorem Knows.sublist {fewer : Registry} (knows : registry.Knows id handle)
    (kept : fewer.roster.Sublist registry.roster) (same : fewer.lastId = registry.lastId) :
    fewer.Knows id handle :=
  ⟨same ▸ knows.given, fun other member => knows.owner other (kept.subset member)⟩

theorem detach_eq_some {rest : Registry}
    (detached : registry.detach handle = some (rest, thread)) :
    registry.findByHandle? handle = some thread ∧
      rest.threads = registry.threads.filter (·.handle ≠ handle) ∧
      rest.lastId = registry.lastId := by
  cases known : registry.findByHandle? handle with
  | none =>
    rw [detach_unknown known] at detached
    contradiction
  | some own =>
    obtain ⟨other, gone, fewer, same⟩ := detach_known known
    obtain ⟨rfl, rfl⟩ := Prod.mk.inj (Option.some.inj (gone.symm.trans detached))
    exact ⟨rfl, fewer, same⟩

theorem detach_spec {rest : Registry} (detached : registry.detach handle = some (rest, thread)) :
    rest.roster.Sublist registry.roster ∧ rest.lastId = registry.lastId := by
  obtain ⟨-, fewer, same⟩ := detach_eq_some detached
  rw [roster, fewer]
  exact ⟨List.filter_sublist.map _, same⟩

/-- Who detaches was in the registry, and all others stay there. -/
theorem detach_others {rest : Registry} (detached : registry.detach handle = some (rest, thread)) :
    (thread.id, handle) ∈ registry.roster ∧
      ∀ entry ∈ registry.roster, entry.2 ≠ handle → entry ∈ rest.roster := by
  obtain ⟨known, fewer, -⟩ := detach_eq_some detached
  obtain ⟨member, owner⟩ := findByHandle_spec known
  refine ⟨owner ▸ mem_roster member, fun entry listed other => ?_⟩
  obtain ⟨thread, inside, rfl⟩ := List.mem_map.mp listed
  rw [roster, fewer]
  exact List.mem_map.mpr ⟨thread, List.mem_filter.mpr ⟨inside, by simpa using other⟩, rfl⟩

/-- A change of what is known of the threads changes them one by one. -/
theorem update_threads (registry : Registry) {change : Thread → Thread}
    (keeps : ∀ thread, ((change thread).id, (change thread).handle) = (thread.id, thread.handle)) :
    (registry.update change).threads = registry.threads.map change := by
  have own (thread : Thread) : thread.change change = change thread := by
    obtain ⟨id, handle⟩ := Prod.mk.inj (keeps thread)
    rw [Thread.change, ← id, ← handle]
  have ids (thread : Thread) : (change thread).id = thread.id := congrArg Prod.fst (keeps thread)
  refine (registry.agree.update change).threads_eq ?_ fun thread => ?_
  · simpa only [List.pairwise_map, ids] using registry.agree.threads_ascending
  · simp only [Indices.mem_update, List.mem_map, own, registry.agree.mem_threads]
    refine exists_congr fun old => and_congr_left ?_
    rintro rfl
    rw [ids]

/-- A change that finds every thread as it leaves it changes nothing. -/
theorem update_eq_self {change : Thread → Thread}
    (same : ∀ thread ∈ registry.threads, change thread = thread) :
    registry.update change = registry := by
  have entries : (registry.toIndices.update change).byId = registry.byId := by
    refine (List.map_congr_left fun entry member => ?_).trans (List.map_id _)
    have listed := registry.threads_perm.mem_iff.mpr (List.mem_map_of_mem member)
    simp [Thread.change, same entry.2 listed]
  have indices : registry.toIndices.update change = registry.toIndices :=
    congrArg (fun byId => { registry.toIndices with byId }) entries
  simp only [update, indices]

theorem of_mem_update {change : Thread → Thread}
    (member : thread ∈ (registry.update change).threads)
    (keeps : ∀ thread, ((change thread).id, (change thread).handle) = (thread.id, thread.handle)) :
    ∃ old ∈ registry.threads, change old = thread := by
  rwa [update_threads registry keeps, List.mem_map] at member

theorem modify_threads (registry : Registry) (id : Nat) {change : Thread → Thread}
    (keeps : ∀ thread, ((change thread).id, (change thread).handle) = (thread.id, thread.handle)) :
    (registry.modify id change).threads =
      registry.threads.map fun thread => if thread.id = id then change thread else thread := by
  refine update_threads registry fun thread => ?_
  split
  · exact keeps thread
  · rfl

theorem of_mem_modify {change : Thread → Thread}
    (member : thread ∈ (registry.modify id change).threads)
    (keeps : ∀ thread, ((change thread).id, (change thread).handle) = (thread.id, thread.handle)) :
    ∃ old ∈ registry.threads, (if old.id = id then change old else old) = thread := by
  rwa [modify_threads registry id keeps, List.mem_map] at member

theorem update_roster (registry : Registry) {change : Thread → Thread}
    (keeps : ∀ thread, ((change thread).id, (change thread).handle) = (thread.id, thread.handle)) :
    (registry.update change).roster = registry.roster := by
  rw [roster, update_threads registry keeps, List.map_map]
  exact List.map_congr_left fun thread _ => keeps thread

theorem modify_roster (registry : Registry) (id : Nat) {change : Thread → Thread}
    (keeps : ∀ thread, ((change thread).id, (change thread).handle) = (thread.id, thread.handle)) :
    (registry.modify id change).roster = registry.roster := by
  apply update_roster
  intro thread
  split
  · exact keeps thread
  · rfl

end DebugAdapter.Registry
