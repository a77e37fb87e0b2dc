/-!
Finite maps with numbers for keys, as lists of their entries in no particular order.
-/

namespace DebugAdapter

abbrev Index (α : Type) := List (Nat × α)

namespace Index

def erase {α : Type} (key : Nat) (index : Index α) : Index α :=
  index.filter (·.1 ≠ key)

/-- Gives a key its value, in place of the one that it has. -/
def insert {α : Type} (key : Nat) (value : α) (index : Index α) : Index α :=
  (key, value) :: erase key index

/-- No key has two values. -/
def Distinct {α : Type} (index : Index α) : Prop :=
  (index.map (·.1)).Nodup

variable {α : Type} {index : Index α} {key other : Nat} {value : α}

theorem distinct_nil : Distinct ([] : Index α) :=
  List.nodup_nil

@[simp]
theorem mem_erase : (other, value) ∈ erase key index ↔ (other, value) ∈ index ∧ other ≠ key := by
  simp [erase]

@[simp]
theorem mem_insert {new : α} : (other, value) ∈ insert key new index ↔
    (other = key ∧ value = new) ∨ ((other, value) ∈ index ∧ other ≠ key) := by
  simp [insert]

theorem Distinct.erase (distinct : Distinct index) (key : Nat) : Distinct (erase key index) :=
  distinct.sublist (List.filter_sublist.map _)

theorem Distinct.insert (distinct : Distinct index) (key : Nat) (value : α) :
    Distinct (insert key value index) := by
  refine List.nodup_cons.mpr ⟨?_, distinct.erase key⟩
  simp [Index.erase]

theorem Distinct.unique (distinct : Distinct index) {second : α} (first : (key, value) ∈ index)
    (also : (key, second) ∈ index) : value = second := by
  induction index with
  | nil => contradiction
  | cons entry rest ih =>
    obtain ⟨apart, later⟩ := List.nodup_cons.mp distinct
    have absent (value : α) (member : (key, value) ∈ rest) : entry.1 ≠ key := by
      intro same
      exact apart (List.mem_map.mpr ⟨(key, value), member, same.symm⟩)
    rcases List.mem_cons.mp first with rfl | first <;> rcases List.mem_cons.mp also with same | also
    · exact (Prod.mk.inj same).2.symm
    · exact absurd rfl (absent second also)
    · exact absurd (congrArg Prod.fst same).symm (absent value first)
    · exact ih later first also

theorem mem_of_lookup (found : index.lookup key = some value) : (key, value) ∈ index := by
  obtain ⟨before, after, rfl, -⟩ := List.lookup_eq_some_iff.mp found
  simp

theorem Distinct.lookup_eq_some (distinct : Distinct index) :
    index.lookup key = some value ↔ (key, value) ∈ index := by
  refine ⟨mem_of_lookup, fun member => ?_⟩
  cases found : index.lookup key with
  | none =>
    have apart := List.lookup_eq_none_iff.mp found _ member
    simp at apart
  | some other => rw [distinct.unique (mem_of_lookup found) member]

theorem lookup_eq_none : index.lookup key = none ↔ ∀ value, (key, value) ∉ index := by
  rw [List.lookup_eq_none_iff]
  constructor
  · intro apart value member
    simpa using apart _ member
  · rintro absent ⟨other, value⟩ member
    have : key ≠ other := by
      rintro rfl
      exact absent value member
    simpa using this

end Index

end DebugAdapter
