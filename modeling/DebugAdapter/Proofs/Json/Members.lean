import DebugAdapter.Json.Basic
import Mathlib.Data.String.Basic

/-! The members of an object as a map: what is found under a key once another has been set or
erased, and that members in order are determined by what is found in them. -/
namespace DebugAdapter.Json.Members

variable {key other : String} {value : Json} {members others rest : Members}

/-- Keys ascend, so that none is there twice. -/
def Ordered (members : Members) : Prop :=
  members.Pairwise fun first second => first.1 < second.1

theorem ordered_nil : Ordered [] :=
  List.Pairwise.nil

theorem find?_cons (key other : String) (value : Json) (rest : Members) :
    find? other ((key, value) :: rest) = if key = other then some value else find? other rest := by
  simp only [find?, List.find?_cons]
  by_cases same : key = other <;> simp [same]

theorem find?_append (key : String) (members others : Members) :
    find? key (members ++ others) = (find? key members).or (find? key others) := by
  simp only [find?, List.find?_append, Option.map_or]

theorem find?_eq_none (absent : ∀ member ∈ members, member.1 ≠ key) : find? key members = none := by
  simp only [find?, Option.map_eq_none_iff, List.find?_eq_none, decide_eq_true_eq]
  exact absent

@[simp] theorem find?_insert (key other : String) (value : Json) (members : Members) :
    find? other (insert key value members) =
      if key = other then some value else find? other members := by
  induction members with
  | nil => exact find?_cons key other value []
  | cons first rest ih =>
    obtain ⟨k, v⟩ := first
    unfold insert
    split
    · rename_i same
      subst same
      by_cases own : key = other <;> simp [find?_cons, own]
    · split
      · exact find?_cons key other value _
      · rename_i differs _
        rw [find?_cons, ih, find?_cons]
        by_cases own : key = other
        · simp [own ▸ Ne.symm differs, own]
        · simp [own]

@[simp] theorem find?_erase (key other : String) (members : Members) :
    find? other (erase key members) = if key = other then none else find? other members := by
  induction members with
  | nil => simp [erase, find?]
  | cons first rest ih =>
    obtain ⟨k, v⟩ := first
    unfold erase at ih ⊢
    by_cases own : k = key
    · rw [List.filter_cons_of_neg (by simp [own]), ih, find?_cons, own]
      by_cases asked : key = other <;> simp [asked]
    · rw [List.filter_cons_of_pos (by simp [own]), find?_cons, ih, find?_cons]
      by_cases asked : key = other
      · simp [asked ▸ own, asked]
      · simp [asked]

theorem mem_insert {member : String × Json} (inside : member ∈ insert key value members) :
    member = (key, value) ∨ member ∈ members := by
  induction members with
  | nil => exact Or.inl (List.mem_singleton.mp inside)
  | cons first rest ih =>
    obtain ⟨k, v⟩ := first
    unfold insert at inside
    split at inside
    · exact (List.mem_cons.mp inside).imp_right (List.mem_cons_of_mem _)
    · split at inside
      · exact List.mem_cons.mp inside
      · rcases List.mem_cons.mp inside with rfl | later
        · exact Or.inr List.mem_cons_self
        · exact (ih later).imp_right (List.mem_cons_of_mem _)

theorem Ordered.insert (ordered : Ordered members) (key : String) (value : Json) :
    Ordered (members.insert key value) := by
  induction members with
  | nil => exact List.pairwise_singleton _ _
  | cons first rest ih =>
    obtain ⟨k, v⟩ := first
    obtain ⟨above, ascending⟩ := List.pairwise_cons.mp ordered
    unfold Members.insert
    split
    · rename_i same
      exact List.pairwise_cons.mpr ⟨same ▸ above, ascending⟩
    · rename_i differs
      split
      · rename_i below
        refine List.pairwise_cons.mpr ⟨fun member inside => ?_, ordered⟩
        rcases List.mem_cons.mp inside with rfl | later
        · exact below
        · exact lt_trans below (above member later)
      · rename_i reaches
        have first : k < key := lt_of_le_of_ne (not_lt.mp reaches) (Ne.symm differs)
        refine List.pairwise_cons.mpr ⟨fun member inside => ?_, ih ascending⟩
        rcases mem_insert inside with rfl | old
        · exact first
        · exact above member old

theorem Ordered.erase (ordered : Ordered members) (key : String) : Ordered (members.erase key) :=
  ordered.filter _

/-- Below the first key nothing is found. -/
theorem Ordered.find?_below (ordered : Ordered ((key, value) :: rest)) (below : other ≤ key) :
    find? other rest = none := by
  refine find?_eq_none fun member inside same => ?_
  have above := (List.pairwise_cons.mp ordered).1 member inside
  exact lt_irrefl key (lt_of_lt_of_le (same ▸ above) below)

/-- Members in order are what is found in them. -/
theorem Ordered.ext (ordered : Ordered members) (ascending : Ordered others)
    (same : ∀ key, find? key members = find? key others) : members = others := by
  induction members generalizing others with
  | nil =>
    cases others with
    | nil => rfl
    | cons first rest =>
      have found := same first.1
      simp [find?] at found
  | cons first rest ih =>
    obtain ⟨k, v⟩ := first
    cases others with
    | nil =>
      have found := same k
      simp [find?] at found
    | cons second more =>
      obtain ⟨k', v'⟩ := second
      have heads : k = k' := by
        by_contra differs
        rcases le_total k k' with least | least
        · have found := same k
          rw [find?_cons, if_pos rfl, find?_cons, if_neg (Ne.symm differs),
            ascending.find?_below least] at found
          contradiction
        · have found := same k'
          rw [find?_cons, if_neg differs, find?_cons, if_pos rfl,
            ordered.find?_below least] at found
          contradiction
      subst heads
      have values : v = v' := by
        have found := same k
        simpa [find?_cons] using found
      subst values
      have tails : ∀ key, find? key rest = find? key more := by
        intro key
        by_cases own : k = key
        · subst own
          rw [ordered.find?_below (le_refl k), ascending.find?_below (le_refl k)]
        · have found := same key
          rwa [find?_cons, find?_cons, if_neg own, if_neg own] at found
      rw [ih (List.pairwise_cons.mp ordered).2 (List.pairwise_cons.mp ascending).2 tails]

end DebugAdapter.Json.Members
