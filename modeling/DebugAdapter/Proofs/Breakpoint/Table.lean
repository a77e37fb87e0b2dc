import DebugAdapter.Breakpoint.Table

/-! Which breakpoints a table installs, and how often they have been hit. -/
namespace DebugAdapter.Breakpoint

theorem Lines.mem_insert {breakpoint other : LineBreakpoint} {lines : Lines}
    (member : other ∈ Lines.insert breakpoint lines) : other = breakpoint ∨ other ∈ lines := by
  induction lines with
  | nil => exact Or.inl (List.mem_singleton.mp member)
  | cons first rest ih =>
    simp only [insert] at member
    split at member
    · rcases List.mem_cons.mp member with rfl | later
      · exact Or.inr List.mem_cons_self
      · exact (ih later).imp_right (List.mem_cons_of_mem first)
    · exact List.mem_cons.mp member

namespace Table

variable {table : Table}

/-- The breakpoints that a table installs have not been hit. -/
def Unhit (table : Table) : Prop :=
  ∀ entry ∈ table.sources, ∀ breakpoint ∈ entry.2, breakpoint.hits = 0

theorem get?_mem {key : String} {line : Nat} {breakpoint : LineBreakpoint}
    (found : table.get? key line = some breakpoint) :
    ∃ lines, (key, lines) ∈ table.sources ∧ breakpoint ∈ lines := by
  have member := List.mem_of_find?_eq_some found
  unfold lines at member
  cases installed : table.sources.lookup key with
  | none => simp [installed] at member
  | some lines =>
    obtain ⟨before, after, split, _⟩ := List.lookup_eq_some_iff.mp installed
    exact ⟨lines, by simp [split], by simpa [installed] using member⟩

theorem Unhit.get? (unhit : table.Unhit) {key : String} {line : Nat}
    {breakpoint : LineBreakpoint} (found : table.get? key line = some breakpoint) :
    breakpoint.hits = 0 := by
  obtain ⟨lines, installed, member⟩ := get?_mem found
  exact unhit _ installed breakpoint member

theorem Draft.add_unhit {draft : Draft} (source : Source) (request : Request)
    (unhit : ∀ breakpoint ∈ draft.lines, breakpoint.hits = 0) :
    ∀ breakpoint ∈ (draft.add source request).lines, breakpoint.hits = 0 := by
  unfold add
  split
  · exact unhit
  · dsimp only
    split
    · exact unhit
    · intro breakpoint member
      rcases Lines.mem_insert member with rfl | old
      · rfl
      · exact unhit breakpoint old

theorem Draft.foldl_unhit {draft : Draft} (source : Source) (requests : List Request)
    (unhit : ∀ breakpoint ∈ draft.lines, breakpoint.hits = 0) :
    ∀ breakpoint ∈ (requests.foldl (Draft.add source) draft).lines, breakpoint.hits = 0 := by
  induction requests generalizing draft with
  | nil => exact unhit
  | cons request rest ih => exact ih (add_unhit source request unhit)

theorem Unhit.replace (unhit : table.Unhit) (key : String) (source : Source)
    (requests : List Request) : (table.replace key source requests).1.Unhit := by
  have fresh : ∀ breakpoint ∈ (requests.foldl (Draft.add source) { nextId := table.nextId }).lines,
      breakpoint.hits = 0 :=
    Draft.foldl_unhit source requests fun _ member => absurd member List.not_mem_nil
  intro entry member
  simp only [Table.replace, setLines] at member
  have others : entry ∈ table.sources.filter (·.1 ≠ key) →
      ∀ breakpoint ∈ entry.2, breakpoint.hits = 0 :=
    fun kept => unhit entry (List.mem_filter.mp kept).1
  split at member
  · exact others member
  · rcases List.mem_cons.mp member with rfl | kept
    · exact fresh
    · exact others kept

theorem lookup_filter_ne {sources : List (String × Lines)} {key other : String}
    (apart : other ≠ key) :
    (sources.filter (·.1 ≠ key)).lookup other = sources.lookup other := by
  induction sources with
  | nil => rfl
  | cons entry rest ih =>
    obtain ⟨name, lines⟩ := entry
    by_cases own : name = key
    · rw [List.filter_cons_of_neg (by simp [own]), ih, List.lookup_cons]
      simp only [own, beq_eq_false_iff_ne.mpr apart]
    · rw [List.filter_cons_of_pos (by simp [own]), List.lookup_cons, List.lookup_cons, ih]

theorem lines_replace_of_ne (table : Table) {key other : String} (apart : other ≠ key)
    (source : Source) (requests : List Request) :
    (table.replace key source requests).1.lines other = table.lines other := by
  simp only [replace, lines, setLines]
  split
  · rw [lookup_filter_ne apart]
  · rw [List.lookup_cons, beq_eq_false_iff_ne.mpr apart]
    simp only [lookup_filter_ne apart]

theorem get?_replace_of_ne (table : Table) {key other : String} (apart : other ≠ key)
    (source : Source) (requests : List Request) (line : Nat) :
    (table.replace key source requests).1.get? other line = table.get? other line :=
  congrArg (Lines.find? line) (lines_replace_of_ne table apart source requests)

theorem lines_replace (table : Table) (key : String) (source : Source) (requests : List Request) :
    (table.replace key source requests).1.lines key =
      (requests.foldl (Draft.add source) { nextId := table.nextId }).lines := by
  simp only [replace, lines, setLines]
  split
  · rename_i empty
    have absent : (table.sources.filter (·.1 ≠ key)).lookup key = none := by
      refine List.lookup_eq_none_iff.mpr fun entry kept => ?_
      have other : entry.1 ≠ key := of_decide_eq_true (List.mem_filter.mp kept).2
      exact bne_iff_ne.mpr other.symm
    rw [absent, List.isEmpty_iff.mp empty]
    rfl
  · rw [List.lookup_cons_self]
    rfl

theorem lookup_change (sources : List (String × Lines)) (key : String) (change : Lines → Lines)
    (other : String) :
    (sources.map fun (name, lines) =>
      if name = key then (name, change lines) else (name, lines)).lookup other =
        (sources.lookup other).map fun lines => if other = key then change lines else lines := by
  induction sources with
  | nil => rfl
  | cons entry rest ih =>
    obtain ⟨name, lines⟩ := entry
    have head : (if name = key then (name, change lines) else (name, lines)) =
        (name, if name = key then change lines else lines) := by split <;> rfl
    rw [List.map_cons]
    dsimp only
    rw [head, List.lookup_cons, List.lookup_cons, ih]
    by_cases own : other = name
    · subst own
      rw [beq_self_eq_true, Option.map_some]
    · rw [beq_eq_false_iff_ne.mpr own]

theorem lines_recordHit (table : Table) (key : String) (line : Nat) (other : String) :
    (table.recordHit key line).1.lines other = (table.lines other).map fun breakpoint =>
      if other = key ∧ breakpoint.line = line then
        { breakpoint with hits := (table.recordHit key line).2 }
      else breakpoint := by
  unfold recordHit
  cases found : table.get? key line with
  | none =>
    symm
    refine (List.map_congr_left fun breakpoint member => if_neg ?_).trans (List.map_id _)
    rintro ⟨rfl, same⟩
    exact absurd same (by simpa using List.find?_eq_none.mp found breakpoint member)
  | some breakpoint =>
    dsimp only
    rw [lines, lookup_change, lines]
    cases table.sources.lookup other with
    | none => rfl
    | some lines =>
      by_cases own : other = key
      · simp [own]
      · simp [own]

theorem find?_map_line (change : LineBreakpoint → LineBreakpoint) (lines : Lines) (line : Nat)
    (kept : ∀ breakpoint, (change breakpoint).line = breakpoint.line) :
    Lines.find? line (lines.map change) = (Lines.find? line lines).map change := by
  rw [Lines.find?, List.find?_map]
  simp only [Function.comp_def, kept]
  rfl

/-- The hits of a breakpoint go up by one, as far as they are counted. -/
theorem get?_recordHit {key : String} {line : Nat} {breakpoint : LineBreakpoint}
    (found : table.get? key line = some breakpoint) :
    (table.recordHit key line).2 = min (breakpoint.hits + 1) maxHits ∧
      (table.recordHit key line).1.get? key line =
        some { breakpoint with hits := min (breakpoint.hits + 1) maxHits } := by
  have count : (table.recordHit key line).2 = min (breakpoint.hits + 1) maxHits := by
    simp only [recordHit, found]
  refine ⟨count, ?_⟩
  have line_eq : breakpoint.line = line := by simpa using List.find?_some found
  have same : Lines.find? line (table.lines key) = some breakpoint := found
  rw [get?, lines_recordHit, find?_map_line _ _ _ fun _ => by split <;> rfl, same, count]
  simp [line_eq]

theorem get?_recordHit_of_ne {key other : String} {line place : Nat}
    (apart : ¬(other = key ∧ place = line)) :
    (table.recordHit key line).1.get? other place = table.get? other place := by
  rw [get?, lines_recordHit, find?_map_line _ _ _ fun _ => by split <;> rfl]
  change (table.get? other place).map _ = _
  cases found : table.get? other place with
  | none => rfl
  | some breakpoint =>
    have line_eq : breakpoint.line = place := by simpa using List.find?_some found
    rw [Option.map_some, if_neg (line_eq ▸ apart)]

theorem Draft.add_reports (source : Source) (draft : Draft) (request : Request) :
    (draft.add source request).reports.map (·.line) =
      draft.reports.map (·.line) ++ [request.line] := by
  unfold add
  split
  · simp
  · dsimp only
    split <;> simp

theorem replace_reports (table : Table) (key : String) (source : Source)
    (requests : List Request) :
    (table.replace key source requests).2.map (·.line) = requests.map (·.line) := by
  have reported (draft : Draft) : (requests.foldl (Draft.add source) draft).reports.map (·.line) =
      draft.reports.map (·.line) ++ requests.map (·.line) := by
    induction requests generalizing draft with
    | nil => simp
    | cons request rest ih => simp [ih, Draft.add_reports]
  exact reported { nextId := table.nextId }

end Table
end DebugAdapter.Breakpoint
