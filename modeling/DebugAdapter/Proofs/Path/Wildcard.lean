import DebugAdapter.Path.SourceMap
import DebugAdapter.Proofs.Text.Parts

/-! Rules with a star. The star stands for the text before the first occurrence of what follows it.
Where that occurrence ends inside of a segment, no later one is tried. -/
namespace DebugAdapter.Path

open Text

/-- A pattern may end here: at the end of a segment, or with the path if it ends in its star. -/
def Ends (tail rest : List Char) : Prop :=
  if tail = [] then rest = []
  else endsWith '/' tail = true ∨ rest = [] ∨ startsWith '/' rest = true

/-- A path as a pattern reads it, with the text that the star stands for and what follows. -/
structure Covers (head tail path captured rest : List Char) : Prop where
  whole : path = head ++ captured ++ tail ++ rest
  ends : Ends tail rest

variable {head tail path captured rest : List Char}

theorem covers_empty : Covers head [] path captured rest ↔ path = head ++ captured ∧ rest = [] := by
  constructor
  · rintro ⟨rfl, ends⟩
    obtain rfl : rest = [] := by simpa [Ends] using ends
    exact ⟨by simp, rfl⟩
  · rintro ⟨rfl, rfl⟩
    exact ⟨by simp, by simp [Ends]⟩

theorem ends_iff (given : tail ≠ []) :
    (endsWith '/' tail || rest.isEmpty || startsWith '/' rest) = true ↔ Ends tail rest := by
  simp [Ends, given, or_assoc]

namespace Rule

theorem capture?_empty (path : List Char) : capture? [] path = some (path, []) := rfl

theorem capture?_eq_some (given : tail ≠ []) : capture? tail path = some (captured, rest) ↔
    splitFirst? tail path = some (captured, rest) ∧ Ends tail rest := by
  have nonempty : tail.isEmpty = false := by simpa using given
  rw [capture?, nonempty, if_neg Bool.false_ne_true]
  cases splitFirst? tail path with
  | none => exact ⟨nofun, nofun⟩
  | some parts =>
    rw [Option.ite_none_right_eq_some, ends_iff given, and_comm]
    exact and_congr_right fun same => by cases same; exact Iff.rfl

variable {clientHead clientTail mapped : List Char}

theorem wildcard_eq_some :
    (Rule.wildcard head tail clientHead clientTail).toClient? path = some mapped ↔
      ∃ rest captured remainder, path = head ++ rest ∧
        capture? tail rest = some (captured, remainder) ∧
        mapped = joinMapped (clientHead ++ captured ++ clientTail) remainder := by
  simp only [toClient?, Option.bind_eq_bind, Option.bind_eq_some_iff,
    List.isPrefixOf?_eq_some_iff_append_eq, Option.pure_def, Option.some.injEq]
  constructor
  · rintro ⟨rest, rfl, ⟨captured, remainder⟩, found, rfl⟩
    exact ⟨rest, captured, remainder, rfl, found, rfl⟩
  · rintro ⟨rest, captured, remainder, rfl, found, rfl⟩
    exact ⟨rest, rfl, (captured, remainder), found, rfl⟩

theorem covers_first
    (applies : (Rule.wildcard head tail clientHead clientTail).toClient? path = some mapped) :
    ∃ captured rest, Covers head tail path captured rest ∧
      (tail ≠ [] → ∀ front back, path = head ++ front ++ tail ++ back →
        captured.length ≤ front.length) ∧
      mapped = joinMapped (clientHead ++ captured ++ clientTail) rest := by
  obtain ⟨path, captured, rest, rfl, found, same⟩ := wildcard_eq_some.mp applies
  refine ⟨captured, rest, ?_, ?_, same⟩
  · by_cases given : tail = []
    · subst given
      rw [capture?_empty] at found
      cases found
      exact covers_empty.mpr ⟨rfl, rfl⟩
    · obtain ⟨first, ends⟩ := (capture?_eq_some given).mp found
      exact ⟨by simp [(splitFirst?_shortest first).1], ends⟩
  · intro given front back split
    obtain ⟨first, -⟩ := (capture?_eq_some given).mp found
    refine (splitFirst?_shortest first).2 front back ?_
    simpa only [List.append_assoc, List.append_cancel_left_eq] using split

theorem covers_missed
    (missed : (Rule.wildcard head tail clientHead clientTail).toClient? path = none)
    (covers : Covers head tail path captured rest) :
    tail ≠ [] ∧ ∃ front back, path = head ++ front ++ tail ++ back ∧
      front.length < captured.length ∧ ¬Ends tail back := by
  obtain ⟨rfl, ends⟩ := covers
  have refused (first after : List Char) :
      capture? tail (captured ++ tail ++ rest) ≠ some (first, after) := by
    intro found
    have whole : head ++ captured ++ tail ++ rest = head ++ (captured ++ tail ++ rest) := by
      simp only [List.append_assoc]
    rw [wildcard_eq_some.mpr ⟨_, first, after, whole, found, rfl⟩] at missed
    contradiction
  have given : tail ≠ [] := by
    rintro rfl
    exact refused _ _ (capture?_empty _)
  refine ⟨given, ?_⟩
  cases first : splitFirst? tail (captured ++ tail ++ rest) with
  | none => exact absurd rfl (splitFirst?_eq_none.mp first captured rest)
  | some parts =>
    obtain ⟨front, back⟩ := parts
    obtain ⟨whole, shortest⟩ := splitFirst?_shortest first
    have unended : ¬Ends tail back := fun ends =>
      refused front back ((capture?_eq_some given).mpr ⟨first, ends⟩)
    refine ⟨front, back, ?_, Nat.lt_of_le_of_ne (shortest captured rest rfl) ?_, unended⟩
    · simpa only [List.append_assoc, List.append_cancel_left_eq] using whole
    · intro same
      rw [List.append_assoc, List.append_assoc] at whole
      obtain ⟨-, after⟩ := List.append_inj whole same.symm
      exact unended (List.append_cancel_left after ▸ ends)

end Rule

/-- A rule with a star that applies takes the shortest text for the star. It fails to apply only
where every way to read the path has an occurrence of the tail before it that ends inside of a
segment; so never without reason if the tail is empty or ends in a slash. -/
theorem wildcard_takes_first (head tail clientHead clientTail path : List Char) :
    (∀ mapped, (Rule.wildcard head tail clientHead clientTail).toClient? path = some mapped →
      ∃ captured rest, Covers head tail path captured rest ∧
        (∀ other after, Covers head tail path other after → captured.length ≤ other.length) ∧
        mapped = joinMapped (clientHead ++ captured ++ clientTail) rest) ∧
    ((Rule.wildcard head tail clientHead clientTail).toClient? path = none ↔
      ∀ captured rest, Covers head tail path captured rest →
        tail ≠ [] ∧ ∃ front back, path = head ++ front ++ tail ++ back ∧
          front.length < captured.length ∧ ¬Ends tail back) ∧
    (tail = [] ∨ endsWith '/' tail = true →
      ((Rule.wildcard head tail clientHead clientTail).toClient? path = none ↔
        ¬∃ captured rest, Covers head tail path captured rest)) := by
  have missed : (Rule.wildcard head tail clientHead clientTail).toClient? path = none ↔
      ∀ captured rest, Covers head tail path captured rest →
        tail ≠ [] ∧ ∃ front back, path = head ++ front ++ tail ++ back ∧
          front.length < captured.length ∧ ¬Ends tail back := by
    constructor
    · intro missed captured rest covers
      exact Rule.covers_missed missed covers
    · intro before
      cases applied : (Rule.wildcard head tail clientHead clientTail).toClient? path with
      | none => rfl
      | some mapped =>
        obtain ⟨captured, rest, covers, first, -⟩ := Rule.covers_first applied
        obtain ⟨given, front, back, split, shorter, -⟩ := before captured rest covers
        exact absurd (first given front back split) (Nat.not_le.mpr shorter)
  refine ⟨?_, missed, ?_⟩
  · intro mapped applied
    obtain ⟨captured, rest, covers, first, same⟩ := Rule.covers_first applied
    refine ⟨captured, rest, covers, ?_, same⟩
    intro other after also
    by_cases given : tail = []
    · subst given
      have same := (covers_empty.mp covers).1.symm.trans (covers_empty.mp also).1
      exact Nat.le_of_eq (congrArg List.length (List.append_cancel_left same))
    · exact first given other after also.whole
  · intro free
    rw [missed]
    constructor
    · rintro before ⟨captured, rest, covers⟩
      obtain ⟨given, front, back, -, -, unended⟩ := before captured rest covers
      exact unended ((if_neg given).mpr (.inl (free.resolve_left given)))
    · intro uncovered captured rest covers
      exact absurd ⟨captured, rest, covers⟩ uncovered

theorem wildcard_takes_first_of_two :
    let rule := Rule.wildcard "/pkg/".toList "/lua/".toList "c:/mods/".toList "/scripts/".toList
    let path := "/pkg/net/lua/lua/x".toList
    endsWith '/' "/lua/".toList = true ∧
      Covers "/pkg/".toList "/lua/".toList path "net/lua".toList "x".toList ∧
      rule.toClient? path ≠ none ∧
      rule.toClient? path = some "c:/mods/net/scripts/lua/x".toList := by
  intro rule path
  have slash : endsWith '/' "/lua/".toList = true := by decide +kernel
  have covers : Covers "/pkg/".toList "/lua/".toList path "net/lua".toList "x".toList :=
    ⟨by decide +kernel, (if_neg (by decide +kernel)).mpr (.inl slash)⟩
  have complete := (wildcard_takes_first "/pkg/".toList "/lua/".toList "c:/mods/".toList
    "/scripts/".toList path).2.2 (.inr slash)
  exact ⟨slash, covers, fun missed => complete.mp missed ⟨_, _, covers⟩, by decide +kernel⟩

/-- A segment that goes on after the tail hides the segment that does not. -/
theorem wildcard_misses_match : ¬∀ (server client head tail clientHead clientTail : List Char)
    (path captured rest : List Char),
    Rule.parse server client = .ok (.wildcard head tail clientHead clientTail) →
    normal path = path → Covers head tail path captured rest →
    (Rule.wildcard head tail clientHead clientTail).toClient? path ≠ none := by
  intro complete
  have applies := complete "/pkg/*/lua".toList "/mods/*/scripts".toList "/pkg/".toList "/lua".toList
    "/mods/".toList "/scripts".toList "/pkg/net/luax/lua/socket.lua".toList "net/luax".toList
    "/socket.lua".toList (by decide +kernel) (by decide +kernel)
    ⟨by decide +kernel, (if_neg (by decide +kernel)).mpr (.inr (.inr (by decide +kernel)))⟩
  exact applies (by decide +kernel)

end DebugAdapter.Path
