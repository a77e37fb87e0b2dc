import DebugAdapter.Proofs.Path.Normal

/-!
The shape of a normal form, read off its text: which segments stand between its slashes, and how it
begins. A drive counts as part of the first segment.
-/
namespace DebugAdapter.Path

open Text

/-- A path without a slash at its start and one at its end. -/
def innerText (path : List Char) : List Char :=
  let rest := if startsWith '/' path then path.tail else path
  if endsWith '/' rest then rest.dropLast else rest

def segmentsOf (path : List Char) : List (List Char) :=
  if innerText path = [] then [] else split '/' (innerText path)

theorem innerText_enclosed {text : List Char} (unstarted : startsWith '/' text = false)
    (unended : endsWith '/' text = false) (leading : Bool) {trailing : Bool}
    (given : trailing = true → text ≠ []) :
    innerText ((if leading then ['/'] else []) ++ text ++ if trailing then ['/'] else []) = text := by
  have ended : (if endsWith '/' (text ++ if trailing then ['/'] else []) then
      (text ++ if trailing then ['/'] else []).dropLast
      else text ++ if trailing then ['/'] else []) = text := by
    cases trailing with
    | false => simp [unended]
    | true => simp [endsWith]
  cases leading with
  | true => simpa [innerText, startsWith] using ended
  | false =>
    have begun : startsWith '/' (text ++ if trailing then ['/'] else []) = false := by
      cases text with
      | nil => cases trailing with
        | false => rfl
        | true => exact absurd rfl (given rfl)
      | cons c rest => exact unstarted
    simpa [innerText, begun] using ended

theorem segmentsOf_enclosed {parts : List (List Char)}
    (proper : ∀ part ∈ parts, part ≠ [] ∧ '/' ∉ part) (leading : Bool) {trailing : Bool}
    (given : trailing = true → parts ≠ []) :
    segmentsOf ((if leading then ['/'] else []) ++ join '/' parts ++
      if trailing then ['/'] else []) = parts := by
  have free : ∀ part ∈ parts, '/' ∉ part := fun part member => (proper part member).2
  have begun : startsWith '/' (join '/' parts) = false :=
    Form.join_starts free fun first => (proper [] (List.mem_of_head? first)).1 rfl
  have ended : endsWith '/' (join '/' parts) = false :=
    Form.join_ends free fun last => (proper [] (List.mem_of_getLast? last)).1 rfl
  have nonempty : parts ≠ [] → join '/' parts ≠ [] := by
    intro some none
    have whole := split_join free some
    rw [none] at whole
    exact (proper [] (whole ▸ List.mem_singleton_self [])).1 rfl
  rw [segmentsOf, innerText_enclosed begun ended leading fun slash => nonempty (given slash)]
  by_cases empty : parts = []
  · simp [empty, join]
  · rw [if_neg (nonempty empty), split_join free empty]

namespace Form

variable {form : Form}

/-- The segments as they are written, the first of them behind the drive. -/
def written (form : Form) : List (List Char) :=
  match form.drive with
  | none => form.segments
  | some letter =>
    if form.rooted then [letter, ':'] :: form.segments
    else
      match form.segments with
      | [] => [[letter, ':']]
      | first :: rest => (letter :: ':' :: first) :: rest

/-- Whether the text begins with a slash: the root of a drive comes behind the drive. -/
def leading (form : Form) : Bool :=
  form.drive.isNone && form.rooted

theorem chars_eq_written (form : Form) : ∃ trailing : Bool,
    (trailing = true → form.written ≠ []) ∧ form.chars =
      (if form.leading then ['/'] else []) ++ join '/' form.written ++
        if trailing then ['/'] else [] := by
  obtain ⟨drive, rooted, segments, trailing⟩ := form
  cases drive with
  | none =>
    refine ⟨trailing && !segments.isEmpty, ?_, ?_⟩
    · intro ended
      rintro (empty : segments = [])
      simp [empty] at ended
    · simp [chars, root, written, leading]
  | some letter =>
    cases segments with
    | nil =>
      -- The slash behind a drive alone is both its root and the end of the path.
      refine ⟨rooted, fun _ => ?_, ?_⟩ <;> cases rooted <;>
        simp [chars, root, written, leading, join]
    | cons segment rest =>
      refine ⟨trailing, fun _ => ?_, ?_⟩ <;> cases rooted <;>
        simp [chars, root, written, leading, join_cons]

namespace Proper

theorem written_plain (proper : form.Proper) :
    ∀ segment ∈ form.written, segment ≠ [] ∧ '/' ∉ segment := by
  have plain : ∀ segment ∈ form.segments, segment ≠ [] ∧ '/' ∉ segment := fun segment member =>
    ⟨(proper.segments.proper segment member).1, (proper.plain segment member).1⟩
  have letter : ∀ letter, form.drive = some letter → '/' ≠ letter := by
    rintro _ drive rfl
    exact absurd (proper.letter _ drive).1 (by decide)
  unfold written
  split
  · exact plain
  · rename_i drive given
    have other := letter drive given
    split
    · exact List.forall_mem_cons.mpr ⟨by simp [other], plain⟩
    · split
      · simp [other]
      · rename_i first rest same
        rw [same] at plain
        obtain ⟨head, later⟩ := List.forall_mem_cons.mp plain
        exact List.forall_mem_cons.mpr ⟨by simp [other, head.2], later⟩

theorem written_resolved (proper : form.Proper) :
    Resolved (anchored form.drive form.rooted) form.written := by
  unfold written
  split
  · exact proper.segments
  · rename_i letter drive
    have high : anchored form.drive form.rooted = true := by simp [anchored, drive]
    have resolved := proper.segments
    rw [high] at resolved ⊢
    have lower := resolved.below rfl
    have alone (drive : List Char) (long : drive ≠ []) :
        drive ≠ current ∧ drive ≠ parent → Resolved true [drive] := by
      rintro ⟨one, two⟩
      exact ⟨by simp [long, one], by simp, by simp [two.symm]⟩
    split
    · refine (alone [letter, ':'] (by simp) (by simp [current, parent])).append resolved.proper lower
    · split
      · exact alone _ (by simp) (by simp [current, parent])
      · rename_i first rest same
        rw [same] at resolved lower
        refine (alone (letter :: ':' :: first) (by simp) (by simp [current, parent])).append
          (fun segment member => resolved.proper segment (List.mem_cons_of_mem _ member)) ?_
        exact fun member => lower (List.mem_cons_of_mem _ member)

theorem segmentsOf_chars (proper : form.Proper) : segmentsOf form.chars = form.written := by
  obtain ⟨trailing, given, whole⟩ := form.chars_eq_written
  rw [whole, segmentsOf_enclosed proper.written_plain form.leading given]

theorem startsWith_chars (proper : form.Proper) : startsWith '/' form.chars = form.leading := by
  rw [chars_eq]
  have start := proper.parts_start
  obtain ⟨drive, rooted, segments, trailing⟩ := form
  cases drive with
  | none => cases rooted with
    | false => simpa [root, leading] using start
    | true => rfl
  | some letter =>
    have other : letter ≠ '/' := by
      rintro rfl
      exact absurd (proper.letter _ rfl).1 (by decide)
    cases rooted <;> simp [root, leading, startsWith, other]

theorem segmentsOf_resolved (proper : form.Proper) :
    Resolved (startsWith '/' form.chars) (segmentsOf form.chars) := by
  have resolved := proper.written_resolved
  rw [proper.segmentsOf_chars, proper.startsWith_chars]
  refine ⟨resolved.proper, resolved.leading, fun begun => resolved.below ?_⟩
  simp only [leading, Bool.and_eq_true] at begun
  simp [anchored, begun.2]

end Proper

end Form

def IsSlash (c : Char) : Prop :=
  c = '/' ∨ c = '\\'

variable {text rest : List Char} {slash letter : Char}

theorem slashed_cons (isSlash : IsSlash slash) (rest : List Char) :
    slashed (slash :: rest) = '/' :: slashed rest := by
  rcases isSlash with rfl | rfl <;> rfl

/-- Nothing lies above the root, so it stays however many `..` come behind it. -/
theorem normal_rooted (isSlash : IsSlash slash) (trimmed : trim text = slash :: rest) :
    ['/'] <+: normal text := by
  have shape : slashed (trim text) = '/' :: slashed rest := by rw [trimmed, slashed_cons isSlash]
  have root : (Form.ofChars text).root = ['/'] := by
    rw [Form.ofChars_eq, shape, splitDrive_root]
    rfl
  rw [normal, Form.chars_eq, root]
  exact List.prefix_append _ _

theorem normal_drive_rooted (alpha : letter.isAlpha = true) (isSlash : IsSlash slash)
    (trimmed : trim text = letter :: ':' :: slash :: rest) :
    [letter.toLower, ':', '/'] <+: normal text := by
  have straight : letter ≠ '\\' := by
    rintro rfl
    contradiction
  have shape : slashed (trim text) = letter :: ':' :: '/' :: slashed rest := by
    have tail := slashed_cons isSlash rest
    rw [trimmed]
    simp only [slashed, List.map_cons, if_neg straight] at tail ⊢
    rw [tail]
    rfl
  have root : (Form.ofChars text).root = [letter.toLower, ':', '/'] := by
    rw [Form.ofChars_eq, shape, splitDrive_letter alpha]
    rfl
  rw [normal, Form.chars_eq, root]
  exact List.prefix_append _ _

/-- The segments in a normal form are neither empty nor `.`, and `..` comes only before all others,
not at all behind a slash at the start; no backslash is left, and a root is kept. -/
theorem normalize_shape (path : String) :
    '\\' ∉ (normalize path).toList ∧
    Form.Resolved (startsWith '/' (normalize path).toList) (segmentsOf (normalize path).toList) ∧
    (∀ slash rest, IsSlash slash → trim path.toList = slash :: rest →
      ['/'] <+: (normalize path).toList) ∧
    ∀ letter slash rest, letter.isAlpha = true → IsSlash slash →
      trim path.toList = letter :: ':' :: slash :: rest →
      [letter.toLower, ':', '/'] <+: (normalize path).toList := by
  have proper := Form.ofChars_proper path.toList
  rw [normalize, String.toList_ofList]
  refine ⟨proper.straight, proper.segmentsOf_resolved, ?_, ?_⟩
  · intro slash rest isSlash trimmed
    exact normal_rooted isSlash trimmed
  · intro letter slash rest alpha isSlash trimmed
    exact normal_drive_rooted alpha isSlash trimmed

theorem normalize_shape_above_root :
    normalize " \\..\\a\\..\\..\\b" = "/b" ∧ ['/'] <+: (normalize " \\..\\a\\..\\..\\b").toList ∧
    normalize "C:\\..\\a\\..\\.." = "c:/" ∧
    ['c', ':', '/'] <+: (normalize "C:\\..\\a\\..\\..").toList := by
  refine ⟨by decide +kernel, ?_, by decide +kernel, ?_⟩
  · exact (normalize_shape _).2.2.1 '\\' "..\\a\\..\\..\\b".toList (.inr rfl) (by decide +kernel)
  · exact (normalize_shape _).2.2.2 'C' '\\' "..\\a\\..\\..".toList rfl (.inr rfl)
      (by decide +kernel)

end DebugAdapter.Path
