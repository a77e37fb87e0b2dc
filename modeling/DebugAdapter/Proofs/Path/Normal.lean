import DebugAdapter.Path.Normal
import DebugAdapter.Proofs.Text.Parts

/-!
The normal form of a path, read and written. Reading resolves `.` and `..` to segments that
resolving leaves alone; writing puts the root before them and separators between. What has been
written is read as the form it was written from, unless its beginning looks like a drive or it is
not trimmed.
-/
namespace DebugAdapter.Path

open Text

namespace Form

/-- Segments that are left once `.` and `..` are resolved: `..` comes before all others, and not at
all in an anchored path. -/
structure Resolved (anchored : Bool) (segments : List (List Char)) : Prop where
  proper : ∀ segment ∈ segments, segment ≠ [] ∧ segment ≠ current
  leading : segments.Pairwise fun before after => after = parent → before = parent
  below : anchored = true → parent ∉ segments

variable {anchored : Bool} {segment : List Char} {segments resolved : List (List Char)}

theorem resolved_nil (anchored : Bool) : Resolved anchored [] :=
  ⟨by simp, List.Pairwise.nil, by simp⟩

theorem Resolved.append_left {more : List (List Char)}
    (whole : Resolved anchored (segments ++ more)) : Resolved anchored segments :=
  ⟨fun segment member => whole.proper segment (List.mem_append_left more member),
    (List.pairwise_append.mp whole.leading).1,
    fun high member => whole.below high (List.mem_append_left more member)⟩

/-- Segments without `..` may follow any others. -/
theorem Resolved.append {more : List (List Char)} (first : Resolved anchored segments)
    (proper : ∀ segment ∈ more, segment ≠ [] ∧ segment ≠ current) (lower : parent ∉ more) :
    Resolved anchored (segments ++ more) := by
  refine ⟨?_, ?_, ?_⟩
  · intro segment member
    exact (List.mem_append.mp member).elim (first.proper segment) (proper segment)
  · refine List.pairwise_append.mpr ⟨first.leading, ?_, ?_⟩
    · exact List.pairwise_of_forall_mem_list fun _ _ _ member up => absurd (up ▸ member) lower
    · exact fun _ _ after member up => absurd (up ▸ member) lower
  · intro high member
    exact (List.mem_append.mp member).elim (first.below high) lower

theorem push_nil (anchored : Bool) (resolved : List (List Char)) :
    push anchored resolved [] = resolved := rfl

theorem push_other (proper : segment ≠ [] ∧ segment ≠ current) (lower : segment ≠ parent) :
    push anchored resolved segment = segment :: resolved := by
  simp [push, proper, lower]

/-- What `..` does to the segments before it. -/
theorem push_parent (anchored : Bool) (resolved : List (List Char)) :
    push anchored resolved parent = match resolved with
      | top :: below =>
        if top ≠ parent then below else if anchored then resolved else parent :: resolved
      | [] => if anchored then [] else [parent] := by
  cases resolved <;> simp [push, parent, current]

theorem push_resolved (whole : Resolved anchored ((segment :: resolved).reverse)) :
    push anchored resolved segment = segment :: resolved := by
  have proper := whole.proper segment (by simp)
  by_cases up : segment = parent
  · subst up
    have open_ : anchored = false := by
      by_contra high
      exact whole.below (by simpa using high) (by simp)
    rw [push_parent, open_]
    cases resolved with
    | nil => rfl
    | cons top below =>
      have above : top = parent := by
        have order := whole.leading
        rw [List.pairwise_reverse] at order
        exact (List.pairwise_cons.mp order).1 top List.mem_cons_self rfl
      simp [above]
  · exact push_other proper up

theorem resolved_push (before : Resolved anchored resolved.reverse) (segment : List Char) :
    Resolved anchored (push anchored resolved segment).reverse := by
  by_cases proper : segment ≠ [] ∧ segment ≠ current
  · by_cases up : segment = parent
    · subst up
      rw [push_parent]
      cases resolved with
      | nil =>
        cases anchored with
        | true => exact before
        | false => exact ⟨by simp [parent, current], by simp, by simp⟩
      | cons top under =>
        dsimp only
        split
        · rw [List.reverse_cons] at before
          exact before.append_left
        · rename_i up
          rw [not_not] at up
          subst up
          cases anchored with
          | true => exact absurd (by simp) (before.below rfl)
          | false =>
            have order := before.leading
            rw [List.pairwise_reverse] at order
            have all : ∀ other ∈ under, other = parent := fun other member =>
              (List.pairwise_cons.mp order).1 other member rfl
            refine ⟨?_, ?_, by simp⟩
            · simpa [parent, current] using before.proper
            · rw [if_neg Bool.false_ne_true, List.pairwise_reverse]
              refine List.pairwise_cons.mpr ⟨?_, order⟩
              simpa using all
    · rw [push_other proper up, List.reverse_cons]
      exact before.append (by simpa using proper) (by simpa using Ne.symm up)
  · have unused : segment = [] ∨ segment = current := by
      by_contra neither
      exact proper (not_or.mp neither)
    rcases unused with rfl | rfl
    · exact before
    · exact before

theorem resolve_resolved (anchored : Bool) (segments : List (List Char)) :
    Resolved anchored (resolve anchored segments) := by
  have kept (resolved : List (List Char)) (before : Resolved anchored resolved.reverse) :
      Resolved anchored (segments.foldl (push anchored) resolved).reverse := by
    induction segments generalizing resolved with
    | nil => exact before
    | cons segment rest ih => exact ih _ (resolved_push before segment)
  exact kept [] (resolved_nil anchored)

theorem Resolved.resolve_eq (whole : Resolved anchored segments) :
    resolve anchored segments = segments := by
  have added (rest resolved : List (List Char))
      (whole : Resolved anchored (resolved.reverse ++ rest)) :
      (rest.foldl (push anchored) resolved).reverse = resolved.reverse ++ rest := by
    induction rest generalizing resolved with
    | nil => simp
    | cons segment rest ih =>
      have next : resolved.reverse ++ segment :: rest = (segment :: resolved).reverse ++ rest := by
        simp
      rw [next] at whole ⊢
      rw [List.foldl_cons, push_resolved whole.append_left, ih _ whole]
  exact added segments [] whole

theorem resolve_append_nil (anchored : Bool) (segments : List (List Char)) :
    resolve anchored (segments ++ [[]]) = resolve anchored segments := by
  simp [resolve, push_nil]

theorem push_sublist (anchored : Bool) (resolved : List (List Char)) (segment : List Char) :
    (push anchored resolved segment).Sublist (segment :: resolved) := by
  by_cases up : segment = parent
  · subst up
    rw [push_parent]
    cases resolved with
    | nil => cases anchored <;> simp
    | cons top under =>
      dsimp only
      split
      · exact ((List.Sublist.refl under).cons top).cons parent
      · split
        · exact (List.Sublist.refl _).cons parent
        · exact .refl _
  · unfold push
    split
    · exact (List.Sublist.refl _).cons segment
    · exact .refl _

theorem resolve_sublist (anchored : Bool) (segments : List (List Char)) :
    (resolve anchored segments).Sublist segments := by
  have added (rest resolved : List (List Char)) :
      (rest.foldl (push anchored) resolved).Sublist (rest.reverse ++ resolved) := by
    induction rest generalizing resolved with
    | nil => exact .refl _
    | cons segment rest ih =>
      have later := (ih (push anchored resolved segment)).trans
        ((push_sublist anchored resolved segment).append_left rest.reverse)
      simpa using later
  have whole := (added segments []).reverse
  simpa [resolve] using whole

end Form

theorem hasDrive_eq_true {text : List Char} (drive : hasDrive text = true) :
    ∃ letter rest, text = letter :: ':' :: rest ∧ letter.isAlpha = true := by
  unfold hasDrive splitDrive at drive
  split at drive
  · rename_i letter rest
    split at drive
    · rename_i alpha
      exact ⟨letter, rest, rfl, alpha⟩
    · contradiction
  · contradiction

theorem splitDrive_letter {letter : Char} (alpha : letter.isAlpha = true) (rest : List Char) :
    splitDrive (letter :: ':' :: rest) = (some letter.toLower, rest) := by
  simp only [splitDrive, alpha, if_true]

theorem splitDrive_none {text : List Char} (undriven : hasDrive text = false) :
    splitDrive text = (none, text) := by
  unfold hasDrive at undriven
  unfold splitDrive at undriven ⊢
  split
  · split
    · rename_i alpha
      simp [alpha] at undriven
    · rfl
  · rfl

theorem splitDrive_root (rest : List Char) : splitDrive ('/' :: rest) = (none, '/' :: rest) := by
  refine splitDrive_none ?_
  by_contra driven
  obtain ⟨letter, _, same, alpha⟩ := hasDrive_eq_true (Bool.not_eq_false _ ▸ driven)
  cases same
  contradiction

theorem splitDrive_sublist (text : List Char) : (splitDrive text).2.Sublist text := by
  cases drive : hasDrive text with
  | false => rw [splitDrive_none drive]
  | true =>
    obtain ⟨letter, rest, rfl, alpha⟩ := hasDrive_eq_true drive
    rw [splitDrive_letter alpha]
    exact ((List.Sublist.refl rest).cons ':').cons letter

theorem splitDrive_drive {text : List Char} {letter : Char}
    (drive : (splitDrive text).1 = some letter) :
    letter.isAlpha = true ∧ letter.toLower = letter := by
  have driven : hasDrive text = true := by rw [hasDrive, drive]; rfl
  obtain ⟨first, rest, rfl, alpha⟩ := hasDrive_eq_true driven
  rw [splitDrive_letter alpha] at drive
  cases drive
  exact toLower_letter alpha

theorem slashed_eq_self {text : List Char} (straight : '\\' ∉ text) : slashed text = text := by
  refine (List.map_congr_left fun c occurs => ?_).trans (List.map_id text)
  exact if_neg (ne_of_mem_of_not_mem occurs straight)

theorem slashed_straight (text : List Char) : '\\' ∉ slashed text := by
  intro occurs
  obtain ⟨c, -, same⟩ := List.mem_map.mp occurs
  split at same
  · contradiction
  · rename_i other
    exact other same

theorem slashed_trim_letter {letter : Char} (alpha : letter.isAlpha = true) (rest : List Char) :
    slashed (trim (letter :: ':' :: rest)) = letter :: ':' :: slashed (trimEnd rest) := by
  have straight : letter ≠ '\\' := by rintro rfl; contradiction
  rw [trim_cons (isBlank_of_isAlpha alpha), trimEnd_cons (by decide)]
  simp [slashed, straight]

namespace Form

/-- A form as it is read from a path. -/
structure Proper (form : Form) : Prop where
  letter : ∀ letter, form.drive = some letter → letter.isAlpha = true ∧ letter.toLower = letter
  segments : Resolved (anchored form.drive form.rooted) form.segments
  plain : ∀ segment ∈ form.segments, '/' ∉ segment ∧ '\\' ∉ segment

/-- The segments as they are written: where a slash ends the path, an empty part follows them. -/
def parts (form : Form) : List (List Char) :=
  form.segments ++ if form.trailing && !form.segments.isEmpty then [[]] else []

theorem chars_eq (form : Form) : form.chars = form.root ++ join '/' form.parts := by
  obtain ⟨drive, rooted, segments, trailing⟩ := form
  cases segments with
  | nil => simp [chars, parts, join, root]
  | cons segment rest =>
    cases trailing with
    | false => simp [chars, parts]
    | true =>
      have ended := @join_append '/' (segment :: rest) [[]] (by simp) (by simp)
      have empty : join '/' [[]] = [] := rfl
      rw [empty] at ended
      simp only [chars, parts, List.isEmpty_cons, Bool.not_false, Bool.and_self, if_true, ended,
        root, List.append_assoc]

theorem ofChars_eq (text : List Char) : ofChars text =
    let rest := (splitDrive (slashed (trim text))).2
    let drive := (splitDrive (slashed (trim text))).1
    let body := trimStartOf '/' rest
    { drive, rooted := startsWith '/' rest
      segments := resolve (anchored drive (startsWith '/' rest)) (split '/' body)
      trailing := endsWith '/' body } := rfl

theorem ofChars_proper (text : List Char) : (ofChars text).Proper := by
  rw [ofChars_eq]
  refine ⟨fun letter => splitDrive_drive, resolve_resolved _ _, fun segment member => ?_⟩
  have part := (resolve_sublist _ _).subset member
  refine ⟨fun occurs => (of_mem_split part occurs).2 rfl, fun occurs => ?_⟩
  have inside := (List.dropWhile_sublist _).subset (of_mem_split part occurs).1
  exact slashed_straight (trim text) ((splitDrive_sublist _).subset inside)

variable {form : Form} {drive : Option Char} {rooted : Bool} {text rest : List Char}
  {parts : List (List Char)}

/-- A path that consists of a drive, a root and parts is read as such. -/
theorem ofChars_written (trimmed : trim text = text) (straight : '\\' ∉ text)
    (driven : splitDrive text = (drive, rest))
    (shape : rest = (if rooted then ['/'] else []) ++ join '/' parts)
    (free : ∀ part ∈ parts, '/' ∉ part) (start : startsWith '/' (join '/' parts) = false) :
    ofChars text = {
      drive, rooted
      segments := resolve (anchored drive rooted) parts
      trailing := endsWith '/' (join '/' parts) } := by
  have body : startsWith '/' rest = rooted ∧ trimStartOf '/' rest = join '/' parts := by
    have unslashed : trimStartOf '/' (join '/' parts) = join '/' parts := by
      cases same : join '/' parts with
      | nil => rfl
      | cons c tail =>
        rw [same] at start
        exact List.dropWhile_cons_of_neg (by simpa [startsWith] using start)
    subst shape
    cases rooted with
    | false => exact ⟨start, unslashed⟩
    | true => exact ⟨rfl, unslashed⟩
  have resolved : resolve (anchored drive rooted) (split '/' (join '/' parts)) =
      resolve (anchored drive rooted) parts := by
    cases parts with
    | nil => rfl
    | cons part more => rw [split_join free (List.cons_ne_nil part more)]
  rw [ofChars_eq, trimmed, slashed_eq_self straight, driven]
  simp only [body, resolved]

theorem join_starts {parts : List (List Char)} (free : ∀ part ∈ parts, '/' ∉ part)
    (given : parts.head? ≠ some []) : startsWith '/' (join '/' parts) = false := by
  cases parts with
  | nil => rfl
  | cons part more =>
    have whole := split_join free (List.cons_ne_nil part more)
    by_contra starts
    cases same : join '/' (part :: more) with
    | nil => simp [same, startsWith] at starts
    | cons c tail =>
      obtain rfl : c = '/' := by simpa [same, startsWith] using starts
      rw [same, split, if_pos rfl] at whole
      cases whole
      exact given rfl

theorem join_ends {parts : List (List Char)} (free : ∀ part ∈ parts, '/' ∉ part)
    (given : parts.getLast? ≠ some []) : endsWith '/' (join '/' parts) = false := by
  by_contra ends
  obtain ⟨front, same⟩ : ∃ front, join '/' parts = front ++ '/' :: [] := by
    obtain ⟨front, same⟩ := List.getLast?_eq_some_iff.mp (by simpa [endsWith] using ends)
    exact ⟨front, same⟩
  cases parts with
  | nil => simp [join] at same
  | cons part more =>
    have whole := split_join free (List.cons_ne_nil part more)
    rw [same, split_append] at whole
    rw [← whole] at given
    simp [split] at given

namespace Proper

theorem parts_free (proper : form.Proper) : ∀ part ∈ form.parts, '/' ∉ part ∧ '\\' ∉ part := by
  intro part member
  rcases List.mem_append.mp member with inside | empty
  · exact proper.plain part inside
  · split at empty
    · simp_all
    · contradiction

theorem root_straight (proper : form.Proper) : '\\' ∉ form.root := by
  obtain ⟨drive, rooted, segments, trailing⟩ := form
  cases drive with
  | none => cases rooted <;> simp [root]
  | some letter =>
    have other : letter ≠ '\\' := by
      rintro rfl
      exact absurd (proper.letter _ rfl).1 (by decide)
    cases rooted <;> simp [root, other.symm]

theorem straight (proper : form.Proper) : '\\' ∉ form.chars := by
  rw [chars_eq, List.mem_append]
  rintro (occurs | occurs)
  · exact proper.root_straight occurs
  · rcases of_mem_join occurs with slash | ⟨part, member, inside⟩
    · contradiction
    · exact (proper.parts_free part member).2 inside

theorem parts_start (proper : form.Proper) : startsWith '/' (join '/' form.parts) = false := by
  refine join_starts (fun part member => (proper.parts_free part member).1) ?_
  cases same : form.segments with
  | nil => simp [parts, same]
  | cons segment rest =>
    have first := (proper.segments.proper segment (by simp [same])).1
    simpa [parts, same] using first

theorem parts_end (proper : form.Proper) :
    endsWith '/' (join '/' form.parts) = (form.trailing && !form.segments.isEmpty) := by
  cases ended : form.trailing && !form.segments.isEmpty with
  | true =>
    have given : form.segments ≠ [] := by
      rintro empty
      simp [empty] at ended
    rw [parts, ended, if_pos rfl, join_append given (List.cons_ne_nil _ _)]
    simp [endsWith, join]
  | false =>
    rw [parts, ended, if_neg Bool.false_ne_true, List.append_nil]
    refine join_ends (fun part member => (proper.plain part member).1) fun last => ?_
    exact (proper.segments.proper [] (List.mem_of_getLast? last)).1 rfl

/-- A form that is written is read again, if its text is trimmed and does not happen to begin with a
drive. -/
theorem ofChars_chars (proper : form.Proper) (trimmed : trim form.chars = form.chars)
    (undriven : form.drive = none → hasDrive form.chars = false) :
    ofChars form.chars = { form with trailing := form.trailing && !form.segments.isEmpty } := by
  have driven : splitDrive form.chars =
      (form.drive, (if form.rooted then ['/'] else []) ++ join '/' form.parts) := by
    cases drive : form.drive with
    | none =>
      rw [splitDrive_none (undriven drive), chars_eq, root, drive]
      rfl
    | some letter =>
      obtain ⟨alpha, lower⟩ := proper.letter letter drive
      rw [chars_eq, root, drive]
      refine (splitDrive_letter alpha _).trans ?_
      rw [lower]
      rfl
  rw [ofChars_written trimmed proper.straight driven rfl
    (fun part member => (proper.parts_free part member).1) proper.parts_start, proper.parts_end]
  have resolved : resolve (anchored form.drive form.rooted) form.parts = form.segments := by
    unfold parts
    split
    · rw [resolve_append_nil, proper.segments.resolve_eq]
    · rw [List.append_nil, proper.segments.resolve_eq]
  rw [resolved]

theorem normal_chars (proper : form.Proper) (trimmed : trim form.chars = form.chars)
    (undriven : form.drive = none → hasDrive form.chars = false) :
    normal form.chars = form.chars := by
  rw [normal, proper.ofChars_chars trimmed undriven]
  simp [chars, root]

theorem undotted (proper : form.Proper) (driven : form.drive.isSome = true) {dot : List Char}
    (dots : dot = current ∨ dot = parent) : dot ∉ form.parts := by
  have high : anchored form.drive form.rooted = true := by simp [anchored, driven]
  intro member
  rcases List.mem_append.mp member with inside | empty
  · rcases dots with rfl | rfl
    · exact (proper.segments.proper current inside).2 rfl
    · exact proper.segments.below high inside
  · split at empty
    · rcases dots with rfl | rfl <;> simp [current, parent] at empty
    · contradiction

end Proper

theorem parts_sublist (drive : Option Char) (rooted : Bool) (body : List Char) :
    (Form.mk drive rooted (resolve (anchored drive rooted) (split '/' body))
      (endsWith '/' body)).parts.Sublist (split '/' body) := by
  unfold Form.parts
  split
  · rename_i ended
    obtain ⟨front, rfl⟩ := List.getLast?_eq_some_iff.mp
      (by simpa [endsWith] using (Bool.and_eq_true_iff.mp ended).1)
    rw [split_append]
    refine List.Sublist.append ?_ (.refl [[]])
    rw [split, resolve_append_nil]
    exact resolve_sublist _ (split '/' front)
  · rw [List.append_nil]
    exact resolve_sublist _ (split '/' body)

theorem root_length (form : Form) : form.root.length =
    (if form.drive.isSome then 2 else 0) + if form.rooted then 1 else 0 := by
  obtain ⟨drive, rooted, segments, trailing⟩ := form
  cases drive <;> cases rooted <;> rfl

theorem length_chars_le (text : List Char) : (ofChars text).chars.length ≤ (trim text).length := by
  have slashes : (slashed (trim text)).length = (trim text).length := List.length_map _
  rw [← slashes, ofChars_eq, chars_eq, List.length_append, root_length]
  generalize slashed (trim text) = whole
  have drive : (if (splitDrive whole).1.isSome then 2 else 0) + (splitDrive whole).2.length ≤
      whole.length := by
    cases drive : hasDrive whole with
    | false => simp [splitDrive_none drive]
    | true =>
      obtain ⟨letter, rest, rfl, alpha⟩ := hasDrive_eq_true drive
      simp [splitDrive_letter alpha]
      omega
  generalize splitDrive whole = read at drive ⊢
  obtain ⟨letter, rest⟩ := read
  have slash : (if startsWith '/' rest then 1 else 0) + (trimStartOf '/' rest).length ≤
      rest.length := by
    cases rest with
    | nil => simp [startsWith, trimStartOf]
    | cons c tail =>
      have shorter := (List.dropWhile_sublist (l := tail) (· == '/')).length_le
      by_cases same : c = '/' <;> simp [startsWith, trimStartOf, same] at shorter ⊢
      omega
  have body := @join_length_le '/' _ _
    (parts_sublist letter (startsWith '/' rest) (trimStartOf '/' rest))
  rw [join_split] at body
  dsimp only at drive ⊢
  omega

end Form

theorem trim_of_normal {text : List Char} (fixed : normal text = text) : trim text = text := by
  refine (trim_sublist text).eq_of_length_le ?_
  have shorter := Form.length_chars_le text
  rwa [← normal, fixed] at shorter

/-- The texts that normalizing leaves as they are. -/
theorem normal_eq_self {text : List Char} : normal text = text ↔
    trim text = text ∧ ∃ form : Form, form.Proper ∧ form.chars = text ∧
      (form.drive = none → hasDrive text = false) := by
  constructor
  · intro fixed
    have trimmed := trim_of_normal fixed
    have proper := Form.ofChars_proper text
    refine ⟨trimmed, Form.ofChars text, proper, fixed, fun undriven => ?_⟩
    have straight : slashed text = text := slashed_eq_self (fixed ▸ proper.straight)
    have read : (Form.ofChars text).drive = (splitDrive text).1 := by
      rw [Form.ofChars_eq, trimmed, straight]
    rw [hasDrive, ← read, undriven]
    rfl
  · rintro ⟨trimmed, form, proper, rfl, undriven⟩
    exact proper.normal_chars trimmed undriven

end DebugAdapter.Path
