import DebugAdapter.Proofs.Path.Normal

/-!
What normalizing does to a path that has been normalized. Blanks are trimmed and the drive is read
before `.` and `..` are resolved, and resolving can bring either to the front: then the path is not
in normal form yet.
-/
namespace DebugAdapter.Path

open Text

/-- A normal form reads as it is written: it is trimmed, and no segment to resolve comes directly
behind what reads as a drive. -/
structure Legible (text : List Char) : Prop where
  trimmed : trim text = text
  resolved : ∀ letter rest, text = letter :: ':' :: rest → letter.isAlpha = true →
    (split '/' rest).head? ≠ some Form.current ∧ (split '/' rest).head? ≠ some Form.parent

def lowerDrive (text : List Char) : List Char :=
  match splitDrive text with
  | (some letter, rest) => letter :: ':' :: rest
  | (none, _) => text

theorem normal_letter {letter : Char} (alpha : letter.isAlpha = true) (rest : List Char) :
    normal (letter.toLower :: ':' :: rest) = normal (letter :: ':' :: rest) := by
  obtain ⟨lowerAlpha, lower⟩ := toLower_letter alpha
  simp only [normal, Form.ofChars_eq, slashed_trim_letter alpha, slashed_trim_letter lowerAlpha,
    splitDrive_letter alpha, splitDrive_letter lowerAlpha, lower]

variable {text : List Char}

/-- A dot segment behind the drive is resolved, which leaves less of the path. -/
theorem dotted_shorter {letter : Char} {rest dot : List Char} {later : List (List Char)}
    (alpha : letter.isAlpha = true) (trimmed : trim (letter :: ':' :: rest) = letter :: ':' :: rest)
    (straight : '\\' ∉ letter :: ':' :: rest) (dots : dot = Form.current ∨ dot = Form.parent)
    (whole : split '/' rest = dot :: later) :
    (normal (letter :: ':' :: rest)).length < (letter :: ':' :: rest).length := by
  have given : dot ≠ [] := by rcases dots with rfl | rfl <;> exact List.cons_ne_nil _ _
  have free : ∀ part ∈ split '/' rest, '/' ∉ part := fun _ part occurs =>
    (of_mem_split part occurs).2 rfl
  have start : startsWith '/' (join '/' (split '/' rest)) = false :=
    Form.join_starts free (by simpa [whole] using given)
  have read := @Form.ofChars_written _ false _ _ _ trimmed straight (splitDrive_letter alpha rest)
    (join_split '/' rest).symm free start
  rw [join_split] at read
  have fewer : (Form.ofChars (letter :: ':' :: rest)).parts.Sublist (dot :: later) := by
    rw [read, ← whole]
    exact Form.parts_sublist (some letter.toLower) false rest
  have undotted : dot ∉ (Form.ofChars (letter :: ':' :: rest)).parts :=
    (Form.ofChars_proper _).undotted (by rw [read]; rfl) dots
  have inner : (Form.ofChars (letter :: ':' :: rest)).parts.Sublist later := by
    rcases List.sublist_cons_iff.mp fewer with inner | ⟨others, same, -⟩
    · exact inner
    · exact absurd (same ▸ List.mem_cons_self) undotted
  have shorter := @join_length_le '/' _ _ inner
  have longer : (join '/' later).length < rest.length := by
    rw [← join_split '/' rest, whole, join_cons]
    have some := List.length_pos_iff.mpr given
    split
    · rename_i none
      simpa [none, join] using some
    · simp only [List.length_append, List.length_cons]
      omega
  have root : (Form.ofChars (letter :: ':' :: rest)).root.length = 2 := by
    rw [Form.root_length, read]
    rfl
  rw [normal, Form.chars_eq, List.length_append, root]
  simp only [List.length_cons]
  omega

/-- Where normalizing does not shorten a path, the path reads as it is written. -/
theorem legible_of_length (straight : '\\' ∉ text) (kept : (normal text).length = text.length) :
    Legible text := by
  have trimmed : trim text = text := by
    have shorter := Form.length_chars_le text
    refine (trim_sublist text).eq_of_length_le ?_
    rwa [← normal, kept] at shorter
  refine ⟨trimmed, ?_⟩
  rintro letter rest rfl alpha
  have dropped (dot : List Char) (dots : dot = Form.current ∨ dot = Form.parent) :
      (split '/' rest).head? ≠ some dot := by
    intro first
    obtain ⟨later, whole⟩ := List.head?_eq_some_iff.mp first
    exact absurd kept (dotted_shorter alpha trimmed straight dots whole).ne
  exact ⟨dropped _ (.inl rfl), dropped _ (.inr rfl)⟩

theorem lowerDrive_letter {letter : Char} (alpha : letter.isAlpha = true) (rest : List Char) :
    lowerDrive (letter :: ':' :: rest) = letter.toLower :: ':' :: rest := by
  rw [lowerDrive, splitDrive_letter alpha]

theorem lowerDrive_none (undriven : hasDrive text = false) : lowerDrive text = text := by
  rw [lowerDrive, splitDrive_none undriven]

theorem trim_letter {first other : Char} {rest : List Char} (solid : isBlank first = false)
    (solidOther : isBlank other = false)
    (trimmed : trim (first :: ':' :: rest) = first :: ':' :: rest) :
    trim (other :: ':' :: rest) = other :: ':' :: rest := by
  rw [trim_cons solid] at trimmed
  rw [trim_cons solidOther, (List.cons.inj trimmed).2]

namespace Form.Proper

variable {form : Form} {letter : Char} {rest : List Char}

theorem exists_driven {tail : List Char} {more : List (List Char)} (alpha : letter.isAlpha = true)
    (proper : ∀ segment ∈ more, segment ≠ [] ∧ segment ≠ current) (lower : parent ∉ more)
    (plain : ∀ segment ∈ tail :: more, '/' ∉ segment ∧ '\\' ∉ segment)
    (undotted : some tail ≠ some current ∧ some tail ≠ some parent) (trailing : Bool) :
    ∃ form : Form, form.Proper ∧ form.drive = some letter.toLower ∧ form.chars =
      letter.toLower :: ':' :: join '/' (tail :: (more ++ if trailing then [[]] else [])) := by
  have small : ∀ drive, some letter.toLower = some drive →
      drive.isAlpha = true ∧ drive.toLower = drive := by
    rintro drive ⟨⟩
    exact toLower_letter alpha
  have later : ∀ segment ∈ more, '/' ∉ segment ∧ '\\' ∉ segment := fun segment member =>
    plain segment (List.mem_cons_of_mem tail member)
  by_cases empty : tail = []
  · subst empty
    rw [join_cons, List.nil_append]
    have inner : Resolved true more := @Resolved.append _ [] more (resolved_nil true) proper lower
    by_cases nothing : (more ++ if trailing then [[]] else []) = []
    · rw [if_pos nothing]
      exact ⟨⟨some letter.toLower, false, [], false⟩, ⟨small, resolved_nil true, by simp⟩, rfl, rfl⟩
    · rw [if_neg nothing]
      refine ⟨⟨some letter.toLower, true, more, trailing⟩, ⟨small, inner, later⟩, rfl, ?_⟩
      cases more with
      | nil => cases trailing <;> simp_all [chars_eq, root, parts, join]
      | cons segment more => simp [chars_eq, root, parts]
  · refine ⟨⟨some letter.toLower, false, tail :: more, trailing⟩, ⟨small, ?_, plain⟩, rfl, ?_⟩
    · refine @Resolved.append _ [] (tail :: more) (resolved_nil true) ?_ ?_
      · exact List.forall_mem_cons.mpr ⟨⟨empty, by simpa using undotted.1⟩, proper⟩
      · simpa [eq_comm] using And.intro (mt (congrArg some) undotted.2) lower
    · simp [chars_eq, root, parts]

/-- A path whose first segment only looks like a drive, taken apart behind the colon. -/
theorem driven (proper : form.Proper) (undriven : form.drive = none)
    (shape : form.chars = letter :: ':' :: rest) (alpha : letter.isAlpha = true) :
    ∃ tail more, form.segments = (letter :: ':' :: tail) :: more ∧
      rest = join '/' (tail :: (more ++ if form.trailing then [[]] else [])) := by
  have flat : form.root = [] := by
    cases rooted : form.rooted with
    | false => simp [root, undriven, rooted]
    | true =>
      rw [chars_eq, root, undriven, rooted] at shape
      obtain ⟨rfl, -⟩ := List.cons.inj shape
      contradiction
  rw [chars_eq, flat, List.nil_append, parts] at shape
  cases segments : form.segments with
  | nil => simp [segments, join] at shape
  | cons first more =>
    have given := (proper.segments.proper first (by simp [segments])).1
    rw [segments, List.cons_append, List.isEmpty_cons, Bool.not_false, Bool.and_true] at shape
    generalize same : more ++ (if form.trailing then [[]] else []) = others at shape
    rw [join_cons] at shape
    cases first with
    | nil => contradiction
    | cons c tail =>
      obtain ⟨rfl, second⟩ := List.cons.inj shape
      cases tail with
      | nil =>
        by_cases nothing : others = [] <;> simp [nothing] at second
      | cons colon tail =>
        obtain ⟨rfl, third⟩ := List.cons.inj second
        exact ⟨tail, more, rfl, by rw [same, join_cons, ← third]; rfl⟩

theorem normal_driven (proper : form.Proper) (undriven : form.drive = none)
    (shape : form.chars = letter :: ':' :: rest) (alpha : letter.isAlpha = true)
    (legible : Legible form.chars) : normal form.chars = letter.toLower :: ':' :: rest := by
  obtain ⟨tail, more, segments, written⟩ := proper.driven undriven shape alpha
  have lower : parent ∉ more := by
    intro member
    have order := proper.segments.leading
    rw [segments] at order
    have first := (List.pairwise_cons.mp order).1 parent member rfl
    simp [parent] at first
  have properMore : ∀ segment ∈ more, segment ≠ [] ∧ segment ≠ current := fun segment member =>
    proper.segments.proper segment (by simp [segments, member])
  have plain : ∀ segment ∈ tail :: more, '/' ∉ segment ∧ '\\' ∉ segment := by
    intro segment member
    rcases List.mem_cons.mp member with rfl | later
    · have whole := proper.plain (letter :: ':' :: segment) (by simp [segments])
      simp at whole
      exact ⟨whole.1.2, whole.2.2⟩
    · exact proper.plain segment (by simp [segments, later])
  have head : (split '/' rest).head? = some tail := by
    rw [written, split_join ?_ (List.cons_ne_nil _ _)]
    · rfl
    · intro part member
      rcases List.mem_append.mp ((List.cons_append ..).symm ▸ member) with inside | empty
      · exact (plain part inside).1
      · split at empty
        · simp_all
        · contradiction
  obtain ⟨again, properAgain, driven, rewritten⟩ := exists_driven alpha properMore lower plain
    (head ▸ legible.resolved letter rest shape alpha) form.trailing
  have trimmed := legible.trimmed
  rw [shape] at trimmed ⊢
  have smaller := trim_letter (isBlank_of_isAlpha alpha)
    (isBlank_of_isAlpha (toLower_letter alpha).1) trimmed
  have settled := properAgain.normal_chars (rewritten ▸ written ▸ smaller) (by simp [driven])
  rw [← normal_letter alpha, written, ← rewritten, settled]

theorem normal_legible (proper : form.Proper) (legible : Legible form.chars) :
    normal form.chars = lowerDrive form.chars := by
  cases drive : hasDrive form.chars with
  | false => rw [lowerDrive_none drive, proper.normal_chars legible.trimmed fun _ => drive]
  | true =>
    obtain ⟨letter, rest, shape, alpha⟩ := hasDrive_eq_true drive
    cases own : form.drive with
    | none => rw [proper.normal_driven own shape alpha legible, shape, lowerDrive_letter alpha]
    | some lower =>
      have whole : form.chars = lower :: ':' :: ((if form.rooted then ['/'] else []) ++
          join '/' form.parts) := by
        rw [chars_eq, root, own]
        rfl
      obtain ⟨alpha, same⟩ := proper.letter lower own
      rw [proper.normal_chars legible.trimmed (by simp [own]), whole, lowerDrive_letter alpha, same]

end Form.Proper

theorem slashed_lowerAscii (text : List Char) :
    slashed (lowerAscii text) = lowerAscii (slashed text) := by
  simp only [slashed, lowerAscii, List.map_map]
  refine List.map_congr_left fun c _ => ?_
  have same := @toLower_eq_iff c '\\' rfl
  by_cases back : c = '\\' <;> simp [back, same]

theorem Form.push_lowerAscii (anchored : Bool) (resolved : List (List Char)) (segment : List Char) :
    push anchored (resolved.map lowerAscii) (lowerAscii segment) =
      (push anchored resolved segment).map lowerAscii := by
  have isNil (segment : List Char) : lowerAscii segment = [] ↔ segment = [] := by simp [lowerAscii]
  have isCurrent (segment : List Char) : lowerAscii segment = current ↔ segment = current :=
    lowerAscii_eq_iff (by simp [current])
  have isParent (segment : List Char) : lowerAscii segment = parent ↔ segment = parent :=
    lowerAscii_eq_iff (by simp [parent])
  have parentSelf : lowerAscii parent = parent := (isParent parent).mpr rfl
  simp only [push, isNil, isCurrent, isParent]
  split
  · rfl
  · split
    · cases resolved with
      | nil => cases anchored <;> simp [parentSelf]
      | cons top below =>
        simp only [List.map_cons, isParent, ne_eq]
        split
        · rfl
        · cases anchored <;> simp [parentSelf]
    · rfl

theorem Form.resolve_lowerAscii (anchored : Bool) (segments : List (List Char)) :
    resolve anchored (segments.map lowerAscii) = (resolve anchored segments).map lowerAscii := by
  have pushed (resolved : List (List Char)) :
      (segments.map lowerAscii).foldl (push anchored) (resolved.map lowerAscii) =
        (segments.foldl (push anchored) resolved).map lowerAscii := by
    induction segments generalizing resolved with
    | nil => rfl
    | cons segment rest ih =>
      rw [List.map_cons, List.foldl_cons, push_lowerAscii, ih, List.foldl_cons]
  rw [resolve, resolve, List.map_reverse, ← pushed [], List.map_nil]

theorem splitDrive_lowerAscii (text : List Char) :
    splitDrive (lowerAscii text) = ((splitDrive text).1, lowerAscii (splitDrive text).2) := by
  cases drive : hasDrive text with
  | true =>
    obtain ⟨letter, rest, rfl, alpha⟩ := hasDrive_eq_true drive
    obtain ⟨lowerAlpha, lower⟩ := toLower_letter alpha
    rw [splitDrive_letter alpha]
    refine (splitDrive_letter lowerAlpha (lowerAscii rest)).trans ?_
    rw [lower]
  | false =>
    rw [splitDrive_none drive]
    refine splitDrive_none ?_
    by_contra driven
    obtain ⟨lower, rest, shape, alpha⟩ := hasDrive_eq_true (Bool.not_eq_false _ ▸ driven)
    match text, shape with
    | letter :: colon :: others, shape =>
      obtain ⟨rfl, later⟩ := List.cons.inj shape
      obtain rfl : colon = ':' := (toLower_eq_iff rfl).mp (List.cons.inj later).1
      have letterAlpha : letter.isAlpha = true := by
        rcases isAlpha_or_toLower_eq letter with letterAlpha | same
        · exact letterAlpha
        · rwa [same] at alpha
      simp [hasDrive, splitDrive_letter letterAlpha] at drive

theorem hasDrive_lowerAscii (text : List Char) : hasDrive (lowerAscii text) = hasDrive text := by
  rw [hasDrive, splitDrive_lowerAscii, hasDrive]

theorem normal_lowerAscii (text : List Char) :
    normal (lowerAscii text) = lowerAscii (normal text) := by
  have slash : Char.isAlpha '/' = false := rfl
  have small := fun letter => @splitDrive_drive (slashed (trim text)) letter
  simp only [normal, Form.ofChars_eq, trim_lowerAscii, slashed_lowerAscii, splitDrive_lowerAscii,
    startsWith_lowerAscii slash, trimStartOf_lowerAscii slash, split_lowerAscii slash,
    Form.resolve_lowerAscii, endsWith_lowerAscii slash]
  generalize splitDrive (slashed (trim text)) = read at small ⊢
  obtain ⟨drive, rest⟩ := read
  have root (rooted : Bool) (segments : List (List Char)) (trailing : Bool) :
      lowerAscii (Form.mk drive rooted segments trailing).root =
        (Form.mk drive rooted (segments.map lowerAscii) trailing).root := by
    cases drive with
    | none => cases rooted <;> rfl
    | some letter =>
      have lower := (small letter rfl).2
      cases rooted <;> simp [Form.root, lowerAscii, lower]
  simp only [Form.chars, join_lowerAscii slash, ← root, lowerAscii, List.map_append,
    List.isEmpty_map]
  congr 1
  split <;> rfl

theorem normal_eq_self_iff_legible (path : List Char) :
    normal (normal path) = normal path ↔ Legible (normal path) ∧
      lowerDrive (normal path) = normal path := by
  have proper := Form.ofChars_proper path
  constructor
  · intro fixed
    have legible := legible_of_length proper.straight (congrArg List.length fixed)
    exact ⟨legible, (proper.normal_legible legible).symm.trans fixed⟩
  · rintro ⟨legible, lower⟩
    exact (proper.normal_legible legible).trans lower

theorem lowerAscii_lowerDrive (text : List Char) :
    lowerAscii (lowerDrive text) = lowerAscii text := by
  cases drive : hasDrive text with
  | false => rw [lowerDrive_none drive]
  | true =>
    obtain ⟨letter, rest, rfl, alpha⟩ := hasDrive_eq_true drive
    rw [lowerDrive_letter alpha]
    simp [lowerAscii, (toLower_letter alpha).2]

theorem length_keyChars (text : List Char) : (keyChars text).length = (normal text).length := by
  dsimp only [keyChars]
  split
  · exact List.length_map _
  · rfl

theorem keyChars_eq_self_iff_legible (path : List Char) :
    keyChars (keyChars path) = keyChars path ↔ Legible (normal path) := by
  have proper := Form.ofChars_proper path
  have straight : '\\' ∉ normal path := proper.straight
  cases drive : hasDrive (normal path) with
  | false =>
    have own : keyChars path = normal path := by simp [keyChars, drive]
    rw [own]
    constructor
    · intro fixed
      have length := congrArg List.length fixed
      rw [length_keyChars] at length
      exact legible_of_length straight length
    · intro legible
      have settled := (normal_eq_self_iff_legible path).mpr ⟨legible, lowerDrive_none drive⟩
      simp [keyChars, settled, drive]
  | true =>
    have own : keyChars path = lowerAscii (normal path) := by simp [keyChars, drive]
    rw [own]
    constructor
    · intro fixed
      have length := congrArg List.length fixed
      rw [length_keyChars, normal_lowerAscii, lowerAscii, lowerAscii, List.length_map,
        List.length_map] at length
      exact legible_of_length straight length
    · intro legible
      have settled : normal (lowerAscii (normal path)) = lowerAscii (normal path) := by
        have again : normal (normal path) = lowerDrive (normal path) :=
          proper.normal_legible legible
        rw [normal_lowerAscii, again, lowerAscii_lowerDrive]
      have driven : hasDrive (lowerAscii (normal path)) = true := by
        rw [hasDrive_lowerAscii, drive]
      simp [keyChars, settled, driven, lowerAscii_lowerAscii]

/-- None of the segments is blank at an end or looks like a drive. -/
def Plain (segments : List (List Char)) : Prop :=
  ∀ segment ∈ segments, trim segment = segment ∧ hasDrive segment = false

instance (segments : List (List Char)) : Decidable (Plain segments) :=
  inferInstanceAs (Decidable (∀ segment ∈ segments, _))

theorem Form.Proper.undriven_chars {form : Form} (proper : form.Proper)
    (plain : ∀ segment ∈ form.segments, hasDrive segment = false) (undriven : form.drive = none) :
    hasDrive form.chars = false := by
  by_contra driven
  obtain ⟨letter, rest, shape, alpha⟩ := hasDrive_eq_true (Bool.not_eq_false _ ▸ driven)
  obtain ⟨tail, more, segments, -⟩ := proper.driven undriven shape alpha
  have first := plain (letter :: ':' :: tail) (by simp [segments])
  rw [hasDrive, splitDrive_letter alpha] at first
  contradiction

theorem Form.Proper.trimmed_chars {form : Form} (proper : form.Proper)
    (plain : ∀ segment ∈ form.segments, trim segment = segment) : trim form.chars = form.chars := by
  obtain ⟨drive, rooted, segments, trailing⟩ := form
  have given : ∀ segment ∈ segments, segment ≠ [] := fun segment member =>
    (proper.segments.proper segment member).1
  refine trim_eq_self.mpr ⟨?_, ?_⟩
  · cases drive with
    | some letter =>
      have solid := isBlank_of_isAlpha (proper.letter letter rfl).1
      simpa [chars, root] using solid
    | none =>
      cases rooted with
      | true => simp [chars, root, isBlank, blankRanges]
      | false =>
        cases segments with
        | nil => simp [chars, root, join]
        | cons segment rest =>
          have some := given segment List.mem_cons_self
          have begun := (trim_eq_self.mp (plain segment List.mem_cons_self)).1
          rw [← head?_join '/' some rest] at begun
          have whole : join '/' (segment :: rest) ≠ [] := by simp [join_cons, some]
          simpa [chars, root, List.head?_append_of_ne_nil _ whole] using begun
  · cases segments using List.reverseRecOn with
    | nil => cases drive <;> cases rooted <;> simp [chars, root, join, isBlank, blankRanges]
    | append_singleton front segment =>
      have some := given segment (by simp)
      have ended := (trim_eq_self.mp (plain segment (by simp))).2
      rw [← getLast?_join '/' some front] at ended
      cases trailing with
      | true => simp [chars, root, isBlank, blankRanges]
      | false =>
        have whole : join '/' (front ++ [segment]) ≠ [] := by
          intro empty
          rw [← List.getLast?_eq_none_iff, getLast?_join '/' some,
            List.getLast?_eq_none_iff] at empty
          exact some empty
        simpa [chars, List.getLast?_append_of_ne_nil _ whole] using ended

/-- A path has one normal form, and one key, just where the first one reads as it is written; the
normal form must not show a drive's letter in uppercase either. Both are so where no segment is
blank at an end or looks like a drive. -/
theorem canonical_iff_legible (path : String) :
    (normalize (normalize path) = normalize path ↔ Legible (normal path.toList) ∧
      lowerDrive (normal path.toList) = normal path.toList) ∧
    (key (key path) = key path ↔ Legible (normal path.toList)) ∧
    (Plain (Form.ofChars path.toList).segments →
      normalize (normalize path) = normalize path ∧ key (key path) = key path) := by
  have again : normalize (normalize path) = normalize path ↔
      normal (normal path.toList) = normal path.toList := by
    simp [normalize, String.ofList_inj]
  have keyed : key (key path) = key path ↔
      keyChars (keyChars path.toList) = keyChars path.toList := by
    simp [key, String.ofList_inj]
  rw [again, keyed, keyChars_eq_self_iff_legible]
  refine ⟨normal_eq_self_iff_legible _, Iff.rfl, fun plain => ?_⟩
  have proper := Form.ofChars_proper path.toList
  have settled : normal (normal path.toList) = normal path.toList :=
    proper.normal_chars (proper.trimmed_chars fun segment member => (plain segment member).1)
      (proper.undriven_chars fun segment member => (plain segment member).2)
  exact ⟨settled, ((normal_eq_self_iff_legible _).mp settled).1⟩

theorem dotted_path_canonical :
    let path := "C:\\Proj\\.\\a\\..\\b.lua"
    Plain (Form.ofChars path.toList).segments ∧ normalize path = "c:/Proj/b.lua" ∧
      normalize (normalize path) = normalize path ∧ key (key path) = key path := by
  intro path
  have plain : Plain (Form.ofChars path.toList).segments := by decide +kernel
  exact ⟨plain, by decide +kernel, (canonical_iff_legible path).2.2 plain⟩

/-- Resolving brings a drive or a blank to the front; the next time, it is lowercased or trimmed. -/
theorem resolved_front_read_again :
    normalize "x/../C:/a" = "C:/a" ∧ normalize (normalize "x/../C:/a") = "c:/a" ∧
    normalize "./ a" = " a" ∧ normalize (normalize "./ a") = "a" ∧
    key "./ a" = " a" ∧ key (key "./ a") = "a" := by
  decide +kernel

end DebugAdapter.Path
