import DebugAdapter.Path.Mapping
import DebugAdapter.Proofs.Text.Parts

/-!
The places that messages begin with. A line is read up to its first number between colons; the
file before it is mapped like the chunk of that name, and all else of the message stays.
-/
namespace DebugAdapter.Path

open Text

def Decimal (number : List Char) : Prop :=
  number ≠ [] ∧ ∀ c ∈ number, c.isDigit = true

/-- A colon is followed by a number, and the number by a colon or by nothing. -/
def Numbered (text : List Char) : Prop :=
  ∃ before number after, text = before ++ ':' :: (number ++ after) ∧ Decimal number ∧
    (after = [] ∨ startsWith ':' after = true)

variable {text file number rest seen : List Char}

theorem Numbered.cons (inner : Numbered text) (c : Char) : Numbered (c :: text) := by
  obtain ⟨before, number, after, rfl, decimal, ended⟩ := inner
  exact ⟨c :: before, number, after, rfl, decimal, ended⟩

theorem numbered_cons {c : Char} : Numbered (c :: text) ↔
    (c = ':' ∧ text.takeWhile Char.isDigit ≠ [] ∧
      (text.dropWhile Char.isDigit = [] ∨ startsWith ':' (text.dropWhile Char.isDigit) = true)) ∨
    Numbered text := by
  constructor
  · rintro ⟨before, number, after, same, decimal, ended⟩
    cases before with
    | nil =>
      obtain ⟨rfl, rfl⟩ := List.cons.inj same
      refine .inl ⟨rfl, ?_⟩
      cases after with
      | nil =>
        rw [List.append_nil, List.takeWhile_eq_self_iff.mpr decimal.2,
          List.dropWhile_eq_nil_iff.mpr decimal.2]
        exact ⟨decimal.1, .inl rfl⟩
      | cons c after =>
        obtain rfl : c = ':' := by simpa [startsWith] using ended
        rw [takeWhile_append_cons decimal.2 rfl, dropWhile_append_cons decimal.2 rfl]
        exact ⟨decimal.1, .inr rfl⟩
    | cons d before =>
      obtain ⟨rfl, rfl⟩ := List.cons.inj same
      exact .inr ⟨before, number, after, rfl, decimal, ended⟩
  · rintro (⟨rfl, given, ended⟩ | inner)
    · refine ⟨[], text.takeWhile Char.isDigit, text.dropWhile Char.isDigit, ?_, ⟨given, ?_⟩, ended⟩
      · rw [List.takeWhile_append_dropWhile]
        rfl
      · exact fun c occurs => List.mem_takeWhile_imp occurs
    · exact inner.cons c

instance Numbered.decide : DecidablePred Numbered
  | [] => isFalse fun ⟨before, _, _, same, _⟩ => by cases before <;> contradiction
  | _ :: text =>
    have := Numbered.decide text
    decidable_of_iff _ numbered_cons.symm

theorem decimal_of_takeWhile {c : Char} (taken : text.takeWhile Char.isDigit = c :: number) :
    Decimal (c :: number) :=
  ⟨List.cons_ne_nil c number, fun _ occurs => List.mem_takeWhile_imp (taken ▸ occurs)⟩

theorem Numbered.of_whole {after : List Char} (decimal : Decimal number)
    (whole : file ++ ':' :: rest = number ++ ':' :: after) : Numbered (':' :: file) := by
  obtain ⟨middle, same, below⟩ | ⟨middle, same, below⟩ := List.append_eq_append_iff.mp whole
  · cases middle with
    | nil => exact ⟨[], number, [], by simp [same], decimal, .inl rfl⟩
    | cons c middle =>
      obtain ⟨rfl, -⟩ := List.cons.inj below
      exact absurd (decimal.2 ':' (by simp [same])) (by decide)
  · refine ⟨[], number, middle, by rw [same]; rfl, decimal, ?_⟩
    cases middle with
    | nil => exact .inl rfl
    | cons c middle =>
      obtain ⟨rfl, -⟩ := List.cons.inj below
      exact .inr rfl

namespace Mapping

theorem splitLocationFrom_number (given : seen ≠ []) (decimal : Decimal number) :
    splitLocationFrom seen (':' :: (number ++ ':' :: rest)) = some (seen.reverse, number, rest) := by
  have digits : (number ++ ':' :: rest).takeWhile Char.isDigit = number :=
    takeWhile_append_cons decimal.2 rfl rest
  have behind : (number ++ ':' :: rest).dropWhile Char.isDigit = ':' :: rest :=
    dropWhile_append_cons decimal.2 rfl rest
  obtain ⟨digit, others, rfl⟩ := List.exists_cons_of_ne_nil decimal.1
  rw [splitLocationFrom, if_pos ⟨rfl, given⟩, digits, behind]
  rfl

theorem splitLocationFrom_name (unnumbered : ¬Numbered file) (given : seen ≠ [] ∨ file ≠ [])
    (decimal : Decimal number) :
    splitLocationFrom seen (file ++ ':' :: (number ++ ':' :: rest)) =
      some (seen.reverse ++ file, number, rest) := by
  induction file generalizing seen with
  | nil =>
    rw [List.nil_append, List.append_nil]
    exact splitLocationFrom_number (given.resolve_right (by simp)) decimal
  | cons c file ih =>
    have later := @ih (c :: seen) (fun inner => unnumbered (inner.cons c)) (.inl (by simp))
    rw [List.reverse_cons, List.append_assoc, List.singleton_append] at later
    rw [List.cons_append, splitLocationFrom]
    split
    · rename_i colon
      split
      · rename_i digit digits after taken left
        obtain ⟨rfl, -⟩ := colon
        have whole : file ++ ':' :: (number ++ ':' :: rest) = digit :: digits ++ ':' :: after := by
          rw [← taken, ← left, List.takeWhile_append_dropWhile]
        exact absurd (Numbered.of_whole (decimal_of_takeWhile taken) whole) unnumbered
      · exact later
    · exact later

theorem splitLocationFrom_eq_some
    (found : splitLocationFrom seen text = some (file, number, rest)) :
    Decimal number ∧ seen.reverse ++ text = file ++ ':' :: (number ++ ':' :: rest) := by
  induction text generalizing seen with
  | nil => contradiction
  | cons c text ih =>
    have passed (later : splitLocationFrom (c :: seen) text = some (file, number, rest)) :
        Decimal number ∧ seen.reverse ++ c :: text = file ++ ':' :: (number ++ ':' :: rest) := by
      simpa using ih later
    rw [splitLocationFrom] at found
    split at found
    · rename_i colon
      split at found
      · rename_i digit digits after taken left
        cases found
        refine ⟨decimal_of_takeWhile taken, ?_⟩
        rw [colon.1, ← taken, ← left, List.takeWhile_append_dropWhile]
      · exact passed found
    · exact passed found

end Mapping

/-- A name that a line is read to begin with, when its number and a colon come after it. -/
structure Placeable (file : List Char) : Prop where
  solid : ∀ c ∈ file.head?, isBlank c = false
  unquoted : startsWith '[' file = false
  unbroken : '\n' ∉ file
  unnumbered : ¬Numbered file

namespace Mapping

variable {mapping : Mapping}

/-- The path that a message is given for a file that it names. -/
def placed (mapping : Mapping) (file : List Char) : List Char :=
  mapping.serverToClientChars (mapping.absolutize (normal file))

theorem mapLine_placeable {indent : List Char} (placeable : Placeable file) (given : file ≠ [])
    (blank : ∀ c ∈ indent, isBlank c = true) (decimal : Decimal number) :
    mapping.mapLine (indent ++ (file ++ ':' :: (number ++ ':' :: rest))) =
      indent ++ (mapping.placed file ++ ':' :: (number ++ ':' :: rest)) := by
  have found := @splitLocationFrom_name _ _ rest [] placeable.unnumbered (.inr given) decimal
  obtain ⟨c, name, rfl⟩ := List.exists_cons_of_ne_nil given
  have solid := placeable.solid c rfl
  have start : trimStart (indent ++ (c :: name ++ ':' :: (number ++ ':' :: rest))) =
      c :: name ++ ':' :: (number ++ ':' :: rest) := dropWhile_append_cons blank solid _
  have indented : indentation (indent ++ (c :: name ++ ':' :: (number ++ ':' :: rest))) = indent :=
    takeWhile_append_cons blank solid _
  rw [mapLine, start, splitLocation, found, indented]
  simp [placeable.unquoted, placed]

theorem mapLine_cases (mapping : Mapping) (line : List Char) :
    mapping.mapLine line = line ∨ ∃ indent file number rest,
      (∀ c ∈ indent, isBlank c = true) ∧ Decimal number ∧
      line = indent ++ (file ++ ':' :: (number ++ ':' :: rest)) ∧
      mapping.mapLine line = indent ++ (mapping.placed file ++ ':' :: (number ++ ':' :: rest)) := by
  unfold mapLine
  split
  · rename_i file number rest found
    split
    · exact .inl rfl
    · obtain ⟨decimal, whole⟩ := splitLocationFrom_eq_some found
      refine .inr ⟨indentation line, file, number, rest, ?_, decimal, ?_, by simp [placed]⟩
      · exact fun c occurs => List.mem_takeWhile_imp occurs
      · rw [← whole, List.reverse_nil, List.nil_append, indentation_append_trimStart]
  · exact .inl rfl

theorem exceptionMessageChars_line (unbroken : '\n' ∉ text) :
    mapping.exceptionMessageChars text = mapping.mapLine text := by
  simp [exceptionMessageChars, split_free unbroken, join]

theorem exceptionMessageChars_join {lines : List (List Char)}
    (unbroken : ∀ line ∈ lines, '\n' ∉ line) :
    mapping.exceptionMessageChars (join '\n' lines) =
      join '\n' (lines.map mapping.exceptionMessageChars) := by
  by_cases given : lines = []
  · subst given
    exact exceptionMessageChars_line List.not_mem_nil
  · rw [exceptionMessageChars, split_join unbroken given]
    congr 1
    exact List.map_congr_left fun line member =>
      (exceptionMessageChars_line (unbroken line member)).symm

theorem of_sourceToClient {name : List UInt8} {client : String}
    (maps : mapping.sourceToClient (0x40 :: name) = some client) :
    mapping.sourceCoding.decodeChars name ≠ [] ∧
      client.toList = mapping.placed (mapping.sourceCoding.decodeChars name) := by
  simp only [sourceToClient, sourceToServer, sourceToServerChars] at maps
  split at maps
  · contradiction
  · rename_i given
    obtain rfl := Option.some.inj maps
    refine ⟨fun none => given ?_, by simp [serverToClient, placed]⟩
    rw [none]
    rfl

end Mapping

/-- A message that begins with the name of a file and a line gets the path that the chunk of that
name has on the client, wherever it is indented, and in whichever line it stands: each line is
rewritten by itself, and of a line only the file it begins with. -/
theorem message_places_follow_chunks {mapping : Mapping} {name : List UInt8} {file client : String}
    (named : mapping.sourceCoding.decode name = file) (placeable : Placeable file.toList)
    (maps : mapping.sourceToClient (0x40 :: name) = some client) :
    (∀ indent number rest : String, (∀ c ∈ indent.toList, isBlank c = true ∧ c ≠ '\n') →
      Decimal number.toList → '\n' ∉ rest.toList →
      mapping.exceptionMessage (indent ++ file ++ ":" ++ number ++ ":" ++ rest) =
        indent ++ client ++ ":" ++ number ++ ":" ++ rest) ∧
    (∀ lines : List String, (∀ line ∈ lines, '\n' ∉ line.toList) →
      mapping.exceptionMessage ("\n".intercalate lines) =
        "\n".intercalate (lines.map mapping.exceptionMessage)) ∧
    (∀ line : String, '\n' ∉ line.toList → mapping.exceptionMessage line = line ∨
      ∃ indent file number rest : String, (∀ c ∈ indent.toList, isBlank c = true) ∧
        Decimal number.toList ∧ line = indent ++ file ++ ":" ++ number ++ ":" ++ rest ∧
        mapping.exceptionMessage line =
          indent ++ .ofList (mapping.placed file.toList) ++ ":" ++ number ++ ":" ++ rest) := by
  subst named
  obtain ⟨given, path⟩ := Mapping.of_sourceToClient maps
  rw [Encoding.decode, String.toList_ofList] at placeable
  have place (indent file number rest : String) :
      (indent ++ file ++ ":" ++ number ++ ":" ++ rest).toList =
        indent.toList ++ (file.toList ++ ':' :: (number.toList ++ ':' :: rest.toList)) := by
    simp [String.toList_append]
  have chars (message : String) : (mapping.exceptionMessage message).toList =
      mapping.exceptionMessageChars message.toList := String.toList_ofList
  refine ⟨fun indent number rest blank decimal unbroken => ?_, fun lines unbroken => ?_,
    fun line unbroken => ?_⟩
  · have whole : '\n' ∉ indent.toList ++ (mapping.sourceCoding.decodeChars name ++
        ':' :: (number.toList ++ ':' :: rest.toList)) := by
      have digits : '\n' ∉ number.toList := fun occurs => absurd (decimal.2 _ occurs) (by decide)
      have indents : '\n' ∉ indent.toList := fun occurs => (blank _ occurs).2 rfl
      simp [digits, indents, unbroken, placeable.unbroken]
    rw [← String.toList_inj, chars, place, place, Encoding.decode, String.toList_ofList,
      Mapping.exceptionMessageChars_line whole, path]
    exact Mapping.mapLine_placeable placeable given (fun c occurs => (blank c occurs).1) decimal
  · have joined := @Mapping.exceptionMessageChars_join mapping (lines.map String.toList)
      (by simpa using unbroken)
    have same : mapping.exceptionMessageChars ∘ String.toList =
        String.toList ∘ mapping.exceptionMessage := funext fun line => (chars line).symm
    rw [List.map_map, same] at joined
    rw [← String.toList_inj, chars, String.toList_intercalate, String.toList_intercalate,
      List.map_map]
    exact joined
  · obtain same | ⟨indent, file, number, rest, blank, decimal, whole, mapped⟩ :=
      mapping.mapLine_cases line.toList
    · left
      rw [← String.toList_inj, chars, Mapping.exceptionMessageChars_line unbroken, same]
    · refine .inr ⟨.ofList indent, .ofList file, .ofList number, .ofList rest, ?_⟩
      simp only [← String.toList_inj, chars, place, String.toList_ofList]
      rw [Mapping.exceptionMessageChars_line unbroken]
      exact ⟨blank, decimal, whole, mapped⟩

/-- A file named with a colon and a number, in a message of two lines. -/
theorem stack_line_follows_chunk :
    let mapping : Mapping :=
      { rules := [.directory "/src".toList "c:/proj".toList], cwd := some "/src".toList }
    let name := "lib:2/a.lua".toUTF8.toList
    mapping.sourceToClient (0x40 :: name) = some "c:/proj/lib:2/a.lua" ∧
      mapping.exceptionMessage "\tlib:2/a.lua:10: 5: in f" =
        "\tc:/proj/lib:2/a.lua:10: 5: in f" ∧
      mapping.exceptionMessage ("\n".intercalate ["stack:", "\tlib:2/a.lua:10: 5: in f"]) =
        "\n".intercalate ["stack:", "\tc:/proj/lib:2/a.lua:10: 5: in f"] := by
  intro mapping name
  have named : mapping.sourceCoding.decode name = "lib:2/a.lua" := by decide +kernel
  have maps : mapping.sourceToClient (0x40 :: name) = some "c:/proj/lib:2/a.lua" := by
    decide +kernel
  have placeable : Placeable "lib:2/a.lua".toList :=
    ⟨by simp; decide, by decide +kernel, by decide +kernel, by decide +kernel⟩
  obtain ⟨places, lines, -⟩ := message_places_follow_chunks named placeable maps
  have line : mapping.exceptionMessage "\tlib:2/a.lua:10: 5: in f" =
      "\tc:/proj/lib:2/a.lua:10: 5: in f" :=
    places "\t" "10" " 5: in f" (by simp; decide) ⟨by decide +kernel, by simp⟩
      (by decide +kernel)
  have both := lines ["stack:", "\tlib:2/a.lua:10: 5: in f"] (by decide +kernel)
  have other : mapping.exceptionMessage "stack:" = "stack:" := by decide +kernel
  exact ⟨maps, line, both.trans (by rw [List.map_cons, List.map_cons, List.map_nil, other, line])⟩

end DebugAdapter.Path
