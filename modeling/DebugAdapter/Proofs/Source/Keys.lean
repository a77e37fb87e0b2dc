import DebugAdapter.Proofs.Breakpoint.Table
import DebugAdapter.Proofs.Path.Normal
import DebugAdapter.Proofs.Source.Cache
import DebugAdapter.Proofs.Text.Parts
import DebugAdapter.Session.Commands

/-! Whether sources are told apart by their keys. Files are, as far as their paths are; a text is
told from a file by the form of the path, which an absolute path never shares with a reference. -/
namespace DebugAdapter.Path

open Text

theorem normal_absolute {text : List Char} (absolute : isAbsolute text = true) :
    (∃ rest, normal text = '/' :: rest) ∨ ∃ letter rest, normal text = letter :: ':' :: rest := by
  rcases Bool.or_eq_true_iff.mp absolute with rooted | drive
  · obtain ⟨rest, rfl⟩ : ∃ rest, text = '/' :: rest := by
      cases text with
      | nil => contradiction
      | cons c rest => exact ⟨rest, by simpa [startsWith] using rooted⟩
    have slash : slashed (trim ('/' :: rest)) = '/' :: slashed (trimEnd rest) := by
      rw [trim_cons (by decide)]
      rfl
    left
    simp only [normal, Form.ofChars, slash, splitDrive_root, Form.chars, Form.root, startsWith,
      List.head?_cons, beq_self_eq_true, if_true, List.nil_append, List.cons_append]
    exact ⟨_, rfl⟩
  · obtain ⟨letter, rest, rfl, alpha⟩ := hasDrive_eq_true drive
    right
    simp only [normal, Form.ofChars, slashed_trim_letter alpha, splitDrive_letter alpha, Form.chars,
      Form.root, List.cons_append, List.nil_append]
    exact ⟨_, _, rfl⟩

end DebugAdapter.Path

namespace DebugAdapter.Source

theorem referenceKey_toList (reference : Nat) :
    (referenceKey reference).toList = 'r' :: 'e' :: 'f' :: ':' :: reference.repr.toList := by
  simp [referenceKey, String.toList_append]

/-- A path has the key of a reference if its normal form is written so, and only then. -/
theorem key_eq_referenceKey {path : String} {reference : Nat} :
    Path.key path = referenceKey reference ↔ Path.normalize path = referenceKey reference := by
  rw [Path.key, Path.normalize, ← String.toList_inj, ← String.toList_inj, String.toList_ofList,
    String.toList_ofList, referenceKey_toList, Path.keyChars]
  split
  · rename_i drive
    obtain ⟨letter, rest, driven, _⟩ := Path.hasDrive_eq_true drive
    -- The second character is a colon on the left of both sides, and none on the right.
    simp [driven, Text.lowerAscii]
  · exact Iff.rfl

theorem key_ne_referenceKey {path : String} (absolute : Path.isAbsolute path.toList = true)
    (reference : Nat) : Path.key path ≠ referenceKey reference := by
  intro same
  have normal : Path.normal path.toList = (referenceKey reference).toList := by
    rw [← key_eq_referenceKey.mp same, Path.normalize, String.toList_ofList]
  rw [referenceKey_toList] at normal
  rcases Path.normal_absolute absolute with ⟨rest, shape⟩ | ⟨letter, rest, shape⟩ <;>
    simp [normal] at shape

theorem Resolved.Made.text_key {a : Resolved} (made : a.Made) {reference : Nat}
    (numbered : a.source.sourceReference = some reference) : a.key = referenceKey reference := by
  have same := made.key?
  simp only [Source.key?, numbered] at same
  exact (Option.some.inj same).symm

theorem Resolved.Made.file_key {a : Resolved} (made : a.Made) {path : String}
    (file : a.source.path = some path) : a.key = Path.key path := by
  cases made with
  | file server client skipped => rw [← Option.some.inj file]; rfl
  | text name reference => contradiction

theorem setBreakpoints_reference {debugger : Debugger} {request : Request} {reference : Nat}
    {arguments : Arguments.SetBreakpoints} {change : Change} {key : String}
    (read : Arguments.read? Arguments.setBreakpoints request = some arguments)
    (named : arguments.source.sourceReference = some reference) (positive : 0 < reference)
    (set : debugger.setBreakpoints request = .ok change) (apart : key ≠ referenceKey reference)
    (line : Nat) :
    change.debugger.breakpoints.get? key line = debugger.breakpoints.get? key line := by
  have stored : Debugger.breakpointKey? arguments.source = some (referenceKey reference) := by
    rw [Debugger.breakpointKey?, named, Option.filter_some_pos (by simpa using positive)]
  simp only [Debugger.setBreakpoints, read, stored, Except.ok.injEq] at set
  subst set
  exact Breakpoint.Table.get?_replace_of_ne _ apart _ _ line

/-- After any registrations and changes of the mapping, two texts have different keys, and two files
have one key only if their paths do. A text shares its key with a file just if the path is written
as the reference, so never if it is absolute; otherwise breakpoints of the text are no breakpoints
of the file. -/
theorem keys_separate (changes : List Cache.Change) {first second : List UInt8} {a b : Resolved}
    (apart : first ≠ second) (found : (changes.foldl Cache.change {}).find? first = some a)
    (also : (changes.foldl Cache.change {}).find? second = some b) :
    (∀ path other, a.source.path = some path → b.source.path = some other →
      (a.key = b.key ↔ Path.key path = Path.key other)) ∧
    ∀ reference, a.source.sourceReference = some reference →
      (∀ other, b.source.sourceReference = some other → a.key ≠ b.key) ∧
      (∀ path, b.source.path = some path →
        (a.key = b.key ↔ Path.normalize path = referenceKey reference) ∧
        (Path.isAbsolute path.toList = true → a.key ≠ b.key)) ∧
      (a.key ≠ b.key →
        ∀ (debugger : Debugger) (request : Request) arguments change line,
          Arguments.read? Arguments.setBreakpoints request = some arguments →
          arguments.source.sourceReference = some reference →
          debugger.setBreakpoints request = .ok change →
          change.debugger.breakpoints.get? b.key line = debugger.breakpoints.get? b.key line) := by
  have valid : (changes.foldl Cache.change {}).Valid := Cache.valid_empty.changes changes
  have held := valid.find?_eq_some.mp found
  have beside := valid.find?_eq_some.mp also
  have made : a.Made := valid.made _ held
  have remade : b.Made := valid.made _ beside
  refine ⟨fun path other file again => ?_, fun reference numbered => ⟨?_, ?_, ?_⟩⟩
  · rw [made.file_key file, remade.file_key again]
  · intro other renumbered same
    rw [made.text_key numbered, remade.text_key renumbered, referenceKey_inj] at same
    exact apart (valid.apart _ held _ beside reference numbered (same ▸ renumbered))
  · intro path file
    rw [made.text_key numbered, remade.file_key file, eq_comm]
    exact ⟨key_eq_referenceKey, fun absolute => (key_ne_referenceKey absolute reference).symm⟩
  · intro separate debugger request arguments change line read named set
    rw [made.text_key numbered] at separate
    have positive := (valid.numbered _ held reference numbered).1
    exact setBreakpoints_reference read named positive set separate.symm line

theorem text_apart_from_file :
    let changes : List Cache.Change :=
      [.register [120] (.virtual "x" "x"), .register [64, 47, 97] (.file "/a" "/a" false),
        .remap {}]
    let request : Request := {
      seq := 1
      command := "setBreakpoints"
      arguments := some (.object [("lines", .array [Json.ofNat 3]),
        ("source", .object [("sourceReference", Json.ofNat 1)])]) }
    (changes.foldl Cache.change {}).find? [120] = some (.ofReference "x" 1) ∧
    (changes.foldl Cache.change {}).find? [64, 47, 97] = some (.ofFile "/a" "/a" false) ∧
    (Resolved.ofReference "x" 1).key ≠ (Resolved.ofFile "/a" "/a" false).key ∧
    ∃ change, ({} : Debugger).setBreakpoints request = .ok change ∧
      change.debugger.breakpoints.contains "ref:1" 3 = true ∧
      change.debugger.breakpoints.get? (Resolved.ofFile "/a" "/a" false).key 3 = none := by
  intro changes request
  have text : (changes.foldl Cache.change {}).find? [120] = some (.ofReference "x" 1) := by
    decide +kernel
  have file : (changes.foldl Cache.change {}).find? [64, 47, 97] =
      some (.ofFile "/a" "/a" false) := by decide +kernel
  obtain ⟨_, besides, untouched⟩ := (keys_separate changes (by decide) text file).2 1 rfl
  have separate := (besides "/a" rfl).2 (by decide +kernel)
  exact ⟨text, file, separate, _, rfl, by decide +kernel,
    untouched separate {} request _ _ 3 rfl rfl rfl⟩

/-- A chunk named after the relative path `ref:1` shares the key of the first text, and is not
listed beside it. -/
theorem text_and_file_share_key :
    let chunk := "@ref:1".toUTF8.toList
    Origin.file? {} chunk = some (.file "ref:1" "ref:1" false) ∧
    let cache := [Cache.Change.register [120] (.virtual "x" "x"),
      .register chunk (.file "ref:1" "ref:1" false)].foldl Cache.change {}
    ∃ a b, cache.find? [120] = some a ∧ cache.find? chunk = some b ∧
      a.source.sourceReference = some 1 ∧ b.source.path = some "ref:1" ∧ a.key = b.key ∧
      cache.loaded = [a.source] := by
  refine ⟨by decide +kernel, .ofReference "x" 1, .ofFile "ref:1" "ref:1" false, ?_⟩
  decide +kernel

end DebugAdapter.Source
