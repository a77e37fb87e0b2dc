import DebugAdapter.Proofs.Path.Directory
import DebugAdapter.Proofs.Path.Shape

/-!
Paths within the workspace folder, as they are shown. The folder is taken away from the front of a
path, and so it is once more from what is left, if that begins with the folder as well: this needs a
folder that a path can begin with twice, so none that begins with a slash.
-/
namespace DebugAdapter.Path

open Text
open Bare (Named)

def Single (path : List Char) : Prop :=
  ∀ before after, path = before ++ '/' :: after → startsWith '/' after = false

variable {path rest folder directory : List Char}

theorem Single.append_right {front : List Char} (single : Single (front ++ path)) :
    Single path := by
  rintro before after rfl
  exact single (front ++ before) after (List.append_assoc front before _).symm

theorem Form.Proper.single {form : Form} (proper : form.Proper) : Single form.chars := by
  intro before after under
  by_cases none : after = []
  · simp [none, startsWith]
  · by_cases front : before = []
    · subst front
      have leading : form.leading = true := by
        rw [← proper.startsWith_chars, under]
        rfl
      obtain ⟨undriven, rooted⟩ := Bool.and_eq_true_iff.mp leading
      have root : form.root = ['/'] := by
        simp [Form.root, Option.isNone_iff_eq_none.mp undriven, rooted]
      rw [Form.chars_eq, root] at under
      rw [← List.tail_eq_of_cons_eq under]
      exact proper.parts_start
    · exact proper.unstarted_below under front none

theorem single_normal (text : List Char) : Single (normal text) :=
  (Form.ofChars_proper text).single

def directoryOf (folder : List Char) : List Char :=
  trimEndOf '/' folder

theorem directoryOf_spec (single : Single folder) (given : folder ≠ []) :
    Named (directoryOf folder) folder ∧ endsWith '/' (directoryOf folder) = false := by
  have same (text : List Char) : trimEndOf '/' text = text.rdropWhile (· == '/') := rfl
  cases folder using List.reverseRecOn with
  | nil => contradiction
  | append_singleton front last =>
    by_cases slash : last = '/'
    · subst slash
      have unended : endsWith '/' front = false := by
        by_contra ended
        obtain ⟨before, rfl⟩ := List.getLast?_eq_some_iff.mp (by simpa [endsWith] using ended)
        have next := single before ['/'] (by simp)
        simp [startsWith] at next
      have bare : directoryOf (front ++ ['/']) = front := by
        rw [directoryOf, same, List.rdropWhile_concat_pos _ _ _ (by simp),
          List.rdropWhile_eq_self_iff]
        intro some
        simpa [endsWith, List.getLast?_eq_some_getLast some] using unended
      rw [bare]
      exact ⟨.inr rfl, unended⟩
    · have bare : directoryOf (front ++ [last]) = front ++ [last] := by
        rw [directoryOf, same, List.rdropWhile_concat_neg _ _ _ (by simpa using slash)]
      rw [bare]
      exact ⟨.inl rfl, by simpa [endsWith] using slash⟩

/-- The path is that of something in the folder. -/
structure Within (folder path rest : List Char) : Prop where
  under : path = directoryOf folder ++ '/' :: rest
  given : rest ≠ []

theorem Within.unique {other : List Char} (first : Within folder path rest)
    (second : Within folder path other) : rest = other := by
  have same := first.under.symm.trans second.under
  exact (List.cons.inj (List.append_cancel_left same)).2

theorem Within.single (within : Within folder path rest) (single : Single path) : Single rest := by
  rw [within.under, List.append_cons] at single
  exact single.append_right

theorem trimStartOf_slash (unstarted : startsWith '/' rest = false) :
    trimStartOf '/' ('/' :: rest) = rest ∧ trimStartOf '/' rest = rest := by
  have trimmed : trimStartOf '/' rest = rest := by
    cases rest with
    | nil => rfl
    | cons c rest => exact List.dropWhile_cons_of_neg (by simpa [startsWith] using unstarted)
  exact ⟨trimmed, trimmed⟩

theorem Within.afterPrefix (within : Within folder path rest) (settled : Single folder)
    (named : folder ≠ []) (single : Single path) :
    ∃ after, afterPrefix? folder path = some after ∧ trimStartOf '/' after = rest := by
  have unstarted := single _ _ within.under
  have under := within.under
  obtain ⟨slash, bare⟩ := trimStartOf_slash unstarted
  obtain ⟨same | same, -⟩ := directoryOf_spec settled named
  · refine ⟨'/' :: rest, (afterPrefix?_eq_some named).mpr ⟨?_, ?_⟩, slash⟩
    · rwa [← same] at under
    · simp [Ends, named, startsWith]
  · generalize directoryOf folder = directory at same under
    subst same
    refine ⟨rest, (afterPrefix?_eq_some named).mpr ⟨?_, ?_⟩, bare⟩
    · rw [under, List.append_assoc]
      rfl
    · simp [Ends, endsWith]

theorem within_afterPrefix {after : List Char} (settled : Single folder) (named : folder ≠ [])
    (single : Single path) (found : afterPrefix? folder path = some after)
    (given : trimStartOf '/' after ≠ []) : Within folder path (trimStartOf '/' after) := by
  obtain ⟨under, ends⟩ := (afterPrefix?_eq_some named).mp found
  obtain ⟨same | same, unended⟩ := directoryOf_spec settled named
  · rw [Ends, if_neg named, same, unended] at ends
    cases after with
    | nil => contradiction
    | cons c rest =>
      obtain rfl : c = '/' := by simpa [startsWith] using ends
      obtain ⟨slash, -⟩ := trimStartOf_slash (single _ _ under)
      rw [slash] at given ⊢
      exact ⟨by rw [← same, under], given⟩
  · have below : path = directoryOf folder ++ '/' :: after := by
      rw [under]
      conv_lhs => rw [same]
      simp
    obtain ⟨-, bare⟩ := trimStartOf_slash (single _ _ below)
    rw [bare] at given ⊢
    exact ⟨below, given⟩

/-- The path begins with the folder twice, and goes on. -/
def Repeats (folder path : List Char) : Prop :=
  ∃ rest, rest ≠ [] ∧ path = directoryOf folder ++ '/' :: (directoryOf folder ++ '/' :: rest)

theorem repeats_iff : Repeats folder path ↔
    ∃ inner rest, Within folder path inner ∧ Within folder inner rest := by
  constructor
  · rintro ⟨rest, given, under⟩
    exact ⟨_, rest, ⟨under, by simp⟩, ⟨rfl, given⟩⟩
  · rintro ⟨inner, rest, outer, within⟩
    refine ⟨rest, within.given, ?_⟩
    rw [← within.under]
    exact outer.under

theorem unrepeated_of_rooted (settled : Single folder) (single : Single path)
    (rooted : startsWith '/' folder = true) : ¬Repeats folder path := by
  rintro ⟨rest, -, under⟩
  have named : folder ≠ [] := by
    rintro rfl
    contradiction
  have unstarted := single _ _ under
  obtain ⟨same, -⟩ := directoryOf_spec settled named
  generalize directoryOf folder = directory at same unstarted
  cases directory with
  | nil => simp [startsWith] at unstarted
  | cons c directory => rcases same with rfl | rfl <;> simp_all [startsWith]

theorem exists_split_drive (driven : hasDrive path = true) :
    ∃ segment later, split '/' path = segment :: later ∧ hasDrive segment = true := by
  obtain ⟨letter, rest, rfl, alpha⟩ := hasDrive_eq_true driven
  have other : letter ≠ '/' := by
    rintro rfl
    contradiction
  obtain ⟨first, later, whole⟩ := List.exists_cons_of_ne_nil (split_ne_nil '/' rest)
  refine ⟨letter :: ':' :: first, later, ?_, ?_⟩
  · simp [split, other, whole]
  · rw [hasDrive, splitDrive_letter alpha]
    rfl

/-- A path that begins twice with a folder on a drive has the drive behind a slash, too. -/
theorem exists_drive_of_repeats (settled : Single folder) (driven : hasDrive folder = true)
    (repeats : Repeats folder path) :
    ∃ segment ∈ (segmentsOf path).tail, hasDrive segment = true := by
  obtain ⟨rest, given, under⟩ := repeats
  have named : folder ≠ [] := by
    rintro rfl
    contradiction
  obtain ⟨same, -⟩ := directoryOf_spec settled named
  generalize directoryOf folder = directory at same under
  have drive : hasDrive directory = true := by
    rcases same with rfl | rfl
    · exact driven
    · cases directory with
      | nil => contradiction
      | cons c directory => rwa [hasDrive_append (List.cons_ne_nil c directory)] at driven
  have inner : ∃ rest, innerText path = directory ++ '/' :: (directory ++ '/' :: rest) := by
    obtain ⟨letter, below, rfl, alpha⟩ := hasDrive_eq_true drive
    have begun : startsWith '/' path = false := by
      rw [under]
      simp only [startsWith, List.cons_append, List.head?_cons, Option.some_beq_some,
        beq_eq_false_iff_ne]
      rintro rfl
      contradiction
    simp only [innerText, begun, Bool.false_eq_true, if_false]
    split
    · refine ⟨rest.dropLast, ?_⟩
      simp [under, List.dropLast_append_of_ne_nil, List.dropLast_cons_of_ne_nil, given]
    · exact ⟨rest, under⟩
  obtain ⟨rest, inner⟩ := inner
  obtain ⟨segment, later, parts, own⟩ := exists_split_drive drive
  refine ⟨segment, ?_, own⟩
  rw [segmentsOf, if_neg (by simp [inner]), inner, split_append, split_append, parts]
  simp

namespace Mapping

variable {mapping : Mapping}

theorem clientRelative_spec (workspace : mapping.workspaceFolder = some folder)
    (settled : Single folder) (named : folder ≠ []) (single : Single path) :
    (∃ rest, Within folder path rest ∧ mapping.clientRelativeChars path = rest) ∨
      (∀ rest, ¬Within folder path rest) ∧ mapping.clientRelativeChars path = path := by
  by_cases inside : ∃ rest, Within folder path rest
  · obtain ⟨rest, within⟩ := inside
    obtain ⟨after, found, trimmed⟩ := within.afterPrefix settled named single
    refine .inl ⟨rest, within, ?_⟩
    simp [clientRelativeChars, workspace, found, trimmed, within.given]
  · refine .inr ⟨fun rest within => inside ⟨rest, within⟩, ?_⟩
    simp only [clientRelativeChars, workspace]
    cases found : afterPrefix? folder path with
    | none => rfl
    | some after =>
      dsimp only
      by_cases given : trimStartOf '/' after = []
      · simp [given]
      · exact absurd ⟨_, within_afterPrefix settled named single found given⟩ inside

/-- The folder is taken away once more where the path begins with it twice. -/
theorem clientRelative_again (workspace : mapping.workspaceFolder = some folder)
    (settled : Single folder) (named : folder ≠ []) (single : Single path) :
    mapping.clientRelativeChars (mapping.clientRelativeChars path) =
      mapping.clientRelativeChars path ↔ ¬Repeats folder path := by
  have shown {path : List Char} := @clientRelative_spec path folder mapping workspace settled named
  rw [repeats_iff]
  obtain ⟨inner, outer, same⟩ | ⟨outside, same⟩ := shown single
  · rw [same]
    obtain ⟨rest, within, again⟩ | ⟨outside, again⟩ := shown (outer.single single)
    · have shorter : rest ≠ inner := by
        rintro rfl
        have length := congrArg List.length within.under
        simp at length
        omega
      rw [again]
      exact iff_of_false shorter fun once => once ⟨inner, rest, outer, within⟩
    · refine iff_of_true again ?_
      rintro ⟨other, rest, also, within⟩
      obtain rfl := outer.unique also
      exact outside rest within
  · rw [same, same]
    refine iff_of_true rfl ?_
    rintro ⟨inner, rest, outer, -⟩
    exact outside inner outer

theorem normal_of_sourceToClient {chunk : List UInt8} {client : String}
    (maps : mapping.sourceToClient chunk = some client) :
    ∃ text, client.toList = normal text := by
  obtain ⟨server, -, rfl⟩ := Option.map_eq_some_iff.mp maps
  rw [serverToClient_eq]
  split
  · exact ⟨_, String.toList_ofList⟩
  · exact ⟨_, String.toList_ofList⟩

theorem normal_of_nonblankPath {path : Option String} (given : nonblankPath path = some folder) :
    folder ≠ [] ∧ ∃ text, folder = normal text := by
  obtain ⟨normalized, nonempty⟩ := Option.filter_eq_some_iff.mp given
  obtain ⟨text, -, rfl⟩ := Option.map_eq_some_iff.mp normalized
  exact ⟨by simpa using nonempty, _, rfl⟩

end Mapping

/-- A path that is shown within the workspace folder is shown the same again, just if it does not
begin with the folder twice. That never happens with a folder that begins with a slash, and with one
on a drive only if a drive occurs within the path. -/
theorem shown_again_iff_unrepeated {settings : Config.Settings} {mapping : Mapping}
    (accepted : Mapping.ofSettings settings = .ok mapping) {chunk : List UInt8} {client : String}
    (maps : mapping.sourceToClient chunk = some client) :
    let shown := mapping.clientRelative client
    (mapping.clientRelative shown = shown ↔
      ∀ folder ∈ mapping.workspaceFolder, ¬Repeats folder client.toList) ∧
    ((∀ folder ∈ mapping.workspaceFolder, startsWith '/' folder = true ∨
        hasDrive folder = true ∧
          ∀ segment ∈ (segmentsOf client.toList).tail, hasDrive segment = false) →
      mapping.clientRelative shown = shown) := by
  intro shown
  obtain ⟨text, chars⟩ := Mapping.normal_of_sourceToClient maps
  have single : Single client.toList := chars ▸ single_normal text
  have again : mapping.clientRelative shown = shown ↔
      mapping.clientRelativeChars (mapping.clientRelativeChars client.toList) =
        mapping.clientRelativeChars client.toList := by
    simp [shown, Mapping.clientRelative, String.ofList_inj]
  obtain ⟨rules, skip, -, -, made⟩ := Mapping.ofSettings_eq_ok.mp accepted
  rw [again]
  cases workspace : mapping.workspaceFolder with
  | none => simp [Mapping.clientRelativeChars, workspace]
  | some folder =>
    have given : Mapping.nonblankPath settings.workspaceFolder = some folder := by
      rw [← workspace, made]
    obtain ⟨named, own, rfl⟩ := Mapping.normal_of_nonblankPath given
    have settled := single_normal own
    have once := Mapping.clientRelative_again workspace settled named single
    refine ⟨by simpa using once, fun apart => once.mpr fun repeats => ?_⟩
    rcases apart _ rfl with rooted | ⟨driven, undriven⟩
    · exact unrepeated_of_rooted settled single rooted repeats
    · obtain ⟨segment, member, drive⟩ := exists_drive_of_repeats settled driven repeats
      rw [undriven segment member] at drive
      contradiction

def workspace : Config.Settings :=
  { sourceMaps := [("/srv/game/", "c:/work/game/")], workspaceFolder := some "C:\\work" }

theorem game_shown_again : ∃ mapping, Mapping.ofSettings workspace = .ok mapping ∧
    mapping.sourceToClient "@/srv/game/ai/work.lua".toUTF8.toList =
      some "c:/work/game/ai/work.lua" ∧
    mapping.clientRelative "c:/work/game/ai/work.lua" = "game/ai/work.lua" ∧
    mapping.clientRelative "game/ai/work.lua" = "game/ai/work.lua" := by
  have parsed : workspace.sourceMaps.mapM Mapping.parseRule =
      .ok [.directory "/srv/game/".toList "c:/work/game/".toList] := by decide +kernel
  have accepted := Mapping.ofSettings_eq_ok.mpr ⟨_, [], parsed, rfl, rfl⟩
  refine ⟨_, accepted, ?_⟩
  generalize made : Mapping.mk _ _ _ _ _ _ = mapping at accepted ⊢
  have folder : mapping.workspaceFolder = some "c:/work".toList := by
    rw [← made]
    decide +kernel
  have maps : mapping.sourceToClient "@/srv/game/ai/work.lua".toUTF8.toList =
      some "c:/work/game/ai/work.lua" := by
    rw [← made]
    decide +kernel
  have shown : mapping.clientRelative "c:/work/game/ai/work.lua" = "game/ai/work.lua" := by
    rw [← made]
    decide +kernel
  have again := (shown_again_iff_unrepeated accepted maps).2 fun other given => by
    obtain rfl := Option.some.inj (folder.symm.trans given)
    exact .inr ⟨by decide +kernel, by decide +kernel⟩
  rw [shown] at again
  exact ⟨maps, shown, again⟩

/-- A folder that is no rooted path is taken away twice, and so is one whose drive comes again. -/
theorem repeated_folder_shown_otherwise :
    ((Mapping.ofSettings { workspaceFolder := some "a" }).map fun mapping =>
      (mapping.sourceToClient "@a/a/b.lua".toUTF8.toList, mapping.clientRelative "a/a/b.lua",
        mapping.clientRelative (mapping.clientRelative "a/a/b.lua"))) =
      .ok (some "a/a/b.lua", "a/b.lua", "b.lua") ∧
    ((Mapping.ofSettings { workspaceFolder := some "c:/w" }).map fun mapping =>
      (mapping.sourceToClient "@c:/w/c:/w/b.lua".toUTF8.toList,
        mapping.clientRelative "c:/w/c:/w/b.lua",
        mapping.clientRelative (mapping.clientRelative "c:/w/c:/w/b.lua"))) =
      .ok (some "c:/w/c:/w/b.lua", "c:/w/b.lua", "b.lua") := by
  decide +kernel

end DebugAdapter.Path
