import DebugAdapter.Proofs.Path.Choice
import DebugAdapter.Proofs.Path.Normal

/-!
Directory rules, and what a slash at the end of their paths changes: nothing. A path that is put
under another has one slash before it, whether or not the other was given with one.
-/
namespace DebugAdapter.Path

open Text

variable {text rest : List Char} {front later : List (List Char)}

namespace Form.Proper

variable {form : Form}

theorem nil_last (proper : form.Proper) (split : form.parts = front ++ [] :: later) :
    later = [] := by
  have given := proper.segments.proper
  cases later using List.reverseRecOn with
  | nil => rfl
  | append_singleton others last =>
    have empty : [] ∈ form.segments := by
      unfold parts at split
      split_ifs at split
      · rw [← List.cons_append, ← List.append_assoc] at split
        obtain ⟨same, -⟩ := List.append_inj' split rfl
        simp [same]
      · rw [List.append_nil] at split
        simp [split]
    exact absurd rfl (given [] empty).1

theorem root_below (proper : form.Proper) {middle : List Char}
    (under : form.root = text ++ '/' :: middle) (given : text ≠ []) : middle = [] := by
  obtain ⟨drive, rooted, segments, trailing⟩ := form
  cases drive with
  | none => cases rooted <;> rcases text with _ | ⟨c, _ | ⟨d, text⟩⟩ <;> simp_all [root]
  | some letter =>
    have other : letter ≠ '/' := by
      rintro rfl
      exact absurd (proper.letter _ rfl).1 (by decide)
    cases rooted <;> rcases text with _ | ⟨c, _ | ⟨d, _ | ⟨e, text⟩⟩⟩ <;> simp_all [root]

theorem parts_below (proper : form.Proper) (under : form.chars = text ++ '/' :: rest)
    (given : text ≠ []) (some : rest ≠ []) : ∃ front, form.parts = front ++ split '/' rest := by
  have whole (nonempty : join '/' form.parts ≠ []) :
      split '/' (join '/' form.parts) = form.parts := by
    refine split_join (fun part member => (proper.parts_free part member).1) fun none => ?_
    rw [none] at nonempty
    exact nonempty rfl
  rw [chars_eq] at under
  have inside (middle : List Char) (below : join '/' form.parts = middle ++ '/' :: rest) :
      ∃ front, form.parts = front ++ split '/' rest := by
    rw [below] at whole
    exact ⟨split '/' middle, by rw [← whole (by simp), split_append]⟩
  obtain ⟨middle, -, below⟩ | ⟨middle, root, below⟩ := List.append_eq_append_iff.mp under
  · exact inside middle below
  · cases middle with
    | nil => exact inside [] below.symm
    | cons c middle =>
      obtain ⟨rfl, rfl⟩ := List.cons.inj below
      obtain rfl := proper.root_below root given
      exact ⟨[], (whole some).symm⟩

theorem unstarted_below (proper : form.Proper) (under : form.chars = text ++ '/' :: rest)
    (given : text ≠ []) (some : rest ≠ []) : startsWith '/' rest = false := by
  obtain ⟨front, parts⟩ := proper.parts_below under given some
  by_contra started
  obtain ⟨below, rfl⟩ : ∃ below, rest = '/' :: below := by
    cases rest with
    | nil => contradiction
    | cons c below => exact ⟨below, by simpa [startsWith] using started⟩
  rw [split, if_pos rfl] at parts
  exact split_ne_nil '/' below (proper.nil_last parts)

end Form.Proper

/-- Segments that may come after any others. -/
structure Lower (segments : List (List Char)) : Prop where
  proper : ∀ segment ∈ segments, segment ≠ [] ∧ segment ≠ Form.current
  down : Form.parent ∉ segments
  plain : ∀ segment ∈ segments, '/' ∉ segment ∧ '\\' ∉ segment

theorem Form.Proper.lower_below {form : Form} (proper : form.Proper)
    (parts : form.parts = front ++ later) (given : later ≠ [])
    (first : later.head? ≠ some Form.parent) :
    ∃ (segments : List (List Char)) (trailing : Bool), Lower segments ∧
      later = segments ++ if trailing then [[]] else [] := by
  have lower (segments : List (List Char)) (part : form.segments = front ++ segments)
      (first : segments.head? ≠ some Form.parent) : Lower segments := by
    have member (segment : List Char) (inside : segment ∈ segments) : segment ∈ form.segments :=
      part ▸ List.mem_append_right front inside
    have order := proper.segments.leading
    rw [part] at order
    refine ⟨fun segment inside => proper.segments.proper segment (member segment inside), ?_,
      fun segment inside => proper.plain segment (member segment inside)⟩
    cases segments with
    | nil => exact List.not_mem_nil
    | cons segment rest =>
      have leading := (List.pairwise_cons.mp (List.pairwise_append.mp order).2.1).1
      have other : segment ≠ Form.parent := fun same => first (congrArg some same)
      intro inside
      rcases List.mem_cons.mp inside with same | inside
      · exact other same.symm
      · exact other (leading _ inside rfl)
  unfold Form.parts at parts
  split at parts
  · cases later using List.reverseRecOn with
    | nil => contradiction
    | append_singleton segments last =>
      rw [← List.append_assoc] at parts
      obtain ⟨part, ended⟩ := List.append_inj' parts rfl
      obtain rfl := List.singleton_injective ended
      refine ⟨segments, true, lower segments part ?_, rfl⟩
      intro begun
      rw [List.head?_append, begun] at first
      exact first rfl
  · rw [List.append_nil] at parts
    exact ⟨later, false, lower later parts first, (List.append_nil later).symm⟩

theorem hasDrive_append (given : text ≠ []) (rest : List Char) :
    hasDrive (text ++ '/' :: rest) = hasDrive text := by
  match text, given with
  | [c], _ => rfl
  | c :: d :: text, _ =>
    by_cases colon : d = ':'
    · subst colon
      cases alpha : c.isAlpha <;> simp [hasDrive, splitDrive, alpha]
    · simp [hasDrive, splitDrive, colon]

/-- The path of a directory in normal form, as a rule names it without a slash at the end. -/
structure Bare (text : List Char) : Prop where
  given : text ≠ []
  starless : '*' ∉ text
  unended : endsWith '/' text = false
  settled : normal text = text

theorem Bare.exists_form (bare : Bare text) : ∃ form : Form, form.Proper ∧
    (form.drive = none → hasDrive text = false) ∧ text = form.root ++ join '/' form.segments ∧
    (form.segments = [] → ∃ letter, form.drive = some letter ∧ form.rooted = false) := by
  obtain ⟨-, form, proper, rfl, undriven⟩ := normal_eq_self.mp bare.settled
  have unended := bare.unended
  have parts : form.parts = form.segments := by
    unfold Form.parts
    split
    · rename_i ended
      simp [Form.chars, ended, endsWith] at unended
    · exact List.append_nil _
  have chars : form.chars = form.root ++ join '/' form.segments := by rw [Form.chars_eq, parts]
  refine ⟨form, proper, undriven, chars, fun none => ?_⟩
  have given := bare.given
  rw [chars, none, Form.root] at given unended
  cases drive : form.drive <;> cases rooted : form.rooted <;>
    simp_all [join, endsWith]

theorem Bare.normal_under (bare : Bare text) {segments parts : List (List Char)} {trailing : Bool}
    (lower : Lower segments) (split : parts = segments ++ if trailing then [[]] else [])
    (given : parts ≠ [])
    (trimmed : trim (text ++ '/' :: join '/' parts) = text ++ '/' :: join '/' parts) :
    normal (text ++ '/' :: join '/' parts) = text ++ '/' :: join '/' parts := by
  obtain ⟨form, proper, undriven, chars, alone⟩ := bare.exists_form
  refine normal_eq_self.mpr ⟨trimmed, ?_⟩
  by_cases none : form.segments = []
  · -- The slash after a drive belongs to the root.
    obtain ⟨letter, drive, unrooted⟩ := alone none
    have inner : Form.Resolved true segments :=
      @Form.Resolved.append _ [] segments (Form.resolved_nil true) lower.proper lower.down
    refine ⟨⟨some letter, true, segments, trailing⟩, ⟨drive ▸ proper.letter, inner, lower.plain⟩,
      ?_, nofun⟩
    have body : join '/' (Form.mk (some letter) true segments trailing).parts = join '/' parts := by
      cases segments with
      | nil => cases trailing <;> simp_all [Form.parts, join]
      | cons segment segments => simp [Form.parts, split]
    rw [Form.chars_eq, body, chars, none]
    simp [Form.root, drive, unrooted, join]
  · refine ⟨{ form with segments := form.segments ++ segments, trailing },
      ⟨proper.letter, proper.segments.append lower.proper lower.down, ?_⟩, ?_, ?_⟩
    · intro segment member
      exact (List.mem_append.mp member).elim (proper.plain segment) (lower.plain segment)
    · have all : (form.segments ++ segments).isEmpty = false := by simp [none]
      rw [Form.chars_eq, Form.parts, all, chars, Bool.not_false, Bool.and_true, List.append_assoc,
        ← split, join_append none given]
      simp [Form.root]
    · intro absent
      rw [hasDrive_append bare.given, undriven absent]

namespace Bare

theorem trim_append (bare : Bare text) (given : ∀ c ∈ rest.getLast?, isBlank c = false) :
    trim (text ++ '/' :: rest) = text ++ '/' :: rest := by
  have begun := (trim_eq_self.mp (trim_of_normal bare.settled)).1
  refine trim_eq_self.mpr ⟨?_, ?_⟩
  · rwa [List.head?_append_of_ne_nil _ bare.given]
  · rw [List.getLast?_append_of_ne_nil _ (List.cons_ne_nil '/' rest), List.getLast?_cons]
    cases last : rest.getLast? with
    | none => simp [isBlank, blankRanges]
    | some c => simpa using given c last

theorem normal_slash (bare : Bare text) : normal (text ++ ['/']) = text ++ ['/'] :=
  @Bare.normal_under _ bare [] [[]] true ⟨by simp, by simp, by simp⟩ rfl (List.cons_ne_nil [] [])
    (bare.trim_append nofun)

/-- The directory as the settings may name it, with or without a slash at the end. -/
def Named (text named : List Char) : Prop :=
  named = text ∨ named = text ++ ['/']

theorem normal_named (bare : Bare text) {named : List Char} (given : Named text named) :
    normal named = named := by
  obtain rfl | rfl := given
  · exact bare.settled
  · exact bare.normal_slash

theorem unstarted (bare : Bare text) (given : rest ≠ [])
    (settled : normal (text ++ '/' :: rest) = text ++ '/' :: rest) :
    startsWith '/' rest = false := by
  obtain ⟨-, form, proper, chars, -⟩ := normal_eq_self.mp settled
  exact proper.unstarted_below chars bare.given given

/-- What is under a directory may be moved under another one, unless it begins with `..`. -/
theorem normal_moved {other : List Char} (bare : Bare text) (bareOther : Bare other)
    (given : rest ≠ []) (settled : normal (text ++ '/' :: rest) = text ++ '/' :: rest)
    (first : (split '/' rest).head? ≠ some Form.parent) :
    normal (other ++ '/' :: rest) = other ++ '/' :: rest := by
  obtain ⟨trimmed, form, proper, chars, -⟩ := normal_eq_self.mp settled
  obtain ⟨front, parts⟩ := proper.parts_below chars bare.given given
  obtain ⟨segments, trailing, lower, whole⟩ :=
    proper.lower_below parts (split_ne_nil '/' rest) first
  have ended := (trim_eq_self.mp trimmed).2
  rw [List.getLast?_append_of_ne_nil _ (List.cons_ne_nil '/' rest),
    List.getLast?_cons_of_ne_nil given] at ended
  have moved := bareOther.normal_under lower whole (split_ne_nil '/' rest)
  rw [join_split] at moved
  exact moved (bareOther.trim_append ended)

theorem starless_named (bare : Bare text) {named : List Char} (given : Named text named) :
    named ≠ [] ∧ '*' ∉ named := by
  have starless := bare.starless
  obtain rfl | rfl := given
  · exact ⟨bare.given, starless⟩
  · simpa using starless

end Bare

variable {server client serverNamed clientNamed : List Char}

open Bare (Named)

theorem joinMapped_slash (unended : endsWith '/' client = false) (given : rest ≠ [])
    (unstarted : startsWith '/' rest = false) (named : Named client clientNamed)
    {slash : List Char} (slashes : slash = [] ∨ slash = ['/']) :
    joinMapped clientNamed (slash ++ rest) = client ++ '/' :: rest := by
  have ended : endsWith '/' (client ++ ['/']) = true := by simp [endsWith]
  have started : startsWith '/' ('/' :: rest) = true := by simp [startsWith]
  obtain rfl | rfl := named <;> obtain rfl | rfl := slashes <;>
    simp [joinMapped, given, unended, unstarted, ended, started]

namespace Rule

theorem parse_directory (bare : Bare server) (bareClient : Bare client)
    (named : Named server serverNamed) (namedClient : Named client clientNamed) :
    parse serverNamed clientNamed = .ok (.directory serverNamed clientNamed) := by
  obtain ⟨given, starless⟩ := bare.starless_named named
  obtain ⟨givenClient, starlessClient⟩ := bareClient.starless_named namedClient
  have unsplit : splitFirst? ['*'] serverNamed = none := by
    refine splitFirst?_eq_none.mpr fun before after whole => starless ?_
    simp [whole]
  simp [parse, bare.normal_named named, bareClient.normal_named namedClient, given, givenClient,
    List.count_eq_zero.mpr starless, List.count_eq_zero.mpr starlessClient, unsplit]

theorem toClient?_directory (bare : Bare server) (bareClient : Bare client)
    (named : Named server serverNamed) (namedClient : Named client clientNamed) (given : rest ≠ [])
    (unstarted : startsWith '/' rest = false) :
    (directory serverNamed clientNamed).toClient? (server ++ '/' :: rest) =
      some (client ++ '/' :: rest) := by
  refine (directory_eq_some (bare.starless_named named).1).mpr ?_
  have join := @joinMapped_slash rest client clientNamed bareClient.unended given unstarted
    namedClient
  obtain rfl | rfl := named
  · refine ⟨'/' :: rest, rfl, ?_, (join (.inr rfl)).symm⟩
    simp [Ends, bare.given, startsWith]
  · refine ⟨rest, by simp, ?_, (join (.inl rfl)).symm⟩
    simp [Ends, endsWith]

end Rule

theorem Mapping.ofSettings_single {settings : Config.Settings} {mapping : Mapping}
    {pair : String × String} {rule : Rule} (read : parseRule pair = .ok rule)
    (accepted : ofSettings { settings with sourceMaps := [] } = .ok mapping) :
    ofSettings { settings with sourceMaps := [pair] } = .ok { mapping with rules := [rule] } := by
  obtain ⟨rules, skip, -, compiled, rfl⟩ := ofSettings_eq_ok.mp accepted
  refine ofSettings_eq_ok.mpr ⟨[rule], skip, ?_, compiled, ?_⟩
  · exact Json.mapM_eq_ok.mpr ⟨by simp [read], by simp [read, Except.toOption]⟩
  · rw [List.mergeSort_singleton]

/-- A rule for a directory maps the paths under it to the paths of the same names under its other
directory, with or without slashes at the end of either. -/
theorem directory_slashes_free {server client rest : String} {settings : Config.Settings}
    {mapping : Mapping} (bare : Bare server.toList) (bareClient : Bare client.toList)
    (given : rest ≠ "") (settled : normalize (server ++ "/" ++ rest) = server ++ "/" ++ rest)
    (accepted : Mapping.ofSettings { settings with sourceMaps := [] } = .ok mapping) :
    (∀ serverNamed ∈ [server, server ++ "/"], ∀ clientNamed ∈ [client, client ++ "/"],
      ∃ rule,
        Mapping.ofSettings { settings with sourceMaps := [(serverNamed, clientNamed)] } =
          .ok { mapping with rules := [rule] } ∧
        rule.toClient? (server ++ "/" ++ rest).toList = some (client ++ "/" ++ rest).toList ∧
        ({ mapping with rules := [rule] } : Mapping).serverToClient (server ++ "/" ++ rest) =
          normalize (client ++ "/" ++ rest)) ∧
    ((split '/' rest.toList).head? ≠ some Form.parent →
      normalize (client ++ "/" ++ rest) = client ++ "/" ++ rest) := by
  have under (directory : String) :
      (directory ++ "/" ++ rest).toList = directory.toList ++ '/' :: rest.toList := by
    simp [String.toList_append]
  have named {directory named : String} (member : named ∈ [directory, directory ++ "/"]) :
      Named directory.toList named.toList := by
    rcases List.mem_pair.mp member with rfl | rfl
    · exact .inl rfl
    · exact .inr (by simp [String.toList_append])
  have some : rest.toList ≠ [] := by simpa using given
  have fixed : normal (server.toList ++ '/' :: rest.toList) =
      server.toList ++ '/' :: rest.toList := by
    have chars := congrArg String.toList settled
    rwa [normalize, String.toList_ofList, under] at chars
  refine ⟨fun serverNamed fromServer clientNamed toClient => ?_, fun first => ?_⟩
  · have parsed := Rule.parse_directory bare bareClient (named fromServer) (named toClient)
    have maps := Rule.toClient?_directory bare bareClient (named fromServer) (named toClient) some
      (bare.unstarted some fixed)
    rw [← under, ← under] at maps
    have single : Mapping.parseRule (serverNamed, clientNamed) =
        .ok (.directory serverNamed.toList clientNamed.toList) := by
      simp [Mapping.parseRule, parsed]
    refine ⟨_, Mapping.ofSettings_single single accepted, maps, ?_⟩
    rw [Mapping.serverToClient_eq, under server, fixed, ← under]
    simp only [List.findSome?_cons, maps]
    rfl
  · have moved := bare.normal_moved bareClient some fixed first
    rw [← under] at moved
    rw [normalize, moved, String.ofList_toList]

/-- From the parent of the working directory to a drive, each with a slash at the end or without. -/
theorem directory_slashes_free_on_drive :
    [("..", "c:"), ("..", "c:/"), ("../", "c:"), ("../", "c:/")].map (fun rule =>
      (Mapping.ofSettings { sourceMaps := [rule] }).map (·.serverToClient "../lib/a.lua")) =
      List.replicate 4 (.ok "c:/lib/a.lua") := by
  have bare : Bare "..".toList := ⟨by decide, by decide, by decide, by decide +kernel⟩
  have bareClient : Bare "c:".toList := ⟨by decide, by decide, by decide, by decide +kernel⟩
  have accepted : Mapping.ofSettings { sourceMaps := [] } = .ok {} := by decide +kernel
  obtain ⟨maps, moved⟩ := @directory_slashes_free _ _ "lib/a.lua" {} _ bare bareClient (by decide)
    (by decide +kernel) accepted
  have each (serverNamed clientNamed : String) (fromServer : serverNamed ∈ ["..", "../"])
      (toClient : clientNamed ∈ ["c:", "c:/"]) :
      (Mapping.ofSettings { sourceMaps := [(serverNamed, clientNamed)] }).map
        (·.serverToClient "../lib/a.lua") = .ok "c:/lib/a.lua" := by
    obtain ⟨rule, read, -, same⟩ := maps serverNamed fromServer clientNamed toClient
    rw [read]
    exact congrArg _ (same.trans (moved (by decide +kernel)))
  simp [each, List.replicate_succ]

end DebugAdapter.Path
