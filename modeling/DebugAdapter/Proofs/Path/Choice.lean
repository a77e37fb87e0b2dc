import DebugAdapter.Path.Mapping
import DebugAdapter.Proofs.Json.Shape
import DebugAdapter.Proofs.Path.Wildcard

/-! The choice of a rule. Rules are kept in the order of their specificity, equally specific ones as
the settings give them, so the first one that applies is the one to take. -/
namespace DebugAdapter.Path

open Text

/-- The number of bytes of a pattern in its normal form, its star left out. -/
def literalBytes (pattern : String) : Nat :=
  byteLength ((normal pattern.toList).filter (· ≠ '*'))

variable {server client head tail : List Char} {rule : Rule}

namespace Rule

theorem of_parse_eq_ok (read : parse server client = .ok rule) :
    (rule = .directory (normal server) (normal client) ∧ normal server ≠ [] ∧
      '*' ∉ normal server) ∨
    ∃ head tail clientHead clientTail, rule = .wildcard head tail clientHead clientTail ∧
      normal server = head ++ '*' :: tail ∧ '*' ∉ head ∧ '*' ∉ tail ∧
      normal client = clientHead ++ '*' :: clientTail := by
  simp only [parse] at read
  split_ifs at read with empty emptyClient many uneven
  obtain ⟨single, singleClient⟩ := not_or.mp many
  split at read
  · rename_i head tail clientHead clientTail found foundClient
    cases read
    obtain ⟨whole, free⟩ := of_splitFirst?_eq_some found
    obtain ⟨wholeClient, -⟩ := of_splitFirst?_eq_some foundClient
    have after : '*' ∉ tail := by
      rw [whole, List.count_append, List.count_cons_self] at single
      exact List.count_eq_zero.mp (by omega)
    exact .inr ⟨head, tail, clientHead, clientTail, rfl, whole, free, after, wholeClient⟩
  · rename_i absent
    cases read
    refine .inl ⟨rfl, by simpa using empty, fun occurs => ?_⟩
    have occursClient : '*' ∈ normal client := by
      rw [← List.count_pos_iff] at occurs ⊢
      omega
    obtain ⟨head, tail, whole, free⟩ := List.eq_append_cons_of_mem occurs
    obtain ⟨clientHead, clientTail, wholeClient, freeClient⟩ :=
      List.eq_append_cons_of_mem occursClient
    exact absent head tail clientHead clientTail (whole ▸ splitFirst?_append free tail)
      (wholeClient ▸ splitFirst?_append freeClient clientTail)

end Rule

theorem Mapping.of_parseRule_eq_ok {pair : String × String}
    (read : Mapping.parseRule pair = .ok rule) :
    Rule.parse pair.1.toList pair.2.toList = .ok rule := by
  unfold Mapping.parseRule at read
  split at read
  · rename_i parsed
    cases read
    exact parsed
  · contradiction

theorem Mapping.parseRule_specificity {pair : String × String}
    (read : Mapping.parseRule pair = .ok rule) : rule.specificity = literalBytes pair.1 := by
  have literal {text : List Char} (free : '*' ∉ text) : text.filter (· ≠ '*') = text :=
    List.filter_eq_self.mpr fun c occurs => by simpa using ne_of_mem_of_not_mem occurs free
  obtain ⟨rfl, -, free⟩ | ⟨head, tail, _, _, rfl, whole, free, freeTail, -⟩ :=
    Rule.of_parse_eq_ok (Mapping.of_parseRule_eq_ok read)
  · rw [literalBytes, literal free, Rule.specificity]
  · rw [literalBytes, whole, List.filter_append, List.filter_cons_of_neg (by simp),
      literal free, literal freeTail, byteLength_append, Rule.specificity]

open Mapping (moreSpecific)

variable {rules others : List Rule}

theorem moreSpecific_iff {a b : Rule} :
    moreSpecific a b = true ↔ b.specificity ≤ a.specificity :=
  decide_eq_true_iff

theorem moreSpecific_trans (a b c : Rule) (left : moreSpecific a b) (right : moreSpecific b c) :
    moreSpecific a c :=
  moreSpecific_iff.mpr ((moreSpecific_iff.mp right).trans (moreSpecific_iff.mp left))

theorem moreSpecific_total (a b : Rule) : moreSpecific a b || moreSpecific b a := by
  rw [Bool.or_eq_true, moreSpecific_iff, moreSpecific_iff]
  exact Nat.le_total _ _

theorem mergeSort_pairwise (rules : List Rule) :
    (rules.mergeSort moreSpecific).Pairwise fun a b => b.specificity ≤ a.specificity :=
  (List.pairwise_mergeSort moreSpecific_trans moreSpecific_total rules).imp moreSpecific_iff.mp

theorem mergeSort_filter (rules : List Rule) (n : Nat) :
    (rules.mergeSort moreSpecific).filter (·.specificity = n) =
      rules.filter (·.specificity = n) := by
  have level : (rules.filter (·.specificity = n)).Pairwise (moreSpecific · ·) := by
    refine List.pairwise_filter.mpr (List.pairwise_of_forall fun a b first second =>
      moreSpecific_iff.mpr ?_)
    rw [of_decide_eq_true first, of_decide_eq_true second]
  have kept := (List.sublist_mergeSort moreSpecific_trans moreSpecific_total level
    List.filter_sublist).filter (·.specificity = n)
  rw [List.filter_filter] at kept
  simp only [Bool.and_self] at kept
  exact (kept.eq_of_length ((List.mergeSort_perm rules _).symm.filter _).length_eq).symm

/-- Rules in the order of their specificity are given by those of each specificity. -/
theorem eq_of_filter_eq (sorted : rules.Pairwise fun a b => b.specificity ≤ a.specificity)
    (sortedOthers : others.Pairwise fun a b => b.specificity ≤ a.specificity)
    (same : ∀ n, rules.filter (·.specificity = n) = others.filter (·.specificity = n)) :
    rules = others := by
  induction rules generalizing others with
  | nil =>
    cases others with
    | nil => rfl
    | cons other later => simpa using same other.specificity
  | cons rule rest ih =>
    cases others with
    | nil => simpa using same rule.specificity
    | cons other later =>
      obtain ⟨below, inner⟩ := List.pairwise_cons.mp sorted
      obtain ⟨belowOther, innerOthers⟩ := List.pairwise_cons.mp sortedOthers
      have mem (r : Rule) : r ∈ rule :: rest ↔ r ∈ other :: later := by
        simpa only [List.mem_filter, decide_true, and_true] using
          Eq.to_iff (congrArg (r ∈ ·) (same r.specificity))
      have level : other.specificity = rule.specificity := by
        refine Nat.le_antisymm ?_ ?_
        · obtain rfl | member := List.mem_cons.mp ((mem other).mpr List.mem_cons_self)
          · exact Nat.le_refl _
          · exact below other member
        · obtain rfl | member := List.mem_cons.mp ((mem rule).mp List.mem_cons_self)
          · exact Nat.le_refl _
          · exact belowOther rule member
      have heads := same rule.specificity
      rw [List.filter_cons_of_pos (by simp),
        List.filter_cons_of_pos (by simpa using level)] at heads
      obtain ⟨rfl, -⟩ := List.cons.inj heads
      refine congrArg _ (ih inner innerOthers fun n => ?_)
      have tails := same n
      simp only [List.filter_cons] at tails
      split at tails
      · exact (List.cons.inj tails).2
      · exact tails

variable {path mapped : List Char}

/-- The rule that maps the path: the first among the most specific ones that apply. -/
def Chosen (rules : List Rule) (path : List Char) (rule : Rule) : Prop :=
  ∃ before after, rules = before ++ rule :: after ∧ rule.toClient? path ≠ none ∧
    (∀ other ∈ before, other.toClient? path ≠ none → other.specificity < rule.specificity) ∧
    (∀ other ∈ after, other.toClient? path ≠ none → other.specificity ≤ rule.specificity)

theorem Chosen.unique {other : Rule} (chosen : Chosen rules path rule)
    (also : Chosen rules path other) : other = rule := by
  obtain ⟨before, after, split, applies, less, notMore⟩ := chosen
  obtain ⟨front, back, resplit, appliesToo, lessToo, notMoreToo⟩ := also
  obtain ⟨between, rfl, tails⟩ | ⟨between, rfl, tails⟩ :=
    List.append_eq_append_iff.mp (split.symm.trans resplit)
  · cases between with
    | nil => exact (List.cons.inj tails).1.symm
    | cons first between =>
      obtain ⟨rfl, rfl⟩ := List.cons.inj tails
      have lower := lessToo rule (by simp) applies
      have higher := notMore other (by simp) appliesToo
      omega
  · cases between with
    | nil => exact (List.cons.inj tails).1
    | cons first between =>
      obtain ⟨rfl, rfl⟩ := List.cons.inj tails
      have lower := less other (by simp) appliesToo
      have higher := notMoreToo rule (by simp) applies
      omega

theorem chosen_of_sorted
    (found : (rules.mergeSort moreSpecific).findSome? (·.toClient? path) = some mapped) :
    ∃ rule, Chosen rules path rule ∧ rule.toClient? path = some mapped := by
  obtain ⟨earlier, rule, later, sorted, applies, passed⟩ := List.findSome?_eq_some_iff.mp found
  have applies : rule.toClient? path = some mapped := applies
  have highest (other : Rule) (member : other ∈ rules) (alsoApplies : other.toClient? path ≠ none) :
      other.specificity ≤ rule.specificity := by
    have order := mergeSort_pairwise rules
    rw [sorted, List.pairwise_append, List.pairwise_cons] at order
    rw [← List.mem_mergeSort, sorted, List.mem_append, List.mem_cons] at member
    obtain before | rfl | after := member
    · exact absurd (passed other before) alsoApplies
    · exact Nat.le_refl _
    · exact order.2.1.1 other after
  have level := mergeSort_filter rules rule.specificity
  rw [sorted, List.filter_append, List.filter_cons_of_pos (by simp)] at level
  obtain ⟨before, rest, rfl, levelBefore, levelRest⟩ := List.filter_eq_append_iff.mp level.symm
  obtain ⟨between, after, rfl, unequal, -, -⟩ := List.filter_eq_cons_iff.mp levelRest
  refine ⟨rule, ⟨before ++ between, after, by simp, by simp [applies], ?_, ?_⟩, applies⟩
  · intro other member alsoApplies
    have given : other ∈ before ++ (between ++ rule :: after) :=
      List.append_assoc before between _ ▸ List.mem_append_left _ member
    refine Nat.lt_of_le_of_ne (highest other given alsoApplies) fun equal => ?_
    obtain member | member := List.mem_append.mp member
    · have first : other ∈ earlier.filter (·.specificity = rule.specificity) :=
        levelBefore ▸ List.mem_filter.mpr ⟨member, by simpa using equal⟩
      exact alsoApplies (passed other (List.mem_of_mem_filter first))
    · exact absurd equal (by simpa using unequal other member)
  · intro other member
    exact highest other (by simp [member])

variable {maps reordered : List (String × String)} {settings : Config.Settings} {mapping : Mapping}

/-- The same pairs, those with as many literal bytes in the same order. -/
def SameLevels (reordered maps : List (String × String)) : Prop :=
  ∀ n, reordered.filter (literalBytes ·.1 = n) = maps.filter (literalBytes ·.1 = n)

/-- Pairs that all differ in their literal bytes may come in any order. -/
theorem SameLevels.of_perm
    (distinct : maps.Pairwise fun a b => literalBytes a.1 ≠ literalBytes b.1)
    (permuted : reordered.Perm maps) : SameLevels reordered maps := by
  intro n
  have alone {maps : List (String × String)}
      (distinct : maps.Pairwise fun a b => literalBytes a.1 ≠ literalBytes b.1) :
      (maps.filter (literalBytes ·.1 = n)).Pairwise fun _ _ => False := by
    refine List.pairwise_filter.mpr (distinct.imp fun differ first second => differ ?_)
    rw [of_decide_eq_true first, of_decide_eq_true second]
  exact (permuted.filter _).eq_of_pairwise (fun _ _ _ _ absurd _ => absurd.elim)
    (alone (distinct.perm permuted.symm Ne.symm)) (alone distinct)

namespace Mapping

theorem parseRules_specificity (read : maps.mapM parseRule = .ok rules) :
    rules.map Rule.specificity = maps.map (literalBytes ·.1) := by
  obtain ⟨total, rfl⟩ := Json.mapM_eq_ok.mp read
  rw [List.map_filterMap, ← List.filterMap_eq_map]
  refine List.filterMap_congr fun pair given => ?_
  obtain ⟨rule, parsed⟩ := total pair given
  simp [parsed, Except.toOption, parseRule_specificity parsed]

theorem parseRules_filter (read : maps.mapM parseRule = .ok rules) (n : Nat) :
    rules.filter (·.specificity = n) =
      (maps.filter (literalBytes ·.1 = n)).filterMap fun pair => (parseRule pair).toOption := by
  obtain ⟨total, rfl⟩ := Json.mapM_eq_ok.mp read
  rw [List.filter_filterMap, List.filterMap_filter]
  refine List.filterMap_congr fun pair given => ?_
  obtain ⟨rule, parsed⟩ := total pair given
  simp [parsed, Except.toOption, parseRule_specificity parsed, Option.filter]

theorem ofSettings_eq_ok : ofSettings settings = .ok mapping ↔
    ∃ rules skip, settings.sourceMaps.mapM parseRule = .ok rules ∧
      settings.skipFiles.mapM compileSkip = .ok skip ∧
      mapping = {
        rules := rules.mergeSort moreSpecific
        skip
        workspaceFolder := nonblankPath settings.workspaceFolder
        cwd := nonblankPath settings.cwd
        sourceCoding := settings.sourceCoding
        consoleCoding := settings.consoleCoding } := by
  simp only [ofSettings, Json.bind_eq_ok]
  constructor
  · rintro ⟨rules, read, skip, compiled, made⟩
    cases made
    exact ⟨rules, skip, read, compiled, rfl⟩
  · rintro ⟨rules, skip, read, compiled, rfl⟩
    exact ⟨rules, read, skip, compiled, rfl⟩

theorem directory_given (read : maps.mapM parseRule = .ok rules)
    (given : .directory server client ∈ rules) : server ≠ [] := by
  obtain ⟨pair, -, parsed⟩ := Json.mem_mapM read _ given
  obtain ⟨same, nonempty, -⟩ | ⟨_, _, _, _, same, -⟩ :=
    Rule.of_parse_eq_ok (of_parseRule_eq_ok parsed)
  · cases same
    exact nonempty
  · contradiction

/-- Only the order of pairs with as many literal bytes counts. -/
theorem ofSettings_reordered (accepted : ofSettings settings = .ok mapping)
    (same : SameLevels reordered settings.sourceMaps) :
    ofSettings { settings with sourceMaps := reordered } = .ok mapping := by
  obtain ⟨rules, skip, read, compiled, rfl⟩ := ofSettings_eq_ok.mp accepted
  have total (pair : String × String) (given : pair ∈ reordered) :
      ∃ rule, parseRule pair = .ok rule := by
    have level : pair ∈ reordered.filter (literalBytes ·.1 = literalBytes pair.1) := by
      simpa using given
    rw [same] at level
    exact (Json.mapM_eq_ok.mp read).1 pair (List.mem_of_mem_filter level)
  have also := Json.mapM_eq_ok.mpr ⟨total, rfl⟩
  refine ofSettings_eq_ok.mpr ⟨_, skip, also, compiled, ?_⟩
  rw [eq_of_filter_eq (mergeSort_pairwise rules) (mergeSort_pairwise _) fun n => ?_]
  rw [mergeSort_filter, mergeSort_filter, parseRules_filter read, parseRules_filter also, same]

theorem serverToClient_eq (mapping : Mapping) (path : String) : mapping.serverToClient path =
    match mapping.rules.findSome? (·.toClient? (normal path.toList)) with
    | some mapped => .ofList (normal mapped)
    | none => normalize path := by
  simp only [serverToClient, serverToClientChars, normalize]
  cases mapping.rules.findSome? (·.toClient? (normal path.toList)) <;> rfl

end Mapping

theorem afterPrefix?_eq_some {rest : List Char} (given : server ≠ []) :
    afterPrefix? server path = some rest ↔ path = server ++ rest ∧ Ends server rest := by
  have begins : server.isPrefixOf? path = some rest ↔ path = server ++ rest :=
    List.isPrefixOf?_eq_some_iff_append_eq.trans eq_comm
  rw [afterPrefix?, ← begins]
  cases server.isPrefixOf? path with
  | none => exact ⟨nofun, nofun⟩
  | some after =>
    rw [Option.ite_none_right_eq_some, ends_iff given, and_comm]
    exact and_congr_right fun same => by cases same; exact Iff.rfl

theorem Rule.directory_eq_some (given : server ≠ []) :
    (Rule.directory server client).toClient? path = some mapped ↔ ∃ rest, path = server ++ rest ∧
      Ends server rest ∧ mapped = joinMapped client rest := by
  simp only [toClient?, Option.map_eq_some_iff, afterPrefix?_eq_some given, and_assoc,
    @eq_comm _ mapped]

/-- The most specific of the rules that apply maps a path, the first of the settings among equals;
without one the path stays as it is, in its normal form. Only pairs with as many literal bytes
depend on their order, and a directory covers what begins with it up to the end of a segment. -/
theorem most_specific_rule_maps (accepted : Mapping.ofSettings settings = .ok mapping) :
    ∃ rules, settings.sourceMaps.mapM Mapping.parseRule = .ok rules ∧
      rules.map Rule.specificity = settings.sourceMaps.map (literalBytes ·.1) ∧
      (∀ path,
        ((∀ rule ∈ rules, rule.toClient? (normal path.toList) = none) ∧
          mapping.serverToClient path = normalize path) ∨
        ∃ rule mapped, Chosen rules (normal path.toList) rule ∧
          (∀ other, Chosen rules (normal path.toList) other → other = rule) ∧
          rule.toClient? (normal path.toList) = some mapped ∧
          mapping.serverToClient path = .ofList (normal mapped)) ∧
      (∀ reordered, SameLevels reordered settings.sourceMaps →
        Mapping.ofSettings { settings with sourceMaps := reordered } = .ok mapping) ∧
      ((settings.sourceMaps.Pairwise fun a b => literalBytes a.1 ≠ literalBytes b.1) →
        ∀ reordered, reordered.Perm settings.sourceMaps →
          Mapping.ofSettings { settings with sourceMaps := reordered } = .ok mapping) ∧
      (∀ server client, .directory server client ∈ rules → ∀ path mapped,
        (Rule.directory server client).toClient? path = some mapped ↔
          ∃ rest, path = server ++ rest ∧ Ends server rest ∧ mapped = joinMapped client rest) := by
  obtain ⟨rules, skip, read, -, same⟩ := Mapping.ofSettings_eq_ok.mp accepted
  have sorted : mapping.rules = rules.mergeSort moreSpecific := by rw [same]
  refine ⟨rules, read, Mapping.parseRules_specificity read, ?_, ?_, ?_, ?_⟩
  · intro path
    rw [Mapping.serverToClient_eq, sorted]
    cases found : (rules.mergeSort moreSpecific).findSome? (·.toClient? (normal path.toList)) with
    | none =>
      refine .inl ⟨fun rule given => ?_, rfl⟩
      exact List.findSome?_eq_none_iff.mp found rule (List.mem_mergeSort.mpr given)
    | some mapped =>
      obtain ⟨rule, chosen, applies⟩ := chosen_of_sorted found
      exact .inr ⟨rule, mapped, chosen, fun other => chosen.unique, applies, rfl⟩
  · intro reordered
    exact Mapping.ofSettings_reordered accepted
  · intro distinct reordered permuted
    exact Mapping.ofSettings_reordered accepted (SameLevels.of_perm distinct permuted)
  · intro server client given path mapped
    exact Rule.directory_eq_some (Mapping.directory_given read given)

def nested : Config.Settings :=
  { sourceMaps := [("/src/", "c:/proj/"), ("/src/lib/", "c:/vendor/")] }

/-- The directory within the other has its own rule, before or after the other. -/
theorem nested_directory_maps : ∃ mapping, Mapping.ofSettings nested = .ok mapping ∧
    mapping.serverToClient "/src/lib/x.lua" = "c:/vendor/x.lua" ∧
    Mapping.ofSettings { nested with sourceMaps := nested.sourceMaps.reverse } = .ok mapping := by
  have parsed : nested.sourceMaps.mapM Mapping.parseRule = .ok
      [.directory "/src/".toList "c:/proj/".toList,
        .directory "/src/lib/".toList "c:/vendor/".toList] := by decide +kernel
  have accepted := Mapping.ofSettings_eq_ok.mpr ⟨_, [], parsed, rfl, rfl⟩
  obtain ⟨rules, read, -, maps, -, permuted, -⟩ := most_specific_rule_maps accepted
  refine ⟨_, accepted, ?_, permuted (by decide +kernel) _ (List.reverse_perm _)⟩
  cases read.symm.trans parsed
  obtain ⟨missed, -⟩ | ⟨rule, mapped, -, only, applies, result⟩ := maps "/src/lib/x.lua"
  · exact absurd (missed _ (List.mem_cons_of_mem _ List.mem_cons_self)) (by decide +kernel)
  · obtain rfl := only _ ⟨[.directory "/src/".toList "c:/proj/".toList], [], rfl,
      by decide +kernel, by decide +kernel, by decide +kernel⟩
    obtain rfl : "c:/vendor/x.lua".toList = mapped :=
      Option.some.inj (Eq.trans (by decide +kernel) applies)
    exact result.trans (by decide +kernel)

end DebugAdapter.Path
