import DebugAdapter.Config.Document
import DebugAdapter.Proofs.Json.Members
import DebugAdapter.Proofs.Json.Shape
import Mathlib.Data.List.Induction

/-! The configuration as a history of writes. Under each key the last accepted write to a level
counts for that level, and of the levels that hold a value the highest one counts. -/
namespace DebugAdapter.Config

open Json (Members bind_eq_ok)

def present? : Json → Option Json
  | .null => none
  | value => some value

/-- What writes leave under a key: the last one counts, and null leaves nothing. -/
def lastWrite (writes : Members) (key : String) : Option Json :=
  (Members.find? key writes.reverse).bind present?

def highest (value : Level → Option Json) : Option Json :=
  [Level.runtime, .launch, .defaults].findSome? value

/-- The value under a key, as writes to the levels leave it. -/
def layered (writes : Level → Members) (key : String) : Option Json :=
  highest fun level => lastWrite (writes level) key

/-- The settings are what the object with these values decodes to. -/
def Decodes (values : String → Option Json) (settings : Settings) : Prop :=
  ∃ members : Members, members.Ordered ∧ (∀ key, members.find? key = values key) ∧
    Store.readSettings (.object members) = .ok settings

theorem Decodes.unique {values : String → Option Json} {settings others : Settings}
    (decodes : Decodes values settings) (again : Decodes values others) : settings = others := by
  obtain ⟨members, ordered, found, read⟩ := decodes
  obtain ⟨same, ascending, held, reread⟩ := again
  have equal := ordered.ext ascending fun key => (found key).trans (held key).symm
  subst equal
  exact Except.ok.inj (read.symm.trans reread)

theorem lastWrite_append (writes update : Members) (key : String) :
    lastWrite (writes ++ update) key =
      match Members.find? key update.reverse with
      | some value => present? value
      | none => lastWrite writes key := by
  unfold lastWrite
  rw [List.reverse_append, Members.find?_append]
  cases Members.find? key update.reverse <;> rfl

theorem find?_updateMembers (members update : Members) (key : String) :
    Members.find? key (updateMembers members update) =
      match Members.find? key update.reverse with
      | some value => present? value
      | none => members.find? key := by
  induction update using List.reverseRecOn with
  | nil => rfl
  | append_singleton update write ih =>
    obtain ⟨name, value⟩ := write
    rw [List.reverse_append, List.reverse_singleton, List.singleton_append, Members.find?_cons]
    simp only [updateMembers, List.foldl_append, List.foldl_cons, List.foldl_nil] at ih ⊢
    by_cases own : name = key
    · cases value <;> simp [own, present?]
    · cases value <;> simpa [own] using ih

theorem updateMembers_ordered {members : Members} (ordered : members.Ordered) (update : Members) :
    (updateMembers members update).Ordered := by
  induction update generalizing members with
  | nil => exact ordered
  | cons write rest ih =>
    obtain ⟨name, value⟩ := write
    rw [updateMembers, List.foldl_cons]
    cases value with
    | null => exact ih (ordered.erase name)
    | _ => exact ih (ordered.insert name _)

theorem updateMembers_idem {members : Members} (ordered : members.Ordered) (update : Members) :
    updateMembers (updateMembers members update) update = updateMembers members update := by
  have once := updateMembers_ordered ordered update
  refine (updateMembers_ordered once update).ext once fun key => ?_
  rw [find?_updateMembers, find?_updateMembers]
  cases Members.find? key update.reverse <;> rfl

namespace Levels

variable {levels : Levels}

@[simp] theorem get_set (levels : Levels) (level other : Level) (members : Members) :
    (levels.set level members).get other = if other = level then members else levels.get other := by
  cases level <;> cases other <;> rfl

theorem ext_get {others : Levels} (same : ∀ level, levels.get level = others.get level) :
    levels = others := by
  obtain ⟨defaults, launch, runtime⟩ := levels
  have first := same .defaults
  have second := same .launch
  have third := same .runtime
  simp only [get] at first second third
  rw [first, second, third]

def Ordered (levels : Levels) : Prop :=
  ∀ level, (levels.get level).Ordered

theorem Ordered.set (ordered : levels.Ordered) {members : Members} (level : Level)
    (ascending : members.Ordered) : (levels.set level members).Ordered := by
  intro other
  rw [get_set]
  split
  · exact ascending
  · exact ordered other

theorem overlay_spec {below : Members} (settled : below.Ordered) (level : Members) :
    (level.foldl (fun members (key, value) => members.insert key value) below).Ordered ∧
      (level.Ordered → ∀ key,
        Members.find? key (level.foldl (fun members (key, value) => members.insert key value) below)
          = (level.find? key).or (below.find? key)) := by
  induction level generalizing below with
  | nil => exact ⟨settled, fun _ key => rfl⟩
  | cons entry rest ih =>
    obtain ⟨name, value⟩ := entry
    obtain ⟨later, found⟩ := ih (settled.insert name value)
    refine ⟨later, fun ordered key => ?_⟩
    have above := (List.pairwise_cons.mp ordered).2
    rw [List.foldl_cons, found above key, Members.find?_insert, Members.find?_cons]
    by_cases own : name = key
    · rw [if_pos own, if_pos own, ordered.find?_below (le_of_eq own.symm), Option.none_or,
        Option.some_or]
    · rw [if_neg own, if_neg own]

theorem merged_ordered (levels : Levels) : levels.merged.Ordered :=
  (overlay_spec (overlay_spec (overlay_spec Members.ordered_nil _).1 _).1 _).1

theorem find?_merged (ordered : levels.Ordered) (key : String) :
    Members.find? key levels.merged = highest fun level => (levels.get level).find? key := by
  obtain ⟨lowest, defaults⟩ := overlay_spec Members.ordered_nil levels.defaults
  obtain ⟨middle, launch⟩ := overlay_spec lowest levels.launch
  obtain ⟨_, runtime⟩ := overlay_spec middle levels.runtime
  have found := runtime (ordered .runtime) key
  rw [launch (ordered .launch) key, defaults (ordered .defaults) key] at found
  refine found.trans ?_
  simp only [highest, List.findSome?_cons, List.findSome?_nil, get]
  cases levels.runtime.find? key <;> cases levels.launch.find? key <;>
    cases levels.defaults.find? key <;> rfl

end Levels

namespace Store

variable {store next : Store} {levels : Levels} {level : Level} {value : Json}

theorem ofLevels_eq_ok : ofLevels levels = .ok store ↔
    readSettings (.object levels.merged) = .ok store.settings ∧
      checkFilters store.settings.exceptionFilters = .ok () ∧
      Path.Mapping.ofSettings store.settings = .ok store.mapping ∧ store.levels = levels := by
  simp only [ofLevels, bind_eq_ok]
  constructor
  · rintro ⟨settings, read, ⟨⟩, known, mapping, built, made⟩
    cases made
    exact ⟨read, known, built, rfl⟩
  · rintro ⟨read, known, built, rfl⟩
    exact ⟨store.settings, read, (), known, store.mapping, built, rfl⟩

/-- The levels of a store are in order, and the rest of it is what they make up. -/
structure Valid (store : Store) : Prop where
  ordered : store.levels.Ordered
  whole : ofLevels store.levels = .ok store

theorem mapping_new : Path.Mapping.ofSettings {} = .ok {} := by
  simp [Path.Mapping.ofSettings, Path.Mapping.nonblankPath, bind, Except.bind, pure, Except.pure]

theorem valid_new : ({} : Store).Valid where
  ordered := fun level => by cases level <;> exact Members.ordered_nil
  whole := ofLevels_eq_ok.mpr ⟨rfl, rfl, mapping_new, rfl⟩

theorem Valid.settings (valid : store.Valid) :
    Decodes (fun key => highest fun level => (store.levels.get level).find? key) store.settings :=
  ⟨store.levels.merged, store.levels.merged_ordered, Levels.find?_merged valid.ordered,
    (ofLevels_eq_ok.mp valid.whole).1⟩

theorem Valid.mapping (valid : store.Valid) :
    Path.Mapping.ofSettings store.settings = .ok store.mapping :=
  (ofLevels_eq_ok.mp valid.whole).2.2.1

theorem Valid.ext (valid : store.Valid) (other : next.Valid) (same : store.levels = next.levels) :
    store = next := by
  have whole := valid.whole
  rw [same, other.whole] at whole
  exact (Except.ok.inj whole).symm

theorem apply_object {update : Members} (applied : store.apply level (.object update) = .ok next) :
    next.levels = store.levels.set level (updateMembers (store.levels.get level) update) ∧
      ofLevels next.levels = .ok next := by
  have same := (ofLevels_eq_ok.mp applied).2.2.2
  exact ⟨same, same ▸ applied⟩

theorem apply_isObject (applied : store.apply level value = .ok next) :
    ∃ update, value = .object update := by
  cases value with
  | object update => exact ⟨update, rfl⟩
  | _ => contradiction

theorem Valid.apply (valid : store.Valid) (applied : store.apply level value = .ok next) :
    next.Valid := by
  obtain ⟨update, rfl⟩ := apply_isObject applied
  obtain ⟨levels, whole⟩ := apply_object applied
  refine ⟨?_, whole⟩
  rw [levels]
  exact valid.ordered.set level (updateMembers_ordered (valid.ordered level) update)

theorem loadDefaults_spec {path : String} {content : Except ReadFault (List UInt8)}
    (loaded : store.loadDefaults path content = .ok next) :
    ∃ update, ∀ other : Store, other.loadDefaults path content = other.apply .defaults update := by
  cases content with
  | error fault => contradiction
  | ok bytes =>
    simp only [loadDefaults] at loaded ⊢
    split at loaded
    · contradiction
    · unfold applyDocument at loaded ⊢
      split at loaded
      · rename_i update _
        exact ⟨update, fun other => rfl⟩
      · contradiction

theorem Valid.apply_idem (valid : store.Valid) (applied : store.apply level value = .ok next) :
    next.apply level value = .ok next := by
  obtain ⟨update, rfl⟩ := apply_isObject applied
  obtain ⟨levels, whole⟩ := apply_object applied
  have again : next.levels.set level (updateMembers (next.levels.get level) update) =
      next.levels := by
    refine Levels.ext_get fun other => ?_
    rw [levels, Levels.get_set, Levels.get_set, if_pos rfl,
      updateMembers_idem (valid.ordered level) update, Levels.get_set]
    split <;> rfl
  simp only [Store.apply, again]
  exact whole

theorem Valid.apply_comm (valid : store.Valid) {first second : Level} (apart : first ≠ second)
    {a b : Json} {one two other both : Store}
    (early : store.apply first a = .ok one) (late : one.apply second b = .ok two)
    (before : store.apply second b = .ok other) (after : other.apply first a = .ok both) :
    two = both := by
  obtain ⟨update, rfl⟩ := apply_isObject early
  obtain ⟨change, rfl⟩ := apply_isObject late
  refine ((valid.apply early).apply late).ext ((valid.apply before).apply after) ?_
  rw [(apply_object late).1, (apply_object after).1, (apply_object early).1,
    (apply_object before).1]
  refine Levels.ext_get fun level => ?_
  simp only [Levels.get_set, if_neg apart, if_neg (Ne.symm apart)]
  by_cases onFirst : level = first
  · have elsewhere : level ≠ second := onFirst ▸ apart
    rw [if_neg elsewhere, if_pos onFirst, if_pos onFirst]
  · rw [if_neg onFirst, if_neg onFirst]

/-- A call hands an update to a level; one that is refused leaves the store as it was. -/
def call (store : Store) (call : Level × Json) : Store :=
  match store.apply call.1 call.2 with
  | .ok next => next
  | .error _ => store

def replay (calls : List (Level × Json)) : Store :=
  calls.foldl call {}

/-- What a call writes to a level, if it is accepted. -/
def accepted (store : Store) (level : Level) (call : Level × Json) : Members :=
  match store.apply call.1 call.2, call.2 with
  | .ok _, .object update => if level = call.1 then update else []
  | _, _ => []

def writes (store : Store) (level : Level) : List (Level × Json) → Members
  | [] => []
  | call :: rest => store.accepted level call ++ (store.call call).writes level rest

/-- What each level holds is what the writes to it leave. -/
def Holds (store : Store) (writes : Level → Members) : Prop :=
  store.Valid ∧ ∀ level key, (store.levels.get level).find? key = lastWrite (writes level) key

theorem Holds.call {writes : Level → Members} (holds : store.Holds writes) (call : Level × Json) :
    (store.call call).Holds fun level => writes level ++ store.accepted level call := by
  obtain ⟨level, value⟩ := call
  obtain ⟨valid, held⟩ := holds
  cases applied : store.apply level value with
  | error error =>
    simp only [Store.call, accepted, applied, List.append_nil]
    exact ⟨valid, held⟩
  | ok next =>
    obtain ⟨update, rfl⟩ := apply_isObject applied
    simp only [Store.call, accepted, applied]
    refine ⟨valid.apply applied, fun other key => ?_⟩
    rw [(apply_object applied).1, Levels.get_set]
    by_cases own : other = level
    · simp only [if_pos own]
      rw [find?_updateMembers, lastWrite_append, own, held]
    · simp only [if_neg own, List.append_nil, held]

theorem Holds.replay {earlier : Level → Members} (holds : store.Holds earlier)
    (calls : List (Level × Json)) :
    (calls.foldl Store.call store).Holds fun level =>
      earlier level ++ store.writes level calls := by
  induction calls generalizing store earlier with
  | nil =>
    simp only [writes, List.append_nil]
    exact holds
  | cons call rest ih =>
    simp only [writes, ← List.append_assoc]
    exact ih (holds.call call)

theorem replay_holds (calls : List (Level × Json)) :
    (replay calls).Holds fun level => ({} : Store).writes level calls := by
  have start : ({} : Store).Holds fun _ => [] :=
    ⟨valid_new, fun level key => by cases level <;> rfl⟩
  have holds := start.replay calls
  simp only [List.nil_append] at holds
  exact holds

theorem Holds.layered {writes : Level → Members} (holds : store.Holds writes) (key : String) :
    (highest fun level => (store.levels.get level).find? key) = layered writes key := by
  simp only [Config.layered, holds.2]

/-- An update is accepted if what the levels make up with it is valid, and only then. -/
theorem Holds.apply_ok {writes : Level → Members} (holds : store.Holds writes) (level : Level)
    (value : Json) :
    (∃ next, store.apply level value = .ok next) ↔
      ∃ update settings mapping, value = .object update ∧
        Decodes (Config.layered fun other => writes other ++ if other = level then update else [])
          settings ∧
        checkFilters settings.exceptionFilters = .ok () ∧
        Path.Mapping.ofSettings settings = .ok mapping := by
  constructor
  · rintro ⟨next, applied⟩
    obtain ⟨update, rfl⟩ := apply_isObject applied
    have after := holds.call (level, .object update)
    simp only [Store.call, accepted, applied] at after
    have decodes := after.1.settings
    rw [funext after.layered] at decodes
    exact ⟨update, next.settings, next.mapping, rfl, decodes, (ofLevels_eq_ok.mp applied).2.1,
      after.1.mapping⟩
  · rintro ⟨update, settings, mapping, rfl, ⟨members, ordered, found, read⟩, known, built⟩
    let levels := store.levels.set level (updateMembers (store.levels.get level) update)
    have inOrder : levels.Ordered :=
      holds.1.ordered.set level (updateMembers_ordered (holds.1.ordered level) update)
    have merged : levels.merged = members := by
      refine levels.merged_ordered.ext ordered fun key => ?_
      rw [Levels.find?_merged inOrder, found]
      refine congrArg highest (funext fun other => ?_)
      by_cases own : other = level
      · simp only [levels, Levels.get_set, if_pos own]
        rw [find?_updateMembers, lastWrite_append, ← own, holds.2]
      · simp only [levels, Levels.get_set, if_neg own, List.append_nil, holds.2]
    exact ⟨⟨levels, settings, mapping⟩,
      ofLevels_eq_ok.mpr ⟨merged.symm ▸ read, known, built, rfl⟩⟩

/-- After any calls the settings are those that the last writes of the highest levels decode to, and
paths are mapped by them. A call is accepted if it keeps this possible; one that is refused changes
nothing; and accepted updates of two levels come to the same in either order. -/
theorem replay_layered (calls : List (Level × Json)) :
    let store := replay calls
    let writes level := ({} : Store).writes level calls
    Decodes (Config.layered writes) store.settings ∧
    Path.Mapping.ofSettings store.settings = .ok store.mapping ∧
    (∀ level value, (∃ next, store.apply level value = .ok next) ↔
      ∃ update settings mapping, value = .object update ∧
        Decodes (Config.layered fun other => writes other ++ if other = level then update else [])
          settings ∧
        checkFilters settings.exceptionFilters = .ok () ∧
        Path.Mapping.ofSettings settings = .ok mapping) ∧
    (∀ level value error, store.apply level value = .error error →
      replay (calls ++ [(level, value)]) = store) ∧
    ∀ first second a b one two other both, first ≠ second →
      store.apply first a = .ok one → one.apply second b = .ok two →
      store.apply second b = .ok other → other.apply first a = .ok both → two = both := by
  intro store writes
  have holds : store.Holds writes := replay_holds calls
  refine ⟨funext holds.layered ▸ holds.1.settings, holds.1.mapping, holds.apply_ok, ?_, ?_⟩
  · intro level value error refused
    have same : (replay calls).apply level value = .error error := refused
    simp only [replay, List.foldl_append, List.foldl_cons, List.foldl_nil, store]
    simp only [replay] at same
    simp only [Store.call, same]
  · intro first second a b one two other both apart early late before after
    exact holds.1.apply_comm apart early late before after

/-- An entry stop and exception filters may be asked for at two levels in either order, and a call
without an object is refused. -/
theorem launch_and_runtime_commute :
    (∃ one two other both : Store,
      ({} : Store).apply .launch (.object [("stopOnEntry", .bool true)]) = .ok one ∧
      one.apply .runtime (.object [("exceptionFilters", .array [])]) = .ok two ∧
      ({} : Store).apply .runtime (.object [("exceptionFilters", .array [])]) = .ok other ∧
      other.apply .launch (.object [("stopOnEntry", .bool true)]) = .ok both ∧ two = both) ∧
    replay [(.launch, .bool true)] = {} := by
  have mapping (filters : List String) (stop : Bool) :
      Path.Mapping.ofSettings { exceptionFilters := filters, stopOnEntry := stop } = .ok {} :=
    mapping_new
  have early : ({} : Store).apply .launch (.object [("stopOnEntry", .bool true)]) =
      .ok ⟨{ launch := [("stopOnEntry", .bool true)] }, { stopOnEntry := true }, {}⟩ :=
    ofLevels_eq_ok.mpr ⟨rfl, rfl, mapping _ _, rfl⟩
  have before : ({} : Store).apply .runtime (.object [("exceptionFilters", .array [])]) =
      .ok ⟨{ runtime := [("exceptionFilters", .array [])] }, { exceptionFilters := [] }, {}⟩ :=
    ofLevels_eq_ok.mpr ⟨rfl, rfl, mapping _ _, rfl⟩
  have late : apply ⟨{ launch := [("stopOnEntry", .bool true)] }, { stopOnEntry := true }, {}⟩
      .runtime (.object [("exceptionFilters", .array [])]) =
      .ok ⟨{
          launch := [("stopOnEntry", .bool true)]
          runtime := [("exceptionFilters", .array [])] },
        { exceptionFilters := [], stopOnEntry := true }, {}⟩ :=
    ofLevels_eq_ok.mpr ⟨rfl, rfl, mapping _ _, rfl⟩
  have after : apply ⟨{ runtime := [("exceptionFilters", .array [])] },
      { exceptionFilters := [] }, {}⟩ .launch (.object [("stopOnEntry", .bool true)]) =
      .ok ⟨{
          launch := [("stopOnEntry", .bool true)]
          runtime := [("exceptionFilters", .array [])] },
        { exceptionFilters := [], stopOnEntry := true }, {}⟩ :=
    ofLevels_eq_ok.mpr ⟨rfl, rfl, mapping _ _, rfl⟩
  obtain ⟨_, _, _, refused, commute⟩ := replay_layered []
  exact ⟨⟨_, _, _, _, early, late, before, after,
      commute .launch .runtime _ _ _ _ _ _ (by decide) early late before after⟩,
    refused .launch (.bool true) _ rfl⟩

end Store
end DebugAdapter.Config
