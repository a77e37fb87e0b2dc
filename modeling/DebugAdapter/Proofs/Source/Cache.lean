import DebugAdapter.Source.Cache
import Mathlib.Data.List.Nodup

/-! What the cache of sources knows, and how a registration and a new mapping change it. -/
namespace DebugAdapter.Source

variable {cache : Cache} {mapping : Path.Mapping} {chunk other : List UInt8} {origin : Origin}
  {resolved : Resolved}

def key? (source : Source) : Option String :=
  match source.sourceReference with
  | some reference => some (referenceKey reference)
  | none => source.path.map Path.key

theorem referenceKey_inj {first second : Nat} :
    referenceKey first = referenceKey second ↔ first = second := by
  refine ⟨fun same => ?_, congrArg referenceKey⟩
  have numerals : first.repr = second.repr := (String.append_right_inj _).mp same
  calc first = Nat.ofDigitChars 10 first.repr.toList 0 := by
        rw [Nat.toList_repr, Nat.ofDigitChars_ten_toDigits]
    _ = Nat.ofDigitChars 10 second.repr.toList 0 := by rw [numerals]
    _ = second := by rw [Nat.toList_repr, Nat.ofDigitChars_ten_toDigits]

namespace Resolved

/-- Resolutions are of files or of texts. -/
inductive Made : Resolved → Prop
  | file (server client : String) (skipped : Bool) : Made (.ofFile server client skipped)
  | text (name : String) (reference : Nat) : Made (.ofReference name reference)

theorem Made.key? (made : resolved.Made) : resolved.source.key? = some resolved.key := by
  cases made <;> rfl

theorem Made.key_eq_of_path {updated : Resolved} (made : resolved.Made) (again : updated.Made)
    (references : updated.source.sourceReference = resolved.source.sourceReference)
    (paths : updated.source.path = resolved.source.path) : updated.key = resolved.key := by
  have same : updated.source.key? = resolved.source.key? := by
    simp only [Source.key?, references, paths]
  rw [made.key?, again.key?] at same
  exact Option.some.inj same

end Resolved

namespace Cache

open Resolved (Made)

theorem mem_distinct {seen : List String} {entries : List Resolved}
    (member : resolved ∈ distinct seen entries) : resolved ∈ entries ∧ resolved.key ∉ seen := by
  induction entries generalizing seen with
  | nil => exact absurd member List.not_mem_nil
  | cons first rest ih =>
    unfold distinct at member
    split at member
    · exact (ih member).imp_left (List.mem_cons_of_mem first)
    · rename_i unseen
      rcases List.mem_cons.mp member with rfl | later
      · exact ⟨List.mem_cons_self, by simpa using unseen⟩
      · obtain ⟨inside, apart⟩ := ih later
        exact ⟨List.mem_cons_of_mem first inside, fun old => apart (List.mem_cons_of_mem _ old)⟩

theorem distinct_nodup (seen : List String) (entries : List Resolved) :
    ((distinct seen entries).map (·.key)).Nodup := by
  induction entries generalizing seen with
  | nil => exact List.nodup_nil
  | cons first rest ih =>
    unfold distinct
    split
    · exact ih seen
    · refine List.nodup_cons.mpr ⟨fun again => ?_, ih _⟩
      obtain ⟨later, member, same⟩ := List.mem_map.mp again
      exact (mem_distinct member).2 (same ▸ List.mem_cons_self)

theorem exists_mem_distinct {seen : List String} {entries : List Resolved}
    (member : resolved ∈ entries) (unseen : resolved.key ∉ seen) :
    ∃ first ∈ distinct seen entries, first.key = resolved.key := by
  induction entries generalizing seen with
  | nil => exact absurd member List.not_mem_nil
  | cons head rest ih =>
    unfold distinct
    split
    · rename_i old
      rcases List.mem_cons.mp member with rfl | later
      · exact absurd (by simpa using old) unseen
      · exact ih later unseen
    · by_cases same : resolved.key = head.key
      · exact ⟨head, List.mem_cons_self, same.symm⟩
      · rcases List.mem_cons.mp member with rfl | later
        · exact absurd rfl same
        · have apart : resolved.key ∉ head.key :: seen := by simp [same, unseen]
          obtain ⟨first, inside, equal⟩ := ih later apart
          exact ⟨first, List.mem_cons_of_mem head inside, equal⟩

theorem mem_addKey {key : String} (cache : Cache) (added : String) :
    key ∈ (cache.addKey added).keys ↔ key ∈ cache.keys ∨ key = added := by
  unfold addKey
  split
  · rename_i known
    refine ⟨Or.inl, fun either => either.elim id fun same => ?_⟩
    simpa [same] using known
  · simp

@[simp] theorem addKey_chunks (cache : Cache) (key : String) :
    (cache.addKey key).chunks = cache.chunks := by
  unfold addKey
  split <;> rfl

@[simp] theorem addKey_contents (cache : Cache) (key : String) :
    (cache.addKey key).contents = cache.contents := by
  unfold addKey
  split <;> rfl

@[simp] theorem addKey_lastReference (cache : Cache) (key : String) :
    (cache.addKey key).lastReference = cache.lastReference := by
  unfold addKey
  split <;> rfl

theorem addKeys_spec (cache : Cache) (entries : List Resolved) :
    let added := entries.foldl (fun cache resolved => cache.addKey resolved.key) cache
    added.chunks = cache.chunks ∧ added.contents = cache.contents ∧
      added.lastReference = cache.lastReference ∧
      ∀ key, key ∈ added.keys ↔ key ∈ cache.keys ∨ ∃ entry ∈ entries, entry.key = key := by
  induction entries generalizing cache with
  | nil => simp
  | cons first rest ih =>
    obtain ⟨chunks, contents, last, keys⟩ := ih (cache.addKey first.key)
    simp only [addKey_chunks, addKey_contents, addKey_lastReference] at chunks contents last
    refine ⟨chunks, contents, last, fun key => ?_⟩
    rw [List.foldl_cons, keys key, mem_addKey, List.exists_mem_cons_iff, or_assoc,
      eq_comm (a := key)]

/-- What a chunk that is not known resolves to. -/
def fresh (cache : Cache) : Origin → Resolved
  | .file server client skipped => .ofFile server client skipped
  | .virtual name _ => .ofReference name (cache.lastReference + 1)

theorem fresh_made (cache : Cache) (origin : Origin) : (cache.fresh origin).Made := by
  cases origin with
  | file server client skipped => exact .file server client skipped
  | «virtual» name code => exact .text name _

theorem register_known (found : cache.find? chunk = some resolved) (origin : Origin) :
    cache.register chunk origin = (cache, resolved, false) := by
  simp only [register, found]

theorem register_unknown (unknown : cache.find? chunk = none) (origin : Origin) :
    (cache.register chunk origin).2 =
        (cache.fresh origin, !cache.keys.contains (cache.fresh origin).key) ∧
      (cache.register chunk origin).1.chunks = cache.chunks ++ [(chunk, cache.fresh origin)] ∧
      ∀ key, key ∈ (cache.register chunk origin).1.keys ↔
        key ∈ cache.keys ∨ key = (cache.fresh origin).key := by
  unfold register
  rw [unknown]
  cases origin <;>
    exact ⟨rfl, by simp [add, fresh], fun key => by simp only [add, mem_addKey, fresh]⟩

theorem register_text (unknown : cache.find? chunk = none) (name code : String) :
    (cache.register chunk (.virtual name code)).1.contents =
        cache.contents ++ [(cache.lastReference + 1, code)] ∧
      (cache.register chunk (.virtual name code)).1.lastReference = cache.lastReference + 1 := by
  unfold register
  rw [unknown]
  simp [add]

theorem register_file (cache : Cache) (chunk : List UInt8) (server client : String)
    (skipped : Bool) :
    (cache.register chunk (.file server client skipped)).1.contents = cache.contents ∧
      (cache.register chunk (.file server client skipped)).1.lastReference =
        cache.lastReference := by
  unfold register
  split <;> simp [add]

theorem find?_register_self (unknown : cache.find? chunk = none) (origin : Origin) :
    (cache.register chunk origin).1.find? chunk = some (cache.fresh origin) := by
  have absent : cache.chunks.lookup chunk = none := unknown
  rw [find?, (register_unknown unknown origin).2.1, List.lookup_append, absent]
  simp

/-- What is known stays as it is when another chunk is registered. -/
theorem find?_register (found : cache.find? other = some resolved) (chunk : List UInt8)
    (origin : Origin) : (cache.register chunk origin).1.find? other = some resolved := by
  cases known : cache.find? chunk with
  | some held =>
    rw [register_known known]
    exact found
  | none =>
    have present : cache.chunks.lookup other = some resolved := found
    rw [find?, (register_unknown known origin).2.1, List.lookup_append, present]
    rfl

/-- A source stays as it is, or is resolved as a file. -/
theorem remapped_cases (mapping : Path.Mapping) (chunk : List UInt8) (resolved : Resolved) :
    remapped mapping chunk resolved = resolved ∨ ∃ server client skipped,
      remapped mapping chunk resolved = .ofFile server client skipped := by
  unfold remapped
  split
  · exact Or.inl rfl
  · split
    · exact Or.inr ⟨_, _, _, rfl⟩
    · exact Or.inl rfl

theorem remapped_made (made : resolved.Made) (mapping : Path.Mapping) (chunk : List UInt8) :
    (remapped mapping chunk resolved).Made := by
  rcases remapped_cases mapping chunk resolved with same | ⟨server, client, skipped, file⟩
  · rw [same]
    exact made
  · rw [file]
    exact .file server client skipped

theorem remapped_text (virtual : resolved.server = none) (mapping : Path.Mapping)
    (chunk : List UInt8) : remapped mapping chunk resolved = resolved := by
  simp only [remapped, virtual, Option.isNone_none, if_true]

/-- A file that the mapping still knows is resolved as it would be now. -/
theorem remapped_file {server client : String} {skipped : Bool}
    (file : resolved.server.isSome = true)
    (named : Origin.file? mapping chunk = some (.file server client skipped)) :
    remapped mapping chunk resolved = .ofFile server client skipped := by
  obtain ⟨path, server⟩ := Option.isSome_iff_exists.mp file
  simp only [remapped, server, Option.isNone_some, Bool.false_eq_true, if_false, named]

theorem remapped_reference (made : resolved.Made) (mapping : Path.Mapping) (chunk : List UInt8) :
    (remapped mapping chunk resolved).source.sourceReference =
      resolved.source.sourceReference := by
  cases made with
  | text name reference => rw [remapped_text rfl]
  | file server client skipped =>
    rcases remapped_cases mapping chunk (.ofFile server client skipped) with same | ⟨_, _, _, file⟩
    · rw [same]
    · rw [file]
      rfl

theorem remapped_remapped (mapping : Path.Mapping) (chunk : List UInt8) (resolved : Resolved) :
    remapped mapping chunk (remapped mapping chunk resolved) = remapped mapping chunk resolved := by
  cases file : resolved.server with
  | none => rw [remapped_text file, remapped_text file]
  | some path =>
    cases named : Origin.file? mapping chunk with
    | none => simp [remapped, file, named]
    | some origin =>
      cases origin with
      | «virtual» name code => simp [remapped, file, named]
      | file server client skipped =>
        have once : remapped mapping chunk resolved = .ofFile server client skipped :=
          remapped_file (by simp [file]) named
        rw [once]
        exact remapped_file rfl named

theorem mem_moved (moved : resolved ∈ cache.moved mapping) :
    ∃ chunk old, (chunk, old) ∈ cache.chunks ∧ remapped mapping chunk old = resolved ∧
      resolved.source.path ≠ old.source.path := by
  obtain ⟨⟨chunk, old⟩, held, kept⟩ := List.mem_filterMap.mp (mem_distinct moved).1
  dsimp only at kept
  split at kept
  · rename_i differs
    obtain rfl := Option.some.inj kept
    exact ⟨chunk, old, held, rfl, differs⟩
  · contradiction

theorem exists_mem_moved {old : Resolved} (held : (chunk, old) ∈ cache.chunks)
    (differs : (remapped mapping chunk old).source.path ≠ old.source.path) :
    ∃ moved ∈ cache.moved mapping, moved.key = (remapped mapping chunk old).key := by
  refine exists_mem_distinct (List.mem_filterMap.mpr ⟨(chunk, old), held, ?_⟩) List.not_mem_nil
  simp [differs]

theorem moved_made (moved : resolved ∈ cache.moved mapping) : resolved.Made := by
  obtain ⟨chunk, old, _, remade, differs⟩ := mem_moved moved
  rcases remapped_cases mapping chunk old with same | ⟨server, client, skipped, file⟩
  · exact absurd (by rw [← remade, same]) differs
  · exact (remade.symm.trans file) ▸ .file server client skipped

theorem remap_spec (cache : Cache) (mapping : Path.Mapping) :
    let next := (cache.remap mapping).1
    next.chunks = cache.chunks.map (fun entry => (entry.1, remapped mapping entry.1 entry.2)) ∧
      next.contents = cache.contents ∧ next.lastReference = cache.lastReference ∧
      ∀ key, key ∈ next.keys ↔ key ∈ cache.keys ∨ ∃ moved ∈ cache.moved mapping, moved.key = key :=
  addKeys_spec _ _

theorem find?_remap (cache : Cache) (mapping : Path.Mapping) (chunk : List UInt8) :
    (cache.remap mapping).1.find? chunk =
      (cache.find? chunk).map (remapped mapping chunk) := by
  unfold find?
  rw [(remap_spec cache mapping).1]
  induction cache.chunks with
  | nil => rfl
  | cons entry rest ih =>
    obtain ⟨name, resolved⟩ := entry
    rw [List.map_cons, List.lookup_cons, List.lookup_cons]
    by_cases own : chunk = name
    · simp only [own, beq_self_eq_true, Option.map_some]
    · simp only [beq_eq_false_iff_ne.mpr own]
      exact ih

theorem mem_of_find? (found : cache.find? chunk = some resolved) :
    (chunk, resolved) ∈ cache.chunks := by
  obtain ⟨before, after, split, _⟩ := List.lookup_eq_some_iff.mp found
  exact split ▸ List.mem_append_right before List.mem_cons_self

theorem ne_of_find?_none (unknown : cache.find? chunk = none) {entry : List UInt8 × Resolved}
    (held : entry ∈ cache.chunks) : chunk ≠ entry.1 := by
  simpa using List.lookup_eq_none_iff.mp unknown entry held

/-- Each chunk has one resolution, whose key is known, and each text a reference of its own, under
which it is kept. -/
structure Valid (cache : Cache) : Prop where
  named : (cache.chunks.map (·.1)).Nodup
  made : ∀ entry ∈ cache.chunks, entry.2.Made
  known : ∀ entry ∈ cache.chunks, entry.2.key ∈ cache.keys
  numbered : ∀ entry ∈ cache.chunks, ∀ reference, entry.2.source.sourceReference = some reference →
    0 < reference ∧ reference ≤ cache.lastReference ∧
      ∃ text, cache.content? reference = some text
  apart : ∀ first ∈ cache.chunks, ∀ second ∈ cache.chunks, ∀ reference,
    first.2.source.sourceReference = some reference →
    second.2.source.sourceReference = some reference → first.1 = second.1
  stored : ∀ content ∈ cache.contents, content.1 ≤ cache.lastReference

theorem valid_empty : ({} : Cache).Valid where
  named := List.nodup_nil
  made := fun _ member => absurd member List.not_mem_nil
  known := fun _ member => absurd member List.not_mem_nil
  numbered := fun _ member => absurd member List.not_mem_nil
  apart := fun _ member => absurd member List.not_mem_nil
  stored := fun _ member => absurd member List.not_mem_nil

theorem Valid.find?_eq_some (valid : cache.Valid) :
    cache.find? chunk = some resolved ↔ (chunk, resolved) ∈ cache.chunks := by
  refine ⟨mem_of_find?, fun held => ?_⟩
  obtain ⟨before, after, split⟩ := List.append_of_mem held
  have named := valid.named
  rw [split, List.map_append, List.map_cons, List.nodup_middle] at named
  have absent := (List.nodup_cons.mp named).1
  refine List.lookup_eq_some_iff.mpr ⟨before, after, split, fun entry earlier => ?_⟩
  have differs : chunk ≠ entry.1 := fun same =>
    absent (List.mem_append_left _ (List.mem_map.mpr ⟨entry, earlier, same.symm⟩))
  exact bne_iff_ne.mpr differs

theorem Valid.loaded_known (valid : cache.Valid) :
    ∀ source ∈ cache.loaded, ∃ key ∈ cache.keys, source.key? = some key := by
  intro source member
  obtain ⟨resolved, first, rfl⟩ := List.mem_map.mp member
  obtain ⟨entry, held, rfl⟩ := List.mem_map.mp (mem_distinct first).1
  exact ⟨entry.2.key, valid.known entry held, (valid.made entry held).key?⟩

theorem content?_register {reference : Nat} {text : String}
    (kept : cache.content? reference = some text) (chunk : List UInt8) (origin : Origin) :
    (cache.register chunk origin).1.content? reference = some text := by
  have held : cache.contents.lookup reference = some text := kept
  cases known : cache.find? chunk with
  | some resolved =>
    rw [register_known known]
    exact kept
  | none =>
    unfold content?
    cases origin with
    | file server client skipped =>
      rw [(register_file cache chunk server client skipped).1]
      exact held
    | «virtual» name code =>
      rw [(register_text known name code).1, List.lookup_append, held]
      rfl

theorem Valid.content?_text (valid : cache.Valid) (unknown : cache.find? chunk = none)
    (name code : String) :
    (cache.register chunk (.virtual name code)).1.content? (cache.lastReference + 1) =
      some code := by
  have free : cache.contents.lookup (cache.lastReference + 1) = none := by
    refine List.lookup_eq_none_iff.mpr fun content held => bne_iff_ne.mpr ?_
    have bound := valid.stored content held
    omega
  rw [content?, (register_text unknown name code).1, List.lookup_append, free]
  simp

/-- A chunk may be added whose text, if it is one, has a new reference. -/
theorem Valid.grow (valid : cache.Valid) (unknown : cache.find? chunk = none) {next : Cache}
    (chunks : next.chunks = cache.chunks ++ [(chunk, resolved)]) (made : resolved.Made)
    (keys : ∀ key, key ∈ next.keys ↔ key ∈ cache.keys ∨ key = resolved.key)
    (last : cache.lastReference ≤ next.lastReference)
    (contents : ∀ {reference text}, cache.content? reference = some text →
      next.content? reference = some text)
    (own : ∀ reference, resolved.source.sourceReference = some reference →
      cache.lastReference < reference ∧ reference ≤ next.lastReference ∧
        ∃ text, next.content? reference = some text)
    (stored : ∀ content ∈ next.contents, content.1 ≤ next.lastReference) : next.Valid := by
  have held : ∀ {entry}, entry ∈ next.chunks → entry ∈ cache.chunks ∨ entry = (chunk, resolved) :=
    fun member => by simpa [chunks] using member
  constructor
  case named =>
    rw [chunks, List.map_append, List.map_singleton]
    refine valid.named.append (List.nodup_singleton chunk) ?_
    refine List.disjoint_singleton.mpr fun old => ?_
    obtain ⟨entry, member, same⟩ := List.mem_map.mp old
    exact ne_of_find?_none unknown member same.symm
  case made =>
    intro entry member
    rcases held member with old | rfl
    · exact valid.made entry old
    · exact made
  case known =>
    intro entry member
    rw [keys]
    rcases held member with old | rfl
    · exact Or.inl (valid.known entry old)
    · exact Or.inr rfl
  case numbered =>
    intro entry member reference numbered
    rcases held member with old | rfl
    · obtain ⟨positive, bound, text, kept⟩ := valid.numbered entry old reference numbered
      exact ⟨positive, Nat.le_trans bound last, text, contents kept⟩
    · obtain ⟨above, rest⟩ := own reference numbered
      exact ⟨Nat.zero_lt_of_lt above, rest⟩
  case apart =>
    have new : ∀ {entry reference}, entry ∈ cache.chunks →
        entry.2.source.sourceReference = some reference →
        resolved.source.sourceReference ≠ some reference := by
      intro entry reference old numbered same
      have bound := (valid.numbered entry old reference numbered).2.1
      have above := (own reference same).1
      omega
    intro first firstIn second secondIn reference numbered again
    rcases held firstIn with old | rfl <;> rcases held secondIn with late | rfl
    · exact valid.apart first old second late reference numbered again
    · exact absurd again (new old numbered)
    · exact absurd numbered (new late again)
    · rfl
  case stored => exact stored

theorem Valid.register (valid : cache.Valid) (chunk : List UInt8) (origin : Origin) :
    (cache.register chunk origin).1.Valid := by
  cases known : cache.find? chunk with
  | some resolved =>
    rw [register_known known]
    exact valid
  | none =>
    obtain ⟨_, chunks, keys⟩ := register_unknown known origin
    have contents := fun {reference text} (kept : cache.content? reference = some text) =>
      content?_register kept chunk origin
    cases origin with
    | file server client skipped =>
      obtain ⟨stays, last⟩ := register_file cache chunk server client skipped
      exact valid.grow known chunks (fresh_made cache _) keys (Nat.le_of_eq last.symm) contents
        (fun _ numbered => nomatch numbered) (by rw [stays, last]; exact valid.stored)
    | «virtual» name code =>
      obtain ⟨added, last⟩ := register_text known name code
      refine valid.grow known chunks (fresh_made cache _) keys (by omega) contents ?_ ?_
      · intro reference numbered
        have own : cache.lastReference + 1 = reference := Option.some.inj numbered
        exact ⟨by omega, by omega, code, own ▸ valid.content?_text known name code⟩
      · rw [added, last]
        intro content member
        rcases List.mem_append.mp member with old | new
        · exact Nat.le_succ_of_le (valid.stored content old)
        · exact (List.mem_singleton.mp new) ▸ Nat.le_refl _

theorem Valid.remap (valid : cache.Valid) (mapping : Path.Mapping) :
    (cache.remap mapping).1.Valid := by
  obtain ⟨chunks, contents, last, keys⟩ := remap_spec cache mapping
  have held : ∀ {entry}, entry ∈ (cache.remap mapping).1.chunks →
      ∃ old, (entry.1, old) ∈ cache.chunks ∧ entry.2 = remapped mapping entry.1 old ∧
        entry.2.source.sourceReference = old.source.sourceReference := by
    intro entry member
    rw [chunks] at member
    obtain ⟨⟨name, old⟩, before, rfl⟩ := List.mem_map.mp member
    exact ⟨old, before, rfl, remapped_reference (valid.made _ before) mapping name⟩
  constructor
  case named =>
    rw [chunks, List.map_map]
    exact valid.named
  case made =>
    intro entry member
    obtain ⟨old, before, remade, _⟩ := held member
    exact remade ▸ remapped_made (valid.made _ before) mapping entry.1
  case known =>
    intro entry member
    obtain ⟨old, before, remade, references⟩ := held member
    rw [keys]
    by_cases paths : entry.2.source.path = old.source.path
    · have again : entry.2.Made := remade ▸ remapped_made (valid.made _ before) mapping entry.1
      rw [(valid.made _ before).key_eq_of_path again references paths]
      exact Or.inl (valid.known _ before)
    · rw [remade] at paths ⊢
      exact Or.inr (exists_mem_moved before paths)
  case numbered =>
    intro entry member reference numbered
    obtain ⟨old, before, _, references⟩ := held member
    rw [last, content?, contents]
    exact valid.numbered _ before reference (references ▸ numbered)
  case apart =>
    intro first firstIn second secondIn reference numbered again
    obtain ⟨old, before, _, references⟩ := held firstIn
    obtain ⟨other, earlier, _, others⟩ := held secondIn
    exact valid.apart (first.1, old) before (second.1, other) earlier reference
      (references ▸ numbered) (others ▸ again)
  case stored =>
    rw [contents, last]
    exact valid.stored

/-- To resolve again under the mapping changes nothing. -/
def Current (cache : Cache) (mapping : Path.Mapping) : Prop :=
  ∀ entry ∈ cache.chunks, remapped mapping entry.1 entry.2 = entry.2

theorem file?_file (named : Origin.file? mapping chunk = some origin) :
    ∃ server client skipped, origin = .file server client skipped := by
  unfold Origin.file? at named
  cases path : mapping.sourceToServer chunk with
  | none => simp [path] at named
  | some server =>
    simp only [path, Option.bind_eq_bind, Option.bind_some, Option.pure_def,
      Option.some.injEq] at named
    exact ⟨_, _, _, named.symm⟩

/-- A chunk is registered as the file that it names, or as a text. -/
theorem Current.register (current : cache.Current mapping) (chunk : List UInt8)
    (follows : Origin.file? mapping chunk = some origin ∨
      ∃ name code, origin = .virtual name code) :
    (cache.register chunk origin).1.Current mapping := by
  cases known : cache.find? chunk with
  | some resolved =>
    rw [register_known known]
    exact current
  | none =>
    intro entry member
    rw [(register_unknown known origin).2.1] at member
    rcases List.mem_append.mp member with old | new
    · exact current entry old
    · rw [List.mem_singleton.mp new]
      rcases follows with named | ⟨name, code, rfl⟩
      · obtain ⟨server, client, skipped, rfl⟩ := file?_file named
        exact remapped_file rfl named
      · exact remapped_text rfl mapping chunk

theorem current_remap (cache : Cache) (mapping : Path.Mapping) :
    (cache.remap mapping).1.Current mapping := by
  intro entry member
  rw [(remap_spec cache mapping).1] at member
  obtain ⟨old, _, rfl⟩ := List.mem_map.mp member
  exact remapped_remapped mapping old.1 old.2

/-- A file that the mapping still knows is resolved as a new chunk would be. -/
theorem Current.fresh (current : cache.Current mapping)
    (found : cache.find? chunk = some resolved) (file : resolved.server.isSome = true)
    (named : Origin.file? mapping chunk = some origin) (other : Cache) :
    other.fresh origin = resolved := by
  obtain ⟨server, client, skipped, rfl⟩ := file?_file named
  exact (remapped_file file named).symm.trans (current _ (mem_of_find? found))

/-- The mapping of a cache moves none of its sources. -/
theorem Current.remap_eq (current : cache.Current mapping) : cache.remap mapping = (cache, []) := by
  have still : cache.moved mapping = [] := by
    refine List.eq_nil_iff_forall_not_mem.mpr fun resolved member => ?_
    obtain ⟨chunk, old, held, remade, differs⟩ := mem_moved member
    exact differs (remade ▸ congrArg (·.source.path) (current _ held))
  have same : cache.chunks.map (fun entry => (entry.1, remapped mapping entry.1 entry.2)) =
      cache.chunks := by
    refine (List.map_congr_left fun entry member => ?_).trans (List.map_id cache.chunks)
    rw [current entry member]
    rfl
  simp only [remap, still, same, List.foldl_nil]

/-- A cache changes when a chunk is registered and when the mapping does. -/
inductive Change where
  | register (chunk : List UInt8) (origin : Origin)
  | remap (mapping : Path.Mapping)

def change (cache : Cache) : Change → Cache
  | .register chunk origin => (cache.register chunk origin).1
  | .remap mapping => (cache.remap mapping).1

theorem Valid.changes (valid : cache.Valid) (changes : List Change) :
    (changes.foldl change cache).Valid := by
  induction changes generalizing cache with
  | nil => exact valid
  | cons change rest ih =>
    cases change with
    | register chunk origin => exact ih (valid.register chunk origin)
    | remap mapping => exact ih (valid.remap mapping)

end Cache
end DebugAdapter.Source
