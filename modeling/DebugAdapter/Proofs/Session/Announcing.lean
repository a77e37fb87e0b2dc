import DebugAdapter.Proofs.Session.Delivery
import DebugAdapter.Proofs.Session.Resolution

/-! Which sources the client has been told of. The keys that the cache holds are those of the events
that were sent, so that a key is new once, and whatever is listed has been announced. -/
namespace DebugAdapter

open Source (Resolved Cache)

def Told (key : String) (messages : List Message) : Prop :=
  ∃ reason source, .event (.loadedSource reason source) ∈ messages ∧ source.key? = some key

theorem told_append {key : String} {messages more : List Message} :
    Told key (messages ++ more) ↔ Told key messages ∨ Told key more := by
  constructor
  · rintro ⟨reason, source, member, named⟩
    exact (List.mem_append.mp member).imp (fun old => ⟨reason, source, old, named⟩)
      fun newest => ⟨reason, source, newest, named⟩
  · rintro (⟨reason, source, old, named⟩ | ⟨reason, source, newest, named⟩)
    · exact ⟨reason, source, List.mem_append_left _ old, named⟩
    · exact ⟨reason, source, List.mem_append_right _ newest, named⟩

theorem Sourceless.untold {messages : List Message} (sourceless : Sourceless messages)
    {key : String} : ¬Told key messages := by
  rintro ⟨reason, source, member, _⟩
  exact sourceless _ member

theorem Sourceless.unlisted {messages : List Message} (sourceless : Sourceless messages) {seq : Nat}
    {body : Body} : .response seq "loadedSources" (.ok body) ∉ messages :=
  fun member => sourceless _ member rfl

theorem told_one {key : String} {reason : LoadReason} {source : Source} :
    Told key [.event (.loadedSource reason source)] ↔ source.key? = some key := by
  constructor
  · rintro ⟨_, _, member, named⟩
    cases List.mem_singleton.mp member
    exact named
  · exact fun named => ⟨reason, source, List.mem_singleton_self _, named⟩

def relocations (moved : List Resolved) : List Event :=
  moved.map fun resolved => .loadedSource .changed resolved.source

theorem told_relocations {key : String} {moved : List Resolved}
    (made : ∀ resolved ∈ moved, resolved.Made) :
    Told key ((relocations moved).map .event) ↔ ∃ resolved ∈ moved, resolved.key = key := by
  constructor
  · rintro ⟨reason, source, member, named⟩
    obtain ⟨_, inside, same⟩ := List.mem_map.mp member
    obtain ⟨resolved, held, rfl⟩ := List.mem_map.mp inside
    cases same
    rw [(made resolved held).key?] at named
    exact ⟨resolved, held, Option.some.inj named⟩
  · rintro ⟨resolved, held, rfl⟩
    exact ⟨.changed, resolved.source,
      List.mem_map_of_mem (List.mem_map_of_mem held), (made resolved held).key?⟩

/-- Each of these resolutions has a key of its own, and is one whose path is a new one. -/
def Relocates (debugger next : Debugger) (moved : List Resolved) : Prop :=
  (moved.map (·.key)).Nodup ∧ ∀ resolved ∈ moved, resolved.source.key? = some resolved.key ∧
    ∃ chunk old, (chunk, old) ∈ debugger.sources.chunks ∧
      (chunk, resolved) ∈ next.sources.chunks ∧ resolved.source.path ≠ old.source.path

theorem reconfigure_relocates (debugger : Debugger) (config : Config.Store) :
    Relocates debugger (debugger.reconfigure config).1 (debugger.sources.moved config.mapping) := by
  refine ⟨Cache.distinct_nodup _ _, fun resolved member => ?_⟩
  obtain ⟨chunk, old, held, remade, differs⟩ := Cache.mem_moved member
  refine ⟨(Cache.moved_made member).key?, chunk, old, held, ?_, differs⟩
  have chunks := (Cache.remap_spec debugger.sources config.mapping).1
  have after : (chunk, resolved) ∈ (debugger.sources.remap config.mapping).1.chunks := by
    rw [chunks]
    exact List.mem_map.mpr ⟨(chunk, old), held, by rw [remade]⟩
  exact after

namespace Session

variable {session next : Session} {more : List Message}

/-- The keys of the cache are those that the client was told of; a key is new to it when a source is
announced as such, and not new when a source is listed. -/
structure Announced (session : Session) : Prop where
  keys : ∀ key, key ∈ session.debugger.sources.keys ↔ Told key session.outbox
  first : ∀ before source after,
    session.outbox = before ++ .event (.loadedSource .new source) :: after →
    ∃ key, source.key? = some key ∧ ¬Told key before
  listed : ∀ before seq body after,
    session.outbox = before ++ .response seq "loadedSources" (.ok body) :: after →
    ∃ sources, body = .sources sources ∧
      ∀ source ∈ sources, ∃ key, source.key? = some key ∧ Told key before

theorem announced_new : ({} : Session).Announced where
  keys := fun key => iff_of_false List.not_mem_nil fun ⟨_, _, member, _⟩ =>
    List.not_mem_nil member
  first := by simp
  listed := by simp

/-- More messages may be sent that announce one new key alone, and list only what is known. -/
theorem Announced.extend (announced : session.Announced)
    (outbox : next.outbox = session.outbox ++ more)
    (keys : ∀ key, key ∈ next.debugger.sources.keys ↔
      key ∈ session.debugger.sources.keys ∨ Told key more)
    (first : ∀ source, .event (.loadedSource .new source) ∈ more →
      more = [.event (.loadedSource .new source)] ∧
        ∃ key, source.key? = some key ∧ key ∉ session.debugger.sources.keys)
    (listed : ∀ seq body, .response seq "loadedSources" (.ok body) ∈ more →
      ∃ sources, body = .sources sources ∧
        ∀ source ∈ sources, ∃ key ∈ session.debugger.sources.keys, source.key? = some key) :
    next.Announced := by
  constructor
  case keys =>
    intro key
    rw [keys, outbox, told_append, announced.keys]
  case first =>
    intro before source after split
    rw [outbox] at split
    rcases append_eq_split split with ⟨rest, inside⟩ | ⟨front, rfl, inside⟩
    · exact announced.first before source rest inside
    · obtain ⟨alone, key, named, unknown⟩ := first source (by simp [inside])
      have nothing : front = [] := by
        rw [alone] at inside
        cases front with
        | nil => rfl
        | cons head tail => simp at inside
      subst nothing
      refine ⟨key, named, fun told => unknown ?_⟩
      rw [List.append_nil] at told
      exact (announced.keys key).mpr told
  case listed =>
    intro before seq body after split
    rw [outbox] at split
    rcases append_eq_split split with ⟨rest, inside⟩ | ⟨front, rfl, inside⟩
    · exact announced.listed before seq body rest inside
    · obtain ⟨sources, rfl, known⟩ := listed seq body (by simp [inside])
      refine ⟨sources, rfl, fun source member => ?_⟩
      obtain ⟨key, held, named⟩ := known source member
      exact ⟨key, named, told_append.mpr (Or.inl ((announced.keys key).mp held))⟩

theorem Learns.announced (learns : Learns session next)
    (valid : session.debugger.sources.Valid) (announced : session.Announced) : next.Announced := by
  cases learns with
  | keeps messages sourceless steady outbox =>
    refine announced.extend outbox (fun key => ?_) ?_ ?_
    · rw [steady.sources, or_iff_left sourceless.untold]
    · exact fun source member => absurd member (sourceless _)
    · exact fun seq body member => absurd member sourceless.unlisted
  | lists seq steady outbox =>
    refine announced.extend outbox (fun key => ?_) (fun source member => ?_)
      fun seq body member => ?_
    · have untold : ¬Told key [.response seq "loadedSources"
          (.ok (.sources session.debugger.sources.loaded))] := by
        rintro ⟨_, _, member, _⟩
        simp at member
      rw [steady.sources, or_iff_left untold]
    · simp at member
    · cases List.mem_singleton.mp member
      exact ⟨_, rfl, valid.loaded_known⟩
  | registers chunk origin unknown _ sources _ _ outbox =>
    have named := (Cache.fresh_made session.debugger.sources origin).key?
    obtain ⟨_, _, keys⟩ := Cache.register_unknown unknown origin
    by_cases known : (session.debugger.sources.fresh origin).key ∈ session.debugger.sources.keys
    · have silent : session.debugger.sources.announce origin = [] := by
        simp [Cache.announce, known]
      rw [silent] at outbox
      refine announced.extend outbox (fun key => ?_) (by simp) (by simp)
      rw [sources, keys]
      constructor
      · rintro (old | rfl)
        · exact Or.inl old
        · exact Or.inl known
      · exact fun either => Or.inl (either.resolve_right sourceless_nil.untold)
    · have told : session.debugger.sources.announce origin =
          [.loadedSource .new (session.debugger.sources.fresh origin).source] := by
        simp [Cache.announce, known]
      rw [told] at outbox
      refine announced.extend outbox (fun key => ?_) (fun source member => ?_) (by simp)
      · rw [sources, keys, List.map_singleton, told_one, named, Option.some.injEq, eq_comm]
      · simp only [List.map_singleton, List.mem_singleton, Message.event.injEq,
          Event.loadedSource.injEq, true_and] at member
        exact ⟨by rw [member]; rfl, _, member ▸ named, known⟩
  | reconfigures level update config messages _ sourceless sources _ _ outbox =>
    have keys := (Cache.remap_spec session.debugger.sources config.mapping).2.2.2
    have made : ∀ resolved ∈ session.debugger.sources.moved config.mapping, resolved.Made :=
      fun _ => Cache.moved_made
    refine announced.extend outbox (fun key => ?_) (fun source member => ?_)
      fun seq body member => ?_
    · have told := @told_relocations key _ made
      rw [sources, keys, told_append, or_iff_left sourceless.untold, ← told]
      rfl
    · rcases List.mem_append.mp member with moved | other
      · obtain ⟨_, inside, same⟩ := List.mem_map.mp moved
        obtain ⟨resolved, _, rfl⟩ := List.mem_map.mp inside
        simp at same
      · exact absurd other (sourceless _)
    · rcases List.mem_append.mp member with moved | other
      · simp at moved
      · exact absurd other sourceless.unlisted

theorem run_announced (steps : List Step) : (({} : Session).run steps).Announced := by
  have both := (run_learned settled_new steps).keep (P := fun session =>
    session.InStep ∧ session.Announced) (fun learns ⟨inStep, announced⟩ =>
      ⟨learns.inStep inStep, learns.announced inStep.sources announced⟩)
    ⟨inStep_new, announced_new⟩
  exact both.2

/-- In every run a source is announced as new only if its key has not been told of before, and
whatever is listed has been told of by its key. A new configuration, which a session takes over as
it is handed one or as it starts, tells of each key once, and only of chunks whose path it
changes. -/
theorem sources_announced_once (steps : List Step) :
    let session := ({} : Session).run steps
    (∀ before source after,
      session.outbox = before ++ .event (.loadedSource .new source) :: after →
      ∃ key, source.key? = some key ∧ ¬Told key before) ∧
    (∀ before seq body after,
      session.outbox = before ++ .response seq "loadedSources" (.ok body) :: after →
      ∃ sources, body = .sources sources ∧
        ∀ source ∈ sources, ∃ key, source.key? = some key ∧ Told key before) ∧
    (∀ source ∈ session.debugger.sources.loaded,
      ∃ key, source.key? = some key ∧ Told key session.outbox) ∧
    (∀ (before : Session) config, ∃ moved,
      (before.configure (.ok config)).1.outbox =
        before.outbox ++ (relocations moved).map .event ∧
      Relocates before.debugger (before.configure (.ok config)).1.debugger moved) ∧
    ∀ (before : Debugger) request change, before.start request = .ok change → ∃ moved,
      change.before = (relocations moved).map .event ∧ change.after = [] ∧
      Relocates before change.debugger moved := by
  intro session
  have announced : session.Announced := run_announced steps
  refine ⟨announced.first, announced.listed, ?_, ?_, ?_⟩
  · intro source member
    obtain ⟨key, held, named⟩ := (run_inStep steps).sources.loaded_known source member
    exact ⟨key, named, (announced.keys key).mp held⟩
  · exact fun before config => ⟨_, rfl, reconfigure_relocates before.debugger config⟩
  · intro before request change started
    simp only [Debugger.start] at started
    split at started
    · contradiction
    · split at started
      · contradiction
      · rename_i config _
        cases started
        exact ⟨_, rfl, rfl, reconfigure_relocates before config⟩

theorem printing_file_announced_once :
    let interpreter : Interpreter := {
      chunk := [64, 47, 97]
      depth := 0
      stackFrames := []
      scopes := fun _ => .ok []
      children := fun _ => .ok []
      evaluate := fun _ _ => .error (.evaluation "") }
    let source : Source := { name := some "a", path := some "/a" }
    let launch : Request := { seq := 1, command := "launch" }
    let session := ({} : Session).run
      [.print [] (some (interpreter, 1)), .print [] (some (interpreter, 2))]
    session.outbox = [.event (.loadedSource .new source)] ∧
    (∃ key, source.key? = some key ∧ ¬Told key []) ∧
    (session.debugger.sources.loaded = [source] ∧
      ∃ key, source.key? = some key ∧ Told key session.outbox) ∧
    ∃ change moved, ({} : Debugger).start launch = .ok change ∧
      change.before = (relocations moved).map .event ∧ Relocates {} change.debugger moved := by
  intro interpreter source launch session
  have outbox : session.outbox = [.event (.loadedSource .new source)] := rfl
  have listed : session.debugger.sources.loaded = [source] := by decide +kernel
  obtain ⟨first, _, loaded, _, starts⟩ := sources_announced_once
    [.print [] (some (interpreter, 1)), .print [] (some (interpreter, 2))]
  have applied : ({} : Config.Store).apply .launch (.object (Arguments.launchSettings launch)) =
      .ok {} := Config.Store.valid_new.whole
  obtain ⟨change, started⟩ : ∃ change, ({} : Debugger).start launch = .ok change := by
    simp only [Debugger.start, applied]
    exact ⟨_, rfl⟩
  obtain ⟨moved, before, _, relocates⟩ := starts {} launch change started
  exact ⟨outbox, first [] source [] outbox, ⟨listed, loaded source (by rw [listed]; simp)⟩,
    change, moved, started, before, relocates⟩

end Session
end DebugAdapter
