import DebugAdapter.Proofs.Session.Learning

/-! The configuration, the mapping and the sources of a session stay in step. Files are where the
mapping in force puts them, whenever they were seen; texts stay as they were first seen. -/
namespace DebugAdapter.Session

open Source (Cache Origin Resolved)

variable {session next : Session}

/-- The mapping is the one of the configuration, and the sources are resolved under it. -/
structure InStep (session : Session) : Prop where
  config : session.debugger.config.Valid
  mapping : session.debugger.mapping = session.debugger.config.mapping
  sources : session.debugger.sources.Valid
  current : session.debugger.sources.Current session.debugger.mapping

theorem inStep_new : ({} : Session).InStep where
  config := Config.Store.valid_new
  mapping := rfl
  sources := Cache.valid_empty
  current := fun _ member => absurd member List.not_mem_nil

theorem InStep.sameSources (inStep : session.InStep) (steady : SameSources session next) :
    next.InStep := by
  obtain ⟨sources, config, mapping⟩ := steady
  constructor
  · rw [config]
    exact inStep.config
  · rw [mapping, config]
    exact inStep.mapping
  · rw [sources]
    exact inStep.sources
  · rw [sources, mapping]
    exact inStep.current

theorem Learns.inStep (learns : Learns session next) (inStep : session.InStep) : next.InStep := by
  cases learns with
  | keeps _ _ steady | lists _ steady => exact inStep.sameSources steady
  | registers chunk origin _ follows sources stored mapping =>
    constructor
    · rw [stored]
      exact inStep.config
    · rw [mapping, stored]
      exact inStep.mapping
    · rw [sources]
      exact inStep.sources.register chunk origin
    · rw [sources, mapping]
      exact inStep.current.register chunk follows
  | reconfigures level update config _ accepted _ sources stored mapping =>
    constructor
    · rw [stored]
      exact inStep.config.apply accepted
    · rw [mapping, stored]
    · rw [sources]
      exact inStep.sources.remap config.mapping
    · rw [sources, mapping]
      exact Cache.current_remap _ _

theorem run_inStep (steps : List Step) : (({} : Session).run steps).InStep :=
  (run_learned settled_new steps).keep Learns.inStep inStep_new

def Serves (chunk : List UInt8) (resolved : Resolved) (reference : Nat) (text : String)
    (session : Session) : Prop :=
  session.debugger.sources.find? chunk = some resolved ∧
    session.debugger.sources.content? reference = some text

theorem Learns.serves {chunk : List UInt8} {resolved : Resolved} {reference : Nat} {text : String}
    (virtual : resolved.server = none) (learns : Learns session next)
    (serves : Serves chunk resolved reference text session) :
    Serves chunk resolved reference text next := by
  obtain ⟨found, kept⟩ := serves
  cases learns with
  | keeps _ _ steady | lists _ steady => exact ⟨steady.sources ▸ found, steady.sources ▸ kept⟩
  | registers other origin _ _ sources =>
    rw [Serves, sources]
    exact ⟨Cache.find?_register found other origin, Cache.content?_register kept other origin⟩
  | reconfigures level update config _ _ _ sources =>
    refine ⟨?_, ?_⟩
    · rw [sources, Cache.find?_remap, found, Option.map_some, Cache.remapped_text virtual]
    · rw [sources, Cache.content?, (Cache.remap_spec _ _).2.1]
      exact kept

theorem run_serves (steps : List Step) {chunk : List UInt8} {resolved : Resolved} {reference : Nat}
    {text : String} (settled : session.Settled) (virtual : resolved.server = none)
    (serves : Serves chunk resolved reference text session) :
    Serves chunk resolved reference text (session.run steps) :=
  (run_learned settled steps).keep (Learns.serves virtual) serves

theorem InStep.resolve_text (inStep : session.InStep) {chunk : List UInt8}
    (unknown : session.debugger.sources.find? chunk = none)
    (unnamed : Origin.file? session.debugger.mapping chunk = none) (interpreter : Interpreter) :
    ∃ name reference, (session.debugger.resolve interpreter chunk).resolved =
        .ofReference name reference ∧
      Serves chunk (.ofReference name reference) reference
        (session.debugger.textOf interpreter chunk) (session.discover interpreter chunk) := by
  obtain ⟨registered, resolved, _⟩ := Debugger.resolve_unknown unknown interpreter
  have origin := session.debugger.originOf_spec interpreter chunk
  rw [unnamed] at origin
  obtain ⟨_, text⟩ := origin.resolve_left (by simp)
  rw [text] at registered resolved
  have sources := congrArg Debugger.sources registered
  refine ⟨_, _, resolved, ?_, ?_⟩
  · exact (congrArg (·.find? chunk) sources).trans (Cache.find?_register_self unknown _)
  · exact (congrArg (·.content? (session.debugger.sources.lastReference + 1)) sources).trans
      (inStep.sources.content?_text unknown _ _)

/-- A configuration with the settings in force moves nothing. -/
theorem InStep.reapply (inStep : session.InStep) {level : Config.Level} {update : Json}
    {config : Config.Store} (accepted : session.debugger.config.apply level update = .ok config)
    (same : config.settings = session.debugger.config.settings) :
    session.debugger.sources.remap config.mapping = (session.debugger.sources, []) := by
  have before := inStep.config.mapping
  have after := (inStep.config.apply accepted).mapping
  rw [same, before] at after
  rw [← Except.ok.inj after, ← inStep.mapping]
  exact inStep.current.remap_eq

theorem configure_configure (session : Session) (config : Config.Store) :
    (session.configure (.ok config)).1.configure (.ok config) =
      ((session.configure (.ok config)).1, none) := by
  have still := (Cache.current_remap session.debugger.sources config.mapping).remap_eq
  simp only [configure, Debugger.reconfigure, emit, send, still, List.map_nil, List.append_nil]
  split <;> rfl

theorem InStep.update_again (inStep : session.InStep) {level : Config.Level} {update : Json}
    (done : session.configure (session.debugger.config.apply level update) = (next, none)) :
    next.configure (next.debugger.config.apply level update) = (next, none) := by
  cases accepted : session.debugger.config.apply level update with
  | error error =>
    rw [accepted] at done
    cases done
  | ok config =>
    rw [accepted] at done
    have same : next = (session.configure (.ok config)).1 := (congrArg Prod.fst done).symm
    have stored : next.debugger.config = config := by rw [same]; rfl
    rw [stored, inStep.config.apply_idem accepted, same]
    exact configure_configure session config

/-- In every session the mapping in force is the one that the settings make. Each file that the
mapping still knows is resolved as if it were seen now, in whatever cache. A text is what the
interpreter gave when it was first seen, under a reference of its own, and stays so in all that
follows. And a configuration that changes no setting, or that is applied once more, moves nothing
and announces nothing. -/
theorem sources_follow_mapping (steps : List Step) :
    let session := ({} : Session).run steps
    let debugger := session.debugger
    (Path.Mapping.ofSettings debugger.config.settings = .ok debugger.mapping ∧
      debugger.config.mapping = debugger.mapping) ∧
    (∀ chunk resolved origin, debugger.sources.find? chunk = some resolved →
      resolved.server.isSome = true → Origin.file? debugger.mapping chunk = some origin →
      ∀ cache : Cache, cache.find? chunk = none → (cache.register chunk origin).2.1 = resolved) ∧
    (∀ chunk interpreter, debugger.sources.find? chunk = none →
      Origin.file? debugger.mapping chunk = none →
      ∃ name reference, (debugger.resolve interpreter chunk).resolved =
          .ofReference name reference ∧
        ∀ more, Serves chunk (.ofReference name reference) reference
          (debugger.textOf interpreter chunk) ((session.discover interpreter chunk).run more)) ∧
    (∀ chunk resolved, debugger.sources.find? chunk = some resolved → resolved.server = none →
      ∃ name reference text, resolved = .ofReference name reference ∧
        (∀ other another, debugger.sources.find? other = some another →
          another.source.sourceReference = some reference → other = chunk) ∧
        ∀ more, Serves chunk resolved reference text (session.run more)) ∧
    (∀ level update config, debugger.config.apply level update = .ok config →
      config.settings = debugger.config.settings →
      (debugger.reconfigure config).1.sources = debugger.sources ∧
        (debugger.reconfigure config).2 = []) ∧
    (∀ update next, session.updateConfig update = (next, none) →
      next.updateConfig update = (next, none)) ∧
    ∀ path content next, session.loadDefaults path content = (next, none) →
      next.loadDefaults path content = (next, none) := by
  intro session debugger
  have inStep : session.InStep := run_inStep steps
  have settled : session.Settled := run_settled steps
  refine ⟨?_, ?_, ?_, ?_, ?_, ?_, ?_⟩
  · have mapping := inStep.config.mapping
    rw [← inStep.mapping] at mapping
    exact ⟨mapping, inStep.mapping.symm⟩
  · intro chunk resolved origin found file named cache unknown
    rw [(Cache.register_unknown unknown origin).1]
    exact inStep.current.fresh found file named cache
  · intro chunk interpreter unknown unnamed
    obtain ⟨name, reference, resolved, serves⟩ := inStep.resolve_text unknown unnamed interpreter
    have found : Aside session (session.discover interpreter chunk) := .discover interpreter chunk
    have after := Advances.settled (.single (.aside found)) settled
    exact ⟨name, reference, resolved, fun more => run_serves more after rfl serves⟩
  · intro chunk resolved found virtual
    have held := inStep.sources.find?_eq_some.mp found
    cases inStep.sources.made _ held with
    | file => contradiction
    | text name reference =>
      obtain ⟨_, _, text, kept⟩ := inStep.sources.numbered _ held reference rfl
      refine ⟨name, reference, text, rfl, ?_, fun more => ?_⟩
      · intro other another also numbered
        have beside := inStep.sources.find?_eq_some.mp also
        exact inStep.sources.apart _ beside _ held reference numbered rfl
      · exact run_serves more settled virtual ⟨found, kept⟩
  · intro level update config accepted same
    have still : debugger.sources.remap config.mapping = (debugger.sources, []) :=
      inStep.reapply accepted same
    simp only [Debugger.reconfigure, still, List.map_nil, and_self]
  · exact fun update next done => inStep.update_again done
  · intro path content next done
    unfold loadDefaults at done ⊢
    cases loaded : session.debugger.config.loadDefaults path content with
    | error error =>
      rw [loaded] at done
      cases done
    | ok config =>
      obtain ⟨update, applies⟩ := Config.Store.loadDefaults_spec loaded
      rw [applies] at done ⊢
      exact inStep.update_again done

/-- A session that has seen the file `/a` and a text, and takes over an empty configuration. -/
theorem file_and_text_follow :
    let interpreter (chunk : List UInt8) : Interpreter := {
      chunk
      depth := 0
      stackFrames := []
      scopes := fun _ => .ok []
      children := fun _ => .ok []
      evaluate := fun _ _ => .error (.evaluation "")
      chunkCode := some some }
    let file : List UInt8 := [64, 47, 97]
    let session := ({} : Session).run
      [.print [] (some (interpreter file, 1)), .print [] (some (interpreter [120], 1))]
    (∃ resolved, session.debugger.sources.find? file = some resolved ∧
      (({} : Cache).register file (.file "/a" "/a" false)).2.1 = resolved) ∧
    (∃ resolved text, session.debugger.sources.find? [120] = some resolved ∧
      ∀ more, Serves [120] resolved 1 text (session.run more)) ∧
    ∃ next, session.updateConfig (.object []) = (next, none) ∧
      next.updateConfig (.object []) = (next, none) := by
  intro interpreter file session
  obtain ⟨_, files, _, texts, _, again, _⟩ := sources_follow_mapping
    [.print [] (some (interpreter file, 1)), .print [] (some (interpreter [120], 1))]
  have found : session.debugger.sources.find? file = some (.ofFile "/a" "/a" false) := by
    decide +kernel
  have seen : session.debugger.sources.find? [120] = some (.ofReference "x" 1) := by
    decide +kernel
  obtain ⟨name, reference, text, same, _, serves⟩ := texts [120] _ seen rfl
  have first : reference = 1 :=
    (Option.some.inj (congrArg (·.source.sourceReference) same)).symm
  refine ⟨⟨_, found, ?_⟩, ⟨_, text, seen, first ▸ serves⟩, ?_⟩
  · exact files file _ _ found rfl (by decide +kernel) {} rfl
  · have applied : session.debugger.config.apply .runtime (.object []) = .ok {} :=
      Config.Store.valid_new.whole
    have done : session.updateConfig (.object []) = ((session.configure (.ok {})).1, none) := by
      rw [updateConfig, applied]
      rfl
    exact ⟨_, done, again (.object []) _ done⟩

end DebugAdapter.Session
