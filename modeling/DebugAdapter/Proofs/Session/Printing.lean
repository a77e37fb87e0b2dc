import DebugAdapter.Proofs.Session.LateEvents

/-! Whether printed text is captured is decided when the program is launched, and stays so, also
after the end of the session. Text that is captured is fed to the parser of standard output as long
as the session lasts. -/
namespace DebugAdapter

open Output (Attribution Chunk)

namespace Session

/-- Bytes are fed to the parser of standard output, and the runs that this completes are sent. -/
structure Feeds (session next : Session) (bytes : List UInt8) : Prop where
  parser : (next.debugger.output.get .stdout).parser =
    ((session.debugger.output.get .stdout).parser.feed
      session.debugger.mapping.consoleCoding bytes).1
  others : ∀ category, category ≠ .stdout →
    next.debugger.output.get category = session.debugger.output.get category
  runs : ∃ chunks : List Chunk, chunks.map (·.run) =
      ((session.debugger.output.get .stdout).parser.feed
        session.debugger.mapping.consoleCoding bytes).2 ∧
    (∀ chunk ∈ chunks, chunk.category = .stdout) ∧
    next.outbox = session.outbox ++ chunks.map (.event <| session.debugger.chunkEvent ·)

variable {session next : Session} {request : Option Request}

theorem capture_feeds (live : ¬session.isTerminated = true) (bytes : List UInt8)
    (attribution : Option Attribution) :
    Feeds session (session.capture .stdout bytes attribution) bytes := by
  have lasts : ¬session.debugger.isTerminated = true := live
  obtain ⟨parser, others, runs, categories⟩ := session.debugger.output.capture_spec .stdout bytes
    session.debugger.mapping.consoleCoding attribution
  simp only [capture, Debugger.capture, if_neg lasts]
  refine ⟨parser, others, _, runs, categories, ?_⟩
  simp only [emit, send, List.map_map]
  rfl

/-- Whether printed text is captured stays as it is, unless the program is launched. -/
def Keeps (debugger next : Debugger) : Prop :=
  (next.launched = debugger.launched ∧ next.capturePrint = debugger.capturePrint) ∨
    debugger.launched = false ∧ next.launched = true

theorem keeps_refl (debugger : Debugger) : Keeps debugger debugger :=
  Or.inl ⟨rfl, rfl⟩

theorem Keeps.trans {debugger middle next : Debugger} (first : Keeps debugger middle)
    (last : Keeps middle next) : Keeps debugger next := by
  rcases first with ⟨launched, chosen⟩ | ⟨fresh, launched⟩
  · rw [Keeps, ← launched, ← chosen]
    exact last
  · rcases last with ⟨same, _⟩ | ⟨again, _⟩
    · exact Or.inr ⟨fresh, same.trans launched⟩
    · cases again.symm.trans launched

theorem Aside.keeps (aside : Aside session next) : Keeps session.debugger next.debugger := by
  cases aside with
  | note | finish => exact keeps_refl _
  | discover interpreter chunk =>
    obtain ⟨_, _, _, _, same⟩ := discover_spec session interpreter chunk
    rw [same]
    exact keeps_refl _

theorem Advance.keeps (advance : Advance session next) :
    Keeps session.debugger next.debugger := by
  cases advance with
  | aside aside => exact aside.keeps
  | attach | arrive | suspend | say | hit | leave => exact keeps_refl _
  | wake call =>
    obtain ⟨_, same, _⟩ := wake_spec session.debugger call
    simp only [modifyDebugger, same]
    exact keeps_refl _
  | stop call before after reason exception control =>
    obtain ⟨_, _, _, _, _, _, same⟩ := stop_spec { session with
      debugger := { session.debugger with control }
      blocked := before ++ after } call reason exception
    rw [same]
    exact keeps_refl _

theorem releaseIfReady_keeps (debugger : Debugger) : Keeps debugger debugger.releaseIfReady := by
  obtain ⟨_, same, _⟩ := debugger.releaseIfReady_spec
  rw [same]
  exact keeps_refl _

theorem teardown_keeps (debugger : Debugger) : Keeps debugger debugger.teardown.1 := by
  obtain ⟨_, _, _, ⟨_, _, torn⟩ | ⟨_, torn⟩⟩ := debugger.teardown_spec
  · rw [torn]
    exact keeps_refl _
  · rw [torn]
    exact keeps_refl _

/-- Only a launch, and there is one at most, chooses whether printed text is captured. -/
theorem Act.keeps (act : Act session request next) (valid : session.debugger.control.Valid) :
    Keeps session.debugger next.debugger := by
  cases act with
  | aside aside => exact aside.keeps
  | refuse | evaluate | defer | decline | reply | resume | release | dismiss =>
    exact keeps_refl _
  | adjust taken command change _ _ adjusts _ carried =>
    obtain ⟨_, _, _, _, _, _, _, _, same, _⟩ := Debugger.carryOut_adjusts carried adjusts
    simp only [apply, emit, send, answer, same]
    exact keeps_refl _
  | start taken command change _ _ _ _ started =>
    obtain ⟨fresh, _, _, _, _, _, _, _, rfl⟩ := Debugger.start_spec started
    exact Keeps.trans (Or.inr ⟨fresh, rfl⟩) (releaseIfReady_keeps _)
  | configure taken change _ _ _ done =>
    obtain ⟨_, rfl⟩ := Debugger.configurationDone_spec done
    exact releaseIfReady_keeps { session.debugger with configured := true }
  | close | shutdown => exact teardown_keeps session.debugger
  | detach handle announce =>
    obtain ⟨_, _, _, _, _, _, _, _, same⟩ := detach_spec valid handle announce
    rw [same]
    exact keeps_refl _
  | capture category bytes attribution =>
    obtain ⟨_, _, _, same⟩ := capture_spec session category bytes attribution
    rw [same]
    exact keeps_refl _
  | reconfigure change =>
    obtain ⟨_, _, _, _, _, _, same⟩ := configure_spec session change
    rw [same]
    exact keeps_refl _

theorem Advances.keeps (advances : Advances session next) :
    Keeps session.debugger next.debugger := by
  induction advances with
  | refl => exact keeps_refl _
  | tail _ last ih => exact ih.trans last.keeps

theorem Acts.keeps {taken : List Request} (acts : Acts session taken next)
    (coherent : session.Coherent) : Keeps session.debugger next.debugger := by
  induction acts with
  | refl => exact keeps_refl _
  | tail acts act ih => exact ih.trans (act.keeps (acts.coherent coherent).control)

theorem run_keeps (settled : session.Settled) (steps : List Step) :
    Keeps session.debugger (session.run steps).debugger := by
  induction steps generalizing session with
  | nil => exact keeps_refl _
  | cons step rest ih =>
    obtain ⟨_, _, acts, _, advances, _⟩ := perform_moves settled step
    exact ((acts.keeps settled.coherent).trans advances.keeps).trans (ih (perform_settled settled step))

theorem run_captures {steps : List Step}
    (captures : (({} : Session).run steps).debugger.capturePrint = true) (later : List Step) :
    (({} : Session).run (steps ++ later)).debugger.capturePrint = true := by
  have launched : (({} : Session).run steps).debugger.launched = true := by
    rcases run_keeps settled_new steps with ⟨_, unchosen⟩ | ⟨_, launched⟩
    · simp [captures] at unchosen
    · exact launched
  simp only [run, List.foldl_append]
  rcases run_keeps (run_settled steps) later with ⟨_, same⟩ | ⟨fresh, _⟩
  · exact same.trans captures
  · cases fresh.symm.trans launched

def located (session : Session) (place : Option (Interpreter × Nat)) : Session :=
  (session.origin place).1

theorem located_debugger (session : Session) (place : Option (Interpreter × Nat)) :
    ∃ sources, (session.located place).debugger = { session.debugger with sources } := by
  cases place with
  | none => exact ⟨session.debugger.sources, rfl⟩
  | some place => exact (Debugger.resolve_spec session.debugger place.1 place.1.chunk).1

theorem perform_print (session : Session) (bytes : List UInt8)
    (place : Option (Interpreter × Nat)) :
    session.perform (.print bytes place) =
      (if session.debugger.capturePrint = true then
          (session.located place).capture .stdout bytes (session.origin place).2
        else session.located place, .flag session.debugger.capturePrint) := by
  obtain ⟨sources, same⟩ := located_debugger session place
  have chosen : (session.located place).debugger.capturePrint = session.debugger.capturePrint := by
    rw [same]
  have printed : session.perform (.print bytes place) =
      (((session.located place).print bytes (session.origin place).2).1,
        .flag ((session.located place).print bytes (session.origin place).2).2) := rfl
  rw [printed, print, chosen]
  cases session.debugger.capturePrint <;> rfl

/-- Text that is not captured is left to the caller. Text that is captured is fed to the parser of
standard output until the session ends; from then on it is lost, since it goes on being captured. -/
theorem prints_fed (steps : List Step) (bytes : List UInt8) (place : Option (Interpreter × Nat)) :
    let session := ({} : Session).run steps
    let next := (session.perform (.print bytes place)).1
    (session.perform (.print bytes place)).2 = .flag session.debugger.capturePrint ∧
      (if session.debugger.capturePrint = true ∧ session.debugger.control.state ≠ .terminated then
          Feeds (session.located place) next bytes
        else next = session.located place) ∧
      (session.debugger.capturePrint = true → ∀ later,
        (({} : Session).run (steps ++ later)).debugger.capturePrint = true) := by
  intro session next
  have settled : session.Settled := run_settled steps
  have ends : (session.located place).isTerminated = session.isTerminated :=
    origin_terminated session place
  have known := isTerminated_iff settled.coherent
  have printed := perform_print session bytes place
  refine ⟨by rw [printed], ?_, run_captures⟩
  simp only [next, printed]
  split
  · rename_i both
    obtain ⟨captured, live⟩ := both
    rw [if_pos captured]
    exact capture_feeds (ends ▸ known.not.mpr live) bytes _
  · rename_i neither
    split
    · rename_i captured
      have late : session.debugger.control.state = .terminated := by
        by_contra live
        exact neither ⟨captured, live⟩
      exact capture_late (ends.trans (known.mpr late)) _ _ _
    · rfl

/-- Text that is printed after the end is neither left to the caller nor fed. -/
theorem print_lost :
    ¬∀ steps bytes place, let session := ({} : Session).run steps
      (session.perform (.print bytes place)).2 = .flag false ∨
        Feeds (session.located place) (session.perform (.print bytes place)).1 bytes := by
  intro kept
  let launch : Request := {
    seq := 1
    command := "launch"
    arguments := some (.object [("outputCapture", .array [.string "print"])]) }
  rcases kept [.request launch, .shutdown] [0x61] none with left | fed
  · have captured : (({} : Session).run [.request launch, .shutdown]).debugger.capturePrint = true := by
      decide +kernel
    rw [perform_print, captured] at left
    cases left
  · exact absurd fed.parser (by decide +kernel)

end Session
end DebugAdapter
