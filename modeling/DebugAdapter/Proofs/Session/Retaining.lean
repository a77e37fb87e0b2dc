import DebugAdapter.Proofs.Session.LiveThreads

/-! Nobody but the program takes a thread out of a session: as long as it lasts, it keeps the threads
that it has until they are detached. -/
namespace DebugAdapter

namespace Session

/-- A session that is over stays so, and one that lasts has the threads that it had. -/
structure Retains (session next : Session) : Prop where
  ended : session.debugger.control.state = .terminated →
    next.debugger.control.state = .terminated
  threads : next.debugger.control.state ≠ .terminated →
    session.debugger.registry.roster ⊆ next.debugger.registry.roster

variable {session middle next : Session}

theorem Retains.refl (session : Session) : Retains session session :=
  ⟨id, fun _ => List.Subset.refl _⟩

theorem Retains.trans (first : Retains session middle) (last : Retains middle next) :
    Retains session next :=
  ⟨last.ended ∘ first.ended, fun lasts =>
    List.Subset.trans (first.threads (mt last.ended lasts)) (last.threads lasts)⟩

/-- Threads come in behind those that are there. -/
theorem Advance.roster (advance : Advance session next) :
    session.debugger.registry.roster <+: next.debugger.registry.roster := by
  cases advance with
  | aside aside =>
    cases aside with
    | note | finish => exact List.prefix_rfl
    | discover interpreter chunk =>
      obtain ⟨_, _, _, _, same⟩ := discover_spec session interpreter chunk
      have kept : (session.discover interpreter chunk).debugger.registry =
        session.debugger.registry := by rw [same]
      exact kept ▸ List.prefix_rfl
  | attach handle =>
    change _ <+: (session.debugger.registry.attach handle).1.roster
    rcases (Registry.attach_spec session.debugger.registry handle).2 with
      ⟨_, same⟩ | ⟨_, _, roster, _⟩
    · have kept : (session.debugger.registry.attach handle).1.roster =
        session.debugger.registry.roster := by rw [same]
      exact kept ▸ List.prefix_rfl
    · exact roster ▸ List.prefix_append _ _
  | arrive | say | hit | leave => exact List.prefix_rfl
  | suspend call =>
    have same : (session.debugger.registry.modify call.thread Thread.setSuspended).roster =
        session.debugger.registry.roster := Registry.modify_roster _ _ fun _ => rfl
    exact same ▸ List.prefix_rfl
  | wake call =>
    obtain ⟨registry, same, roster, _⟩ := wake_spec session.debugger call
    simp only [modifyDebugger, same]
    exact roster ▸ List.prefix_rfl
  | stop call before after reason exception control =>
    obtain ⟨registry, output, news, _, roster, _, same⟩ := stop_spec { session with
      debugger := { session.debugger with control }
      blocked := before ++ after } call reason exception
    rw [same]
    exact roster ▸ List.prefix_rfl

end Session
end DebugAdapter
