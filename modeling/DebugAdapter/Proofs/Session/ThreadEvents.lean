import DebugAdapter.Proofs.Session.Mustering
import DebugAdapter.Proofs.Session.Retaining

/-! A client can tell from the events of threads which threads there are. -/
namespace DebugAdapter

/-- A thread that exits has started before, unless the session is over, and never starts later. -/
def Ordered (messages : List Message) : Prop :=
  ∀ before id after, messages = before ++ .event (.thread .exited id) :: after →
    id ∉ reported .started after ∧
      (.event .terminated ∉ before → id ∈ reported .started before)

variable {messages more : List Message}

theorem cut_append {before after : List Message} {message : Message}
    (cut : messages ++ more = before ++ message :: after) :
    (∃ rest, messages = before ++ message :: rest ∧ after = rest ++ more) ∨
      ∃ front, before = messages ++ front ∧ more = front ++ message :: after := by
  rcases List.append_eq_append_iff.mp cut with ⟨front, first, last⟩ | ⟨rest, first, last⟩
  · exact .inr ⟨front, first, last⟩
  · cases rest with
    | nil => exact .inr ⟨[], by simpa using first.symm, last.symm⟩
    | cons head rest =>
      obtain ⟨rfl, rfl⟩ := List.cons.inj last
      exact .inl ⟨rest, first, rfl⟩

theorem Ordered.append (ordered : Ordered messages)
    (fresh : ∀ id ∈ reported .exited messages, id ∉ reported .started more)
    (last : ∀ id ∈ reported .exited more, id ∉ reported .started more ∧
      (.event .terminated ∉ messages → id ∈ reported .started messages)) :
    Ordered (messages ++ more) := by
  intro before id after cut
  rcases cut_append cut with ⟨rest, rfl, rfl⟩ | ⟨front, rfl, rfl⟩
  · obtain ⟨gone, begun⟩ := ordered before id rest rfl
    have new := fresh id (mem_reported.mpr (by simp))
    refine ⟨?_, begun⟩
    rw [reported_append, List.mem_append, not_or]
    exact ⟨gone, new⟩
  · obtain ⟨new, begun⟩ := last id (mem_reported.mpr (by simp))
    refine ⟨fun later => new ?_, fun live => ?_⟩
    · rw [mem_reported] at later ⊢
      simp [later]
    · rw [reported_append]
      exact List.mem_append_left _ (begun fun ends => live (List.mem_append_left _ ends))

namespace Session

variable {session next : Session} {handle : Nat}

/-- The events of threads so far, and those that are in the registry. -/
structure Enrolled (session : Session) : Prop where
  ascending : (reported .started session.outbox).Pairwise (· < ·)
  given : ∀ id ∈ reported .started session.outbox, id ≤ session.debugger.registry.lastId
  once : (reported .exited session.outbox).Nodup
  gone : ∀ id ∈ reported .exited session.outbox, id ≤ session.debugger.registry.lastId ∧
    ∀ handle, (id, handle) ∉ session.debugger.registry.roster
  announced : .event .terminated ∉ session.outbox →
    ∀ entry ∈ session.debugger.registry.roster, entry.1 ∈ reported .started session.outbox
  ended : session.debugger.control.state = .terminated → .event .terminated ∈ session.outbox
  order : Ordered session.outbox

theorem Unheard.enrolled (unheard : Unheard session next) (enrolled : session.Enrolled) :
    next.Enrolled := by
  obtain ⟨messages, outbox, none⟩ := unheard.reports
  have same (reason : ThreadReason) : reported reason next.outbox =
      reported reason session.outbox := by
    rw [outbox, reported_append, none, List.append_nil]
  refine ⟨?_, ?_, ?_, fun id exited => ?_, fun live entry listed => ?_, fun ends => ?_, ?_⟩
  · rw [same]
    exact enrolled.ascending
  · rw [same, unheard.lastId]
    exact enrolled.given
  · rw [same]
    exact enrolled.once
  · rw [same] at exited
    obtain ⟨given, away⟩ := enrolled.gone id exited
    exact ⟨unheard.lastId ▸ given, fun handle => mt (@unheard.roster _) (away handle)⟩
  · rw [same]
    refine enrolled.announced (fun told => live ?_) entry (unheard.roster listed)
    exact outbox ▸ List.mem_append_left _ told
  · rcases unheard.ended ends with already | now
    · exact outbox ▸ List.mem_append_left _ (enrolled.ended already)
    · exact now
  · rw [outbox]
    refine enrolled.order.append (fun _ _ => ?_) fun id exited => ?_
    · rw [none]
      exact List.not_mem_nil
    · rw [none] at exited
      contradiction

theorem Joins.enrolled (joins : Joins session next handle) (enrolled : session.Enrolled) :
    next.Enrolled := by
  obtain ⟨messages, outbox, none, told⟩ := joins.reports
  have exits : reported .exited next.outbox = reported .exited session.outbox := by
    rw [outbox, reported_append, none, List.append_nil]
  have begun : reported .started next.outbox =
      reported .started session.outbox ++ reported .started messages := by
    rw [outbox, reported_append]
  have fresh : ∀ id ∈ reported .started messages, id = session.debugger.registry.lastId + 1 := by
    rcases told with ⟨told, _⟩ | told
    · exact told ▸ List.forall_mem_nil _
    · exact told ▸ List.forall_mem_singleton.mpr rfl
  refine ⟨?_, ?_, ?_, fun id exited => ?_, fun live entry listed => ?_, fun ends => ?_, ?_⟩
  · rw [begun, List.pairwise_append]
    refine ⟨enrolled.ascending, ?_, fun old given latest member => ?_⟩
    · rcases told with ⟨told, _⟩ | told
      · exact told ▸ .nil
      · exact told ▸ List.pairwise_singleton _ _
    · rw [fresh latest member]
      exact Nat.lt_succ_of_le (enrolled.given old given)
  · rw [begun, joins.lastId]
    intro id member
    rcases List.mem_append.mp member with old | latest
    · exact Nat.le_succ_of_le (enrolled.given id old)
    · exact Nat.le_of_eq (fresh id latest)
  · rw [exits]
    exact enrolled.once
  · rw [exits] at exited
    obtain ⟨given, away⟩ := enrolled.gone id exited
    rw [joins.lastId, joins.roster]
    refine ⟨Nat.le_succ_of_le given, fun other listed => ?_⟩
    rcases List.mem_append.mp listed with old | latest
    · exact away other old
    · cases List.mem_singleton.mp latest
      omega
  · have before : .event .terminated ∉ session.outbox := fun ended =>
      live (outbox ▸ List.mem_append_left _ ended)
    rw [begun, List.mem_append]
    rw [joins.roster] at listed
    rcases List.mem_append.mp listed with old | latest
    · exact .inl (enrolled.announced before entry old)
    · rcases told with ⟨_, ends⟩ | told
      · exact absurd (enrolled.ended ends) before
      · cases List.mem_singleton.mp latest
        exact .inr (told ▸ List.mem_cons_self)
  · exact outbox ▸ List.mem_append_left _ (enrolled.ended (joins.state.symm.trans ends))
  · rw [outbox]
    refine enrolled.order.append (fun id exited later => ?_) fun id exited => ?_
    · have given := (enrolled.gone id exited).1
      have same := fresh id later
      omega
    · rw [none] at exited
      contradiction

theorem Parts.enrolled {id : Nat} (parts : Parts session next id handle)
    (valid : session.debugger.registry.Valid) (enrolled : session.Enrolled) : next.Enrolled := by
  obtain ⟨messages, outbox, one, none⟩ := parts.reports
  have exits : reported .exited next.outbox = reported .exited session.outbox ++ [id] := by
    rw [outbox, reported_append, one]
  have starts : reported .started next.outbox = reported .started session.outbox := by
    rw [outbox, reported_append, none, List.append_nil]
  refine ⟨?_, ?_, ?_, fun other exited => ?_, fun live entry listed => ?_, fun ends => ?_, ?_⟩
  · rw [starts]
    exact enrolled.ascending
  · rw [starts, parts.lastId]
    exact enrolled.given
  · rw [exits]
    refine enrolled.once.append (List.nodup_singleton id) (List.disjoint_singleton.mpr ?_)
    exact fun exited => (enrolled.gone id exited).2 handle parts.listed
  · rw [exits] at exited
    rw [parts.lastId]
    rcases List.mem_append.mp exited with old | latest
    · obtain ⟨given, away⟩ := enrolled.gone other old
      exact ⟨given, fun handle listed => away handle ((parts.roster _).mp listed).1⟩
    · obtain rfl := List.mem_singleton.mp latest
      refine ⟨valid.bounded _ parts.listed, fun owner listed => ?_⟩
      obtain ⟨before, apart⟩ := (parts.roster _).mp listed
      exact apart (valid.owner parts.listed before)
  · rw [starts]
    refine enrolled.announced (fun ended => live ?_) entry ((parts.roster entry).mp listed).1
    exact outbox ▸ List.mem_append_left _ ended
  · exact outbox ▸ List.mem_append_left _ (enrolled.ended (parts.ended ends))
  · rw [outbox]
    refine enrolled.order.append (fun _ _ => ?_) fun other exited => ?_
    · rw [none]
      exact List.not_mem_nil
    · rw [one] at exited
      rw [none]
      obtain rfl := List.mem_singleton.mp exited
      exact ⟨List.not_mem_nil, fun live => enrolled.announced live _ parts.listed⟩

theorem Advances.enrolled (advances : Advances session next) (coherent : session.Coherent)
    (enrolled : session.Enrolled) : next.Enrolled := by
  induction advances with
  | refl => exact enrolled
  | tail prior last ih =>
    rcases last.musters (Advances.coherent prior coherent) with unheard | ⟨handle, joins⟩
    · exact unheard.enrolled ih
    · exact joins.enrolled ih

theorem Acts.enrolled {taken : List Request} (acts : Acts session taken next)
    (coherent : session.Coherent) (enrolled : session.Enrolled) : next.Enrolled := by
  induction acts with
  | refl => exact enrolled
  | tail prior last ih =>
    have before := prior.coherent coherent
    rcases last.musters before with unheard | ⟨id, handle, parts⟩
    · exact unheard.enrolled ih
    · exact parts.enrolled before.callers.registry ih

/-- Whoever is said to have started is in the registry until it is said to have exited. -/
def Complete (session : Session) : Prop :=
  session.debugger.control.state ≠ .terminated →
    ∀ id ∈ reported .started session.outbox, id ∈ reported .exited session.outbox ∨
      ∃ handle, (id, handle) ∈ session.debugger.registry.roster

theorem Acts.started {taken : List Request} (acts : Acts session taken next)
    (coherent : session.Coherent) :
    reported .started next.outbox = reported .started session.outbox := by
  induction acts with
  | refl => rfl
  | tail prior last ih =>
    rcases last.musters (prior.coherent coherent) with unheard | ⟨id, handle, parts⟩
    · obtain ⟨messages, outbox, none⟩ := unheard.reports
      rw [outbox, reported_append, none, List.append_nil, ih]
    · obtain ⟨messages, outbox, _, none⟩ := parts.reports
      rw [outbox, reported_append, none, List.append_nil, ih]

theorem Advances.started (advances : Advances session next) (coherent : session.Coherent) :
    ∀ id ∈ reported .started next.outbox, id ∈ reported .started session.outbox ∨
      ∃ handle, (id, handle) ∈ next.debugger.registry.roster := by
  induction advances with
  | refl => exact fun _ => .inl
  | @tail middle next prior last ih =>
    intro id started
    have stays := ih id
    have grows := last.roster.subset
    rcases last.musters (Advances.coherent prior coherent) with unheard | ⟨handle, joins⟩
    · obtain ⟨messages, outbox, none⟩ := unheard.reports
      rw [outbox, reported_append, none, List.append_nil] at started
      exact (stays started).imp_right fun ⟨handle, listed⟩ => ⟨handle, grows listed⟩
    · obtain ⟨messages, outbox, _, told⟩ := joins.reports
      rw [outbox, reported_append, List.mem_append] at started
      rcases started with old | latest
      · exact (stays old).imp_right fun ⟨handle, listed⟩ => ⟨handle, grows listed⟩
      · right
        rcases told with ⟨told, _⟩ | told
        · rw [told] at latest
          contradiction
        · rw [told] at latest
          obtain rfl := List.mem_singleton.mp latest
          exact ⟨handle, joins.roster ▸ List.mem_append_right _ List.mem_cons_self⟩

theorem Parts.complete {id : Nat} (parts : Parts session next id handle)
    (valid : session.debugger.registry.Valid) (live : session.debugger.control.state ≠ .terminated)
    (complete : session.Complete) : next.Complete := by
  intro _ other started
  obtain ⟨messages, outbox, one, none⟩ := parts.reports
  rw [outbox, reported_append, none, List.append_nil] at started
  rw [outbox, reported_append, one, List.mem_append]
  rcases complete live other started with exited | ⟨owner, listed⟩
  · exact .inl (.inl exited)
  · by_cases same : owner = handle
    · subst same
      rw [valid.holder parts.listed listed]
      exact .inl (.inr List.mem_cons_self)
    · exact .inr ⟨owner, (parts.roster _).mpr ⟨listed, same⟩⟩

end Session
end DebugAdapter
