import DebugAdapter.Proofs.Breakpoint.Table
import Mathlib.Algebra.GroupWithZero.Nat
import Mathlib.Data.List.Forall2
import Mathlib.Data.List.Induction
import Mathlib.Data.List.Nodup

/-! What a table of breakpoints holds after any history of replacements, hits and clearings. Of the
requests for a source, the first valid one on each line is installed, and every report names what is
installed; an identifier belongs to one breakpoint for all time. -/
namespace DebugAdapter.Breakpoint

namespace Request

/-- A request is valid if it names a line, and if the hit condition and the log message that it may
carry can be read. -/
def valid (request : Request) : Bool :=
  request.line ≠ 0
    && (nonblank request.hitCondition).all (fun text => (HitCondition.parse? text).isSome)
    && request.logMessage.all (fun template => (LogMessage.parse template).isOk)

def reading (request : Request) : Action where
  condition := nonblank request.condition
  hitCondition := (nonblank request.hitCondition).bind HitCondition.parse?
  logMessage := request.logMessage.bind fun template => (LogMessage.parse template).toOption

variable {request : Request}

theorem parseHitCondition_spec (request : Request) :
    match request.parseHitCondition with
    | .ok condition =>
      (nonblank request.hitCondition).all (fun text => (HitCondition.parse? text).isSome) = true ∧
        condition = (nonblank request.hitCondition).bind HitCondition.parse?
    | .error _ =>
      (nonblank request.hitCondition).all (fun text => (HitCondition.parse? text).isSome) =
        false := by
  unfold parseHitCondition
  cases nonblank request.hitCondition with
  | none => exact ⟨rfl, rfl⟩
  | some text => cases read : HitCondition.parse? text <;> simp [read]

theorem parseLogMessage_spec (request : Request) :
    match request.parseLogMessage with
    | .ok fragments =>
      request.logMessage.all (fun template => (LogMessage.parse template).isOk) = true ∧
        fragments = request.logMessage.bind fun template => (LogMessage.parse template).toOption
    | .error _ =>
      request.logMessage.all (fun template => (LogMessage.parse template).isOk) = false := by
  unfold parseLogMessage
  cases request.logMessage with
  | none => exact ⟨rfl, rfl⟩
  | some template =>
    cases read : LogMessage.parse template <;> simp [read, Except.isOk, Except.toBool, Except.toOption]

/-- Just the valid requests have an action, and it is what they ask for. -/
theorem action_spec (request : Request) :
    match request.action with
    | .ok action => request.valid = true ∧ action = request.reading
    | .error _ => request.valid = false := by
  have conditions := parseHitCondition_spec request
  have messages := parseLogMessage_spec request
  unfold action
  by_cases line : request.line = 0
  · simp [line, valid, throw, throwThe, MonadExceptOf.throw, bind, Except.bind]
  · cases condition : request.parseHitCondition with
    | error fault =>
      rw [condition] at conditions
      simp [line, valid, conditions, bind, Except.bind]
    | ok hitCondition =>
      rw [condition] at conditions
      cases message : request.parseLogMessage with
      | error fault =>
        rw [message] at messages
        simp [line, valid, messages, bind, Except.bind]
      | ok logMessage =>
        rw [message] at messages
        simp [line, valid, reading, conditions, messages, bind, Except.bind, pure, Except.pure]

end Request

/-- The first valid request on a line. -/
def firstOn? (requests : List Request) (line : Nat) : Option Request :=
  requests.find? fun request => request.valid && request.line = line

theorem firstOn?_append (requests : List Request) (request : Request) (line : Nat) :
    firstOn? (requests ++ [request]) line = (firstOn? requests line).or
      (if request.valid && request.line = line then some request else none) := by
  rw [firstOn?, List.find?_append, firstOn?]
  congr 1
  simp only [List.find?_cons, List.find?_nil]
  split <;> simp_all

namespace Lines

variable {breakpoint : LineBreakpoint} {lines : Lines} {line : Nat}

theorem find?_spec (found : lines.find? line = some breakpoint) :
    breakpoint ∈ lines ∧ breakpoint.line = line :=
  ⟨List.mem_of_find?_eq_some found, by simpa using List.find?_some found⟩

theorem find?_eq_none : lines.find? line = none ↔ ∀ breakpoint ∈ lines, breakpoint.line ≠ line := by
  simp [find?, List.find?_eq_none]

theorem insert_perm (breakpoint : LineBreakpoint) (lines : Lines) :
    (insert breakpoint lines).Perm (breakpoint :: lines) := by
  induction lines with
  | nil => exact .refl _
  | cons first rest ih =>
    unfold insert
    split
    · exact (ih.cons first).trans (.swap breakpoint first rest)
    · exact .refl _

theorem find?_insert (free : lines.find? breakpoint.line = none) (line : Nat) :
    (insert breakpoint lines).find? line =
      if line = breakpoint.line then some breakpoint else lines.find? line := by
  induction lines with
  | nil => simp [insert, find?, eq_comm]
  | cons first rest ih =>
    have apart : first.line ≠ breakpoint.line := find?_eq_none.mp free first List.mem_cons_self
    have later : find? breakpoint.line rest = none := by
      rwa [find?, List.find?_cons_of_neg (by simpa using apart)] at free
    unfold insert
    split
    · by_cases own : first.line = line
      · have other : line ≠ breakpoint.line := own ▸ apart
        simp [find?, own, other]
      · rw [find?, List.find?_cons_of_neg (by simpa using own)]
        rw [find?, List.find?_cons_of_neg (by simpa using own)]
        exact ih later
    · by_cases own : line = breakpoint.line
      · simp [find?, own]
      · rw [if_neg own, find?, List.find?_cons_of_neg (by simpa [eq_comm] using own), find?]

theorem insert_ascending (ascending : lines.Pairwise (·.line < ·.line))
    (free : lines.find? breakpoint.line = none) :
    (insert breakpoint lines).Pairwise (·.line < ·.line) := by
  induction lines with
  | nil => exact List.pairwise_singleton _ _
  | cons first rest ih =>
    obtain ⟨before, following⟩ := List.pairwise_cons.mp ascending
    have apart := find?_eq_none.mp free
    unfold insert
    split
    · rename_i lower
      have later := ih following (find?_eq_none.mpr fun other member =>
        apart other (List.mem_cons_of_mem first member))
      refine List.pairwise_cons.mpr ⟨fun other member => ?_, later⟩
      rcases mem_insert member with rfl | old
      · exact lower
      · exact before other old
    · rename_i higher
      have lowest : breakpoint.line < first.line :=
        Nat.lt_of_le_of_ne (Nat.le_of_not_lt higher) (apart first List.mem_cons_self).symm
      refine List.pairwise_cons.mpr ⟨fun other member => ?_, ascending⟩
      rcases List.mem_cons.mp member with rfl | old
      · exact lowest
      · exact Nat.lt_trans lowest (before other old)

end Lines

namespace Table

structure Reports (source : Source) (lines : Lines) (request : Request) (report : Report) :
    Prop where
  source : report.source = source
  line : report.line = request.line
  verified : report.verified = request.valid
  names : request.valid = true → report.id = (lines.find? request.line).map (·.id)
  explained : report.message.isSome = !request.valid

/-- What has been put together for a source out of its requests, with identifiers from `start` on. -/
structure Draft.Covers (start : Nat) (source : Source) (requests : List Request) (draft : Draft) :
    Prop where
  nextId : draft.nextId = start + requests.countP (·.valid)
  ascending : draft.lines.Pairwise (·.line < ·.line)
  first : ∀ line, (draft.lines.find? line).map (fun breakpoint => (breakpoint.action, breakpoint.hits))
    = (firstOn? requests line).map fun request => (request.reading, 0)
  numbered : ∀ breakpoint ∈ draft.lines, start < breakpoint.id ∧ breakpoint.id ≤ draft.nextId
  apart : (draft.lines.map (·.id)).Nodup
  reports : requests.Forall₂ (Reports source draft.lines) draft.reports

namespace Draft

variable {start : Nat} {source : Source} {requests : List Request} {draft : Draft}
  {request : Request}

theorem covers_new (start : Nat) (source : Source) : Covers start source [] { nextId := start } where
  nextId := rfl
  ascending := .nil
  first := fun _ => rfl
  numbered := fun _ member => absurd member List.not_mem_nil
  apart := .nil
  reports := .nil

/-- Nothing is installed on a line exactly if no request for it has been valid. -/
theorem Covers.free_iff (covers : draft.Covers start source requests) (line : Nat) :
    draft.lines.find? line = none ↔ firstOn? requests line = none := by
  have first := covers.first line
  cases installed : draft.lines.find? line <;> cases asked : firstOn? requests line <;>
    simp_all

theorem Covers.installed (covers : draft.Covers start source requests) (member : request ∈ requests)
    (valid : request.valid = true) : ∃ breakpoint, draft.lines.find? request.line = some breakpoint := by
  refine Option.ne_none_iff_exists'.mp fun free => ?_
  have none := (covers.free_iff request.line).mp free
  simpa [valid] using List.find?_eq_none.mp none request member

/-- What was reported stays true when a breakpoint is installed on a line that is free. -/
theorem Covers.reports_insert (covers : draft.Covers start source requests)
    {breakpoint : LineBreakpoint} (free : draft.lines.find? breakpoint.line = none) :
    requests.Forall₂ (Reports source (draft.lines.insert breakpoint)) draft.reports := by
  have members : ∀ request ∈ requests, request.valid = true → request.line ≠ breakpoint.line := by
    intro request member valid same
    obtain ⟨installed, found⟩ := covers.installed member valid
    rw [same, free] at found
    contradiction
  have told := covers.reports
  generalize draft.reports = reports at told
  clear covers
  induction told with
  | nil => exact .nil
  | @cons request report rest others tells _ ih =>
    refine .cons ⟨tells.source, tells.line, tells.verified, fun valid => ?_, tells.explained⟩
      (ih fun other member => members other (List.mem_cons_of_mem request member))
    rw [Lines.find?_insert free, if_neg (members request List.mem_cons_self valid)]
    exact tells.names valid

theorem Covers.refuse (covers : draft.Covers start source requests) {fault : Fault}
    (refused : request.action = .error fault) :
    (draft.add source request).Covers start source (requests ++ [request]) := by
  have invalid : request.valid = false := by
    have spec := request.action_spec
    rwa [refused] at spec
  have added : draft.add source request = { draft with
      reports := draft.reports ++ [⟨none, some fault.message, source, request.line⟩] } := by
    simp only [add, refused]
  rw [added]
  refine ⟨?_, covers.ascending, fun line => ?_, covers.numbered, covers.apart, ?_⟩
  · simp [covers.nextId, invalid]
  · rw [firstOn?_append, invalid]
    simpa using covers.first line
  · refine List.rel_append covers.reports (.cons ⟨rfl, rfl, ?_, fun valid => ?_, ?_⟩ .nil)
    · simp [Report.verified, invalid]
    · simp [invalid] at valid
    · simp [invalid]

theorem Covers.repeated (covers : draft.Covers start source requests) {action : Action}
    (read : request.action = .ok action) {installed : LineBreakpoint}
    (found : draft.lines.find? request.line = some installed) :
    (draft.add source request).Covers start source (requests ++ [request]) := by
  have valid : request.valid = true := by
    have spec := request.action_spec
    rw [read] at spec
    exact spec.1
  have added : draft.add source request = { draft with
      nextId := draft.nextId + 1
      reports := draft.reports ++ [⟨some installed.id, none, source, request.line⟩] } := by
    simp only [add, read, found]
  rw [added]
  refine ⟨?_, covers.ascending, fun line => ?_, fun breakpoint member => ?_, covers.apart, ?_⟩
  · simp [covers.nextId, valid, Nat.add_assoc]
  · rw [firstOn?_append, covers.first line]
    cases earlier : firstOn? requests line with
    | some first => rfl
    | none =>
      have free := (covers.free_iff line).mpr earlier
      have other : request.line ≠ line := by
        rintro rfl
        rw [free] at found
        contradiction
      simp [other]
  · obtain ⟨above, below⟩ := covers.numbered breakpoint member
    exact ⟨above, Nat.le_succ_of_le below⟩
  · refine List.rel_append covers.reports (.cons ⟨rfl, rfl, ?_, fun _ => ?_, ?_⟩ .nil)
    · simp [Report.verified, valid]
    · simp [found]
    · simp [valid]

theorem Covers.install (covers : draft.Covers start source requests) {action : Action}
    (read : request.action = .ok action) (free : draft.lines.find? request.line = none) :
    (draft.add source request).Covers start source (requests ++ [request]) := by
  obtain ⟨valid, reading⟩ : request.valid = true ∧ action = request.reading := by
    have spec := request.action_spec
    rwa [read] at spec
  let breakpoint : LineBreakpoint := { id := draft.nextId + 1, line := request.line, action }
  have added : draft.add source request = {
      lines := draft.lines.insert breakpoint
      nextId := draft.nextId + 1
      reports := draft.reports ++ [⟨some (draft.nextId + 1), none, source, request.line⟩] } := by
    simp only [add, read, free, breakpoint]
  have fresh : breakpoint.id ∉ draft.lines.map (·.id) := by
    intro taken
    obtain ⟨other, member, same⟩ := List.mem_map.mp taken
    have below := (covers.numbered other member).2
    simp only [breakpoint] at same
    omega
  have perm := Lines.insert_perm breakpoint draft.lines
  have here : (draft.lines.insert breakpoint).find? request.line = some breakpoint :=
    (Lines.find?_insert free request.line).trans (if_pos rfl)
  rw [added]
  refine ⟨?_, Lines.insert_ascending covers.ascending free, fun line => ?_, fun other member => ?_,
    ?_, ?_⟩
  · simp [covers.nextId, valid, Nat.add_assoc]
  · rw [firstOn?_append, Lines.find?_insert free]
    by_cases own : line = request.line
    · subst own
      have first := (covers.free_iff request.line).mp free
      simp [first, valid, breakpoint, reading]
    · have other : request.line ≠ line := fun same => own same.symm
      simpa [own, other, breakpoint] using covers.first line
  · have first : start ≤ draft.nextId := by
      rw [covers.nextId]
      exact Nat.le_add_right _ _
    rcases List.mem_cons.mp (perm.mem_iff.mp member) with rfl | old
    · exact ⟨Nat.lt_succ_of_le first, Nat.le_refl _⟩
    · obtain ⟨above, below⟩ := covers.numbered other old
      exact ⟨above, Nat.le_succ_of_le below⟩
  · exact (perm.map _).nodup_iff.mpr (List.nodup_cons.mpr ⟨fresh, covers.apart⟩)
  · refine List.rel_append (covers.reports_insert free) (.cons ⟨rfl, rfl, ?_, fun _ => ?_, ?_⟩ .nil)
    · simp [Report.verified, valid]
    · rw [here]
      rfl
    · simp [valid]

theorem Covers.add (covers : draft.Covers start source requests) (request : Request) :
    (draft.add source request).Covers start source (requests ++ [request]) := by
  cases read : request.action with
  | error fault => exact covers.refuse read
  | ok action =>
    cases installed : draft.lines.find? request.line with
    | some breakpoint => exact covers.repeated read installed
    | none => exact covers.install read installed

theorem foldl_covers (start : Nat) (source : Source) (requests : List Request) :
    (requests.foldl (add source) { nextId := start }).Covers start source requests := by
  induction requests using List.reverseRecOn with
  | nil => exact covers_new start source
  | append_singleton requests request ih =>
    rw [List.foldl_append, List.foldl_cons, List.foldl_nil]
    exact ih.add request

end Draft

inductive Operation where
  | replace (key : String) (source : Source) (requests : List Request)
  | recordHit (key : String) (line : Nat)
  | clear

namespace Operation

def parsed : Operation → Nat
  | .replace _ _ requests => requests.countP (·.valid)
  | .recordHit .. | .clear => 0

end Operation

def perform (table : Table) : Operation → Table
  | .replace key source requests => (table.replace key source requests).1
  | .recordHit key line => (table.recordHit key line).1
  | .clear => table.clear

def run (table : Table) (operations : List Operation) : Table :=
  operations.foldl perform table

variable {table : Table}

/-- Each source has one breakpoint on a line, and no two breakpoints have the same identifier. -/
structure Sound (table : Table) : Prop where
  ascending : ∀ key, (table.lines key).Pairwise (·.line < ·.line)
  numbered : ∀ key, ∀ breakpoint ∈ table.lines key, 0 < breakpoint.id ∧ breakpoint.id ≤ table.nextId
  apart : ∀ key, ((table.lines key).map (·.id)).Nodup
  owned : ∀ key other, key ≠ other → ∀ breakpoint ∈ table.lines key,
    ∀ another ∈ table.lines other, breakpoint.id ≠ another.id

theorem sound_new : ({} : Table).Sound where
  ascending := fun _ => .nil
  numbered := fun _ _ member => absurd member List.not_mem_nil
  apart := fun _ => .nil
  owned := fun _ _ _ _ member => absurd member List.not_mem_nil

theorem replace_nextId (table : Table) (key : String) (source : Source) (requests : List Request) :
    (table.replace key source requests).1.nextId =
      table.nextId + requests.countP (·.valid) :=
  (Draft.foldl_covers table.nextId source requests).nextId

theorem recordHit_nextId (table : Table) (key : String) (line : Nat) :
    (table.recordHit key line).1.nextId = table.nextId := by
  unfold recordHit
  split <;> rfl

theorem perform_nextId (table : Table) (operation : Operation) :
    (table.perform operation).nextId = table.nextId + operation.parsed := by
  cases operation with
  | replace key source requests => exact replace_nextId table key source requests
  | recordHit key line => exact recordHit_nextId table key line
  | clear => rfl

/-- Every valid request takes an identifier, and nothing gives one back. -/
theorem run_nextId (table : Table) (operations : List Operation) :
    (table.run operations).nextId = table.nextId + (operations.map (·.parsed)).sum := by
  induction operations generalizing table with
  | nil => rfl
  | cons operation rest ih =>
    have later := ih (table.perform operation)
    rw [perform_nextId, Nat.add_assoc] at later
    exact later

/-- What a replacement installs is newer than all that was there. -/
theorem replace_newer {key : String} {source : Source} {requests : List Request}
    {breakpoint : LineBreakpoint}
    (member : breakpoint ∈ (table.replace key source requests).1.lines key) :
    table.nextId < breakpoint.id ∧
      breakpoint.id ≤ (table.replace key source requests).1.nextId := by
  rw [lines_replace] at member
  exact (Draft.foldl_covers table.nextId source requests).numbered breakpoint member

theorem Sound.replace (sound : table.Sound) (key : String) (source : Source)
    (requests : List Request) : (table.replace key source requests).1.Sound := by
  have covers := Draft.foldl_covers table.nextId source requests
  have kept (other : String) (apart : other ≠ key) :=
    lines_replace_of_ne table apart source requests
  constructor
  · intro other
    by_cases own : other = key
    · rw [own, lines_replace]
      exact covers.ascending
    · rw [kept other own]
      exact sound.ascending other
  · intro other breakpoint member
    by_cases own : other = key
    · subst own
      obtain ⟨above, below⟩ := replace_newer member
      exact ⟨Nat.zero_lt_of_lt above, below⟩
    · rw [kept other own] at member
      obtain ⟨above, below⟩ := sound.numbered other breakpoint member
      rw [replace_nextId]
      exact ⟨above, Nat.le_add_right_of_le below⟩
  · intro other
    by_cases own : other = key
    · rw [own, lines_replace]
      exact covers.apart
    · rw [kept other own]
      exact sound.apart other
  · intro first second different breakpoint member another also
    by_cases own : first = key
    · subst own
      rw [kept second different.symm] at also
      have below := (sound.numbered second another also).2
      have above := (replace_newer member).1
      omega
    · rw [kept first own] at member
      by_cases same : second = key
      · subst same
        have below := (sound.numbered first breakpoint member).2
        have above := (replace_newer also).1
        omega
      · rw [kept second same] at also
        exact sound.owned first second different breakpoint member another also

theorem Sound.keep (sound : table.Sound) {next : Table}
    (kept : ∀ key, (next.lines key).map (fun breakpoint => (breakpoint.line, breakpoint.id)) =
      (table.lines key).map fun breakpoint => (breakpoint.line, breakpoint.id))
    (same : next.nextId = table.nextId) : next.Sound := by
  have ids (key : String) : (next.lines key).map (·.id) = (table.lines key).map (·.id) := by
    simpa [Function.comp_def] using congrArg (List.map Prod.snd) (kept key)
  have lines (key : String) : (next.lines key).map (·.line) = (table.lines key).map (·.line) := by
    simpa [Function.comp_def] using congrArg (List.map Prod.fst) (kept key)
  have before (key : String) (breakpoint : LineBreakpoint) (member : breakpoint ∈ next.lines key) :
      ∃ old ∈ table.lines key, old.id = breakpoint.id :=
    List.mem_map.mp (ids key ▸ List.mem_map_of_mem member)
  constructor
  · intro key
    have ascending := List.pairwise_map.mpr (sound.ascending key)
    rw [← lines] at ascending
    exact List.pairwise_map.mp ascending
  · intro key breakpoint member
    obtain ⟨old, held, id⟩ := before key breakpoint member
    rw [← id, same]
    exact sound.numbered key old held
  · intro key
    rw [ids]
    exact sound.apart key
  · intro key other different breakpoint member another also
    obtain ⟨old, held, id⟩ := before key breakpoint member
    obtain ⟨older, kept, number⟩ := before other another also
    rw [← id, ← number]
    exact sound.owned key other different old held older kept

theorem Sound.recordHit (sound : table.Sound) (key : String) (line : Nat) :
    (table.recordHit key line).1.Sound := by
  refine sound.keep (fun other => ?_) (recordHit_nextId table key line)
  rw [lines_recordHit, List.map_map]
  refine List.map_congr_left fun breakpoint _ => ?_
  simp only [Function.comp_apply]
  split <;> rfl

theorem Sound.clear : table.clear.Sound where
  ascending := fun _ => .nil
  numbered := fun _ _ member => absurd member List.not_mem_nil
  apart := fun _ => .nil
  owned := fun _ _ _ _ member => absurd member List.not_mem_nil

theorem Sound.perform (sound : table.Sound) (operation : Operation) :
    (table.perform operation).Sound := by
  cases operation with
  | replace key source requests => exact sound.replace key source requests
  | recordHit key line => exact sound.recordHit key line
  | clear => exact .clear

theorem Sound.run (sound : table.Sound) (operations : List Operation) :
    (table.run operations).Sound := by
  induction operations generalizing table with
  | nil => exact sound
  | cons operation rest ih => exact ih (sound.perform operation)

theorem Sound.id_inj (sound : table.Sound) {key other : String} {line place : Nat}
    {breakpoint another : LineBreakpoint} (found : table.get? key line = some breakpoint)
    (also : table.get? other place = some another) (same : breakpoint.id = another.id) :
    key = other ∧ line = place := by
  obtain ⟨member, here⟩ := Lines.find?_spec found
  obtain ⟨beside, there⟩ := Lines.find?_spec also
  obtain rfl : key = other := by_contra fun different =>
    sound.owned key other different breakpoint member another beside same
  obtain rfl := List.inj_on_of_nodup_map (sound.apart key) member beside same
  exact ⟨rfl, here.symm.trans there⟩

/-- After any history, a replacement reports on every request in order, and verifies just the valid
ones, each under the identifier of what is installed on its line. It leaves on each line the first
valid request for it, not hit yet, and other sources as they were. All breakpoints there are have
identifiers of their own, no more of them than requests have been valid, and what is installed later
has a greater one than all that are there now. -/
theorem replacements_reported (operations : List Operation) (key : String) (source : Source)
    (requests : List Request) :
    let table := ({} : Table).run operations
    let after := (table.replace key source requests).1
    let reports := (table.replace key source requests).2
    requests.Forall₂ (fun request report => report.source = source ∧ report.line = request.line ∧
        report.verified = request.valid ∧ report.message.isSome = !request.valid ∧
        (request.valid = true → ∃ breakpoint, after.get? key request.line = some breakpoint ∧
          report.id = some breakpoint.id)) reports ∧
      (∀ line, (after.get? key line).map (fun breakpoint => (breakpoint.action, breakpoint.hits)) =
        (firstOn? requests line).map fun request => (request.reading, 0)) ∧
      (after.lines key).Pairwise (·.line < ·.line) ∧
      (∀ other, other ≠ key → after.lines other = table.lines other) ∧
      (∀ here there line place breakpoint another, table.get? here line = some breakpoint →
        table.get? there place = some another → breakpoint.id = another.id →
          here = there ∧ line = place) ∧
      (∀ here line breakpoint, table.get? here line = some breakpoint →
        0 < breakpoint.id ∧ breakpoint.id ≤ (operations.map (·.parsed)).sum ∧
          ∀ more place newer, ((table.run more).replace key source requests).1.get? key place =
            some newer → breakpoint.id < newer.id) := by
  intro table after reports
  have sound : table.Sound := sound_new.run operations
  have covers := Draft.foldl_covers table.nextId source requests
  have lines : after.lines key = _ := lines_replace table key source requests
  have counted : table.nextId = (operations.map (·.parsed)).sum := by
    simpa using run_nextId {} operations
  have named (line : Nat) : after.get? key line = Lines.find? line (after.lines key) := rfl
  refine ⟨?_, fun line => ?_, (sound.replace key source requests).ascending key,
    fun other apart => lines_replace_of_ne table apart _ _,
    fun here there line place breakpoint another found also => sound.id_inj found also,
    fun here line breakpoint found => ?_⟩
  · refine covers.reports.imp fun request report tells => ⟨tells.source, tells.line, tells.verified,
      tells.explained, fun valid => ?_⟩
    have names := tells.names valid
    have verified : report.id.isSome = true := tells.verified.trans valid
    rw [names, Option.isSome_map, Option.isSome_iff_exists] at verified
    obtain ⟨breakpoint, found⟩ := verified
    rw [named, lines]
    exact ⟨breakpoint, found, by rw [names, found]; rfl⟩
  · rw [named, lines]
    exact covers.first line
  · obtain ⟨above, below⟩ := sound.numbered here breakpoint (Lines.find?_spec found).1
    refine ⟨above, counted ▸ below, fun more place newer installed => ?_⟩
    have later := (replace_newer (Lines.find?_spec installed).1).1
    rw [run_nextId] at later
    omega

example :
    let asks (line : Nat) (condition : String) : Request := { line, condition := some condition }
    let first := (({} : Table).replace "a" {} [asks 3 "x", asks 0 "y", asks 3 "z"]).1
    let (after, reports) := first.replace "a" {} [asks 3 "z", { line := 4, hitCondition := some "0" }]
    reports.map (·.id) = [some 3, none] ∧ (after.get? "a" 4).isNone ∧
      (first.get? "a" 3).map (·.action.condition) = some (some "x") := by decide +kernel

end Table
end DebugAdapter.Breakpoint
