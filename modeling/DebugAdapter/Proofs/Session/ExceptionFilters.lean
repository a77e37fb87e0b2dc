import DebugAdapter.Proofs.Session.History

/-! The exception filters in force are those that the client has chosen last, and those of the
settings as long as it has chosen none. -/
namespace DebugAdapter

namespace Session

def chooses? (session : Session) (request : Request) : Option (List String) :=
  if session.succeeds .setExceptionBreakpoints request then
    Arguments.read? Arguments.filters request
  else none

end Session

def Happening.chooses? : Happening → Option (List String)
  | .request here asked => here.chooses? asked
  | .call .. => none

/-- The exception filters that the client has chosen last. -/
def chosenFilters (history : List Happening) : Option (List String) :=
  (history.filterMap Happening.chooses?).getLast?

theorem chosenFilters_concat (history : List Happening) (last : Happening) :
    chosenFilters (history ++ [last]) = last.chooses?.or (chosenFilters history) := by
  rw [chosenFilters, List.filterMap_append, List.getLast?_append]
  cases chose : last.chooses? with
  | none => rw [List.filterMap_cons_none chose]; rfl
  | some filters => rw [List.filterMap_cons_some chose]; rfl

namespace Debugger

/-- The filters are those that the client has chosen, and otherwise those of the settings. -/
structure Heeds (debugger : Debugger) (chosen : Option (List String)) : Prop where
  client : debugger.clientFilters = chosen.isSome
  filters : debugger.exceptionFilters = chosen.getD debugger.config.settings.exceptionFilters

variable {debugger next : Debugger} {chosen : Option (List String)} {request : Request}
  {change : Change}

theorem heeds_new : ({} : Debugger).Heeds none :=
  ⟨rfl, rfl⟩

theorem Heeds.frame (heeds : debugger.Heeds chosen)
    (client : next.clientFilters = debugger.clientFilters)
    (filters : next.exceptionFilters = debugger.exceptionFilters)
    (config : next.config = debugger.config) : next.Heeds chosen :=
  ⟨client.trans heeds.client, by rw [filters, config]; exact heeds.filters⟩

/-- New settings bring their filters along, unless the client has chosen some. -/
theorem Heeds.reconfigure (heeds : debugger.Heeds chosen) (config : Config.Store) :
    (debugger.reconfigure config).1.Heeds chosen := by
  refine ⟨heeds.client, ?_⟩
  simp only [Debugger.reconfigure, heeds.client]
  cases chosen with
  | none => rfl
  | some filters => exact heeds.filters

theorem Heeds.start (heeds : debugger.Heeds chosen) (started : debugger.start request = .ok change) :
    change.debugger.Heeds chosen := by
  obtain ⟨_, config, _, _, _, _, _, _, rfl⟩ := start_spec started
  exact (heeds.reconfigure config).frame rfl rfl rfl

theorem setExceptionBreakpoints_spec (sets : debugger.setExceptionBreakpoints request = .ok change) :
    ∃ filters, Arguments.read? Arguments.filters request = some filters ∧
      change.debugger.Heeds (some filters) := by
  simp only [setExceptionBreakpoints] at sets
  split at sets
  · contradiction
  · rename_i filters read
    split at sets
    · contradiction
    · cases sets
      exact ⟨filters, read, rfl, rfl⟩

theorem Heeds.carryOut (heeds : debugger.Heeds chosen) {command : ControlCommand}
    (carried : debugger.carryOut command request = .ok change)
    (other : command ≠ .setExceptionBreakpoints) : change.debugger.Heeds chosen := by
  cases command with
  | setExceptionBreakpoints => contradiction
  | launch | attach => exact heeds.start carried
  | handshake | setBreakpoints | pause =>
    simp only [Debugger.carryOut, handshake, setBreakpoints, pause] at carried
    repeat' split at carried
    all_goals
      first
      | contradiction
      | cases carried
        exact heeds.frame rfl rfl rfl
  | configurationDone =>
    obtain ⟨_, rfl⟩ := configurationDone_spec carried
    exact heeds.frame rfl rfl rfl
  | terminate | disconnect =>
    cases carried
    obtain ⟨_, _, _, ⟨_, _, torn⟩ | ⟨_, torn⟩⟩ := teardown_spec debugger
    all_goals
      simp only [finishSession, torn]
      exact heeds.frame rfl rfl rfl

end Debugger

namespace Session

variable {session next : Session} {call : Call} {chosen : Option (List String)}

theorem handle_heeds (heeds : session.debugger.Heeds chosen) (request : Request) :
    (session.handle request).1.debugger.Heeds ((session.chooses? request).or chosen) := by
  rcases handle_spec session request with ⟨command, change, succeeded, carried, same⟩ |
    ⟨failed, control, queue, same⟩
  · obtain ⟨control, released, _⟩ := Debugger.releaseIfReady_spec change.debugger
    rw [same, released]
    by_cases sets : command = .setExceptionBreakpoints
    · subst sets
      obtain ⟨filters, read, chose⟩ := Debugger.setExceptionBreakpoints_spec carried
      simp only [chooses?, succeeded, if_true, read, Option.some_or]
      exact chose.frame rfl rfl rfl
    · have unset := succeeds_other succeeded sets
      simp only [chooses?, unset, Bool.false_eq_true, if_false, Option.none_or]
      exact (heeds.carryOut carried sets).frame rfl rfl rfl
  · simp only [chooses?, failed, Bool.false_eq_true, if_false, Option.none_or, same]
    exact heeds.frame rfl rfl rfl

theorem Goes.heeds (goes : Goes session call next) (heeds : session.debugger.Heeds chosen) :
    next.debugger.Heeds chosen := by
  cases goes with
  | waits => exact heeds
  | returns looked =>
    obtain ⟨_, _, _, rfl⟩ := looked
    exact heeds.frame rfl rfl rfl
  | stops reason exception control looked =>
    obtain ⟨_, _, _, rfl⟩ := looked
    exact heeds.frame rfl rfl rfl

theorem unfolds_heed {history : List Happening} (unfolds : Unfolds session history next)
    (heeds : session.debugger.Heeds none) : next.debugger.Heeds (chosenFilters history) := by
  induction unfolds with
  | refl => exact heeds
  | still _ still ih =>
    rcases still.debugger with ⟨_, _, _, _, _, _, same⟩ | ⟨config, same⟩
    · rw [same]
      exact ih.frame rfl rfl rfl
    · rw [same]
      exact ih.reconfigure config
  | @request history middle request _ ih =>
    rw [chosenFilters_concat]
    exact handle_heeds ih request
  | @call history middle call _ begun live ih =>
    have goes : Goes middle call (middle.proceed call) := proceed_goes begun live
    rw [chosenFilters_concat]
    exact goes.heeds ih

end Session
end DebugAdapter
