import DebugAdapter.Proofs.Session.Coherence

/-! The calls of the program advance by moves of its threads: from where a call begins to where it
returns, stops or waits. -/
namespace DebugAdapter.Session

/-- The session with further calls that are about to go on; they count as waiting. -/
def holding (session : Session) (calls : List Call) : Session :=
  { session with blocked := session.blocked ++ calls }

variable {session : Session} {call : Call} {rest : List Call}

theorem holding_nil (session : Session) : session.holding [] = session := by
  simp only [holding, List.append_nil]

theorem block_holding (session : Session) (call : Call) (rest : List Call) :
    (session.block call).holding rest = session.holding (call :: rest) := by
  simp only [holding, block, List.append_assoc, List.singleton_append]

theorem mem_holding (session : Session) (call : Call) (rest : List Call) :
    call ∈ (session.holding (call :: rest)).blocked := by
  simp [holding]

theorem leave_advances (free : session.Free call)
    (line : ∃ line source, call.errand = .line line source) :
    Advances (session.holding (call :: rest)) ((session.leave call).holding rest) := by
  have left : Advance (session.holding (call :: rest)) (session.holding rest) :=
    .leave call session.blocked rest rfl free line
  have finished : Advance (session.holding rest) ((session.holding rest).finish call.handle none) :=
    .aside (.finish call.handle none)
  obtain ⟨line, source, errand⟩ := line
  simp only [leave, errand]
  exact (Relation.ReflTransGen.single left).tail finished

theorem checkCondition_advances (free : session.Free call) (rest : List Call) (interpreter : Interpreter)
    (condition : Option String) :
    Advances (session.holding (call :: rest))
        ((session.checkCondition interpreter condition).1.holding (call :: rest)) ∧
      (session.checkCondition interpreter condition).1.Free call := by
  cases condition with
  | none => exact ⟨.refl, free⟩
  | some expression =>
    have asked : Advance (session.holding (call :: rest))
        ((session.note [.evaluate expression (some 0)]).holding (call :: rest)) :=
      .aside (.note [.evaluate expression (some 0)])
    simp only [checkCondition]
    split
    · exact ⟨.single asked, free⟩
    · exact ⟨(Relation.ReflTransGen.single asked).tail
        (.say call _ (mem_holding _ call rest) free), free⟩

theorem log_advances (free : session.Free call) (rest : List Call)
    (interpreter : Interpreter) (source : Source)
    (line : Nat) (fragments : List Breakpoint.Fragment) :
    Advances (session.holding (call :: rest))
      ((session.log interpreter source line fragments).holding (call :: rest)) := by
  have asked : Advance (session.holding (call :: rest))
      ((session.note (logText interpreter fragments).2).holding (call :: rest)) :=
    .aside (.note (logText interpreter fragments).2)
  exact (Relation.ReflTransGen.single asked).tail (.say call _ (mem_holding _ call rest) free)

theorem beginStop_advances {reason : Execution.StopReason} {exception : Option ExceptionRecord}
    (begun : session.debugger.control.state ≠ .initializing)
    (live : session.debugger.control.state ≠ .terminated)
    (purpose : call.StopsFor reason exception) :
    Advances (session.holding (call :: rest))
      ((session.beginStop call reason exception).holding rest) := by
  unfold beginStop
  split
  · rw [block_holding]
  · rename_i ends
    exact absurd (Execution.Control.beginStop_eq_false.mp ends).1 live
  · rename_i control enters
    obtain ⟨_, unheld, rfl⟩ := Execution.Control.beginStop_eq_true.mp enters
    have free : session.Free call := Execution.Control.waitUntilRunnable_eq_true.mpr
      ⟨live, by simp [Execution.Control.blocks, begun, unheld]⟩
    exact .single (.stop call session.blocked rest reason exception _ rfl free (.own reason) purpose)

/-- Once its breakpoint is hit, a call leaves, logs or stops. -/
theorem hit_advances {line : Nat} {source : Source.Resolved}
    {breakpoint : Breakpoint.LineBreakpoint} {hits : Nat} (free : session.Free call)
    (errand : call.errand = .line line source) :
    Advances (session.holding (call :: rest))
      ((if breakpoint.action.hitCondition.any (!·.isMet hits) then session.leave call
        else
          match breakpoint.action.logMessage with
          | some fragments =>
            (session.log call.interpreter source.source line fragments).leave call
          | none => session.beginStop call .breakpoint none).holding rest) := by
  have onLine : ∃ line source, call.errand = .line line source := ⟨line, source, errand⟩
  split
  · exact leave_advances free onLine
  · split
    · rename_i fragments _
      have logged := log_advances free rest call.interpreter source.source line fragments
      exact logged.trans (leave_advances free onLine)
    · obtain ⟨live, begun⟩ := Free.state free
      refine beginStop_advances begun live ?_
      simp [Call.StopsFor, errand]

theorem visit_advances {line : Nat} {source : Source.Resolved} (free : session.Free call)
    (errand : call.errand = .line line source) :
    Advances (session.holding (call :: rest)) ((session.visit call line source).holding rest) := by
  have onLine : ∃ line source, call.errand = .line line source := ⟨line, source, errand⟩
  unfold visit
  split
  · exact leave_advances free onLine
  · rename_i breakpoint found
    have questions := checkCondition_advances free rest call.interpreter breakpoint.action.condition
    generalize session.checkCondition call.interpreter breakpoint.action.condition = checked
      at questions ⊢
    obtain ⟨asked, holds⟩ := checked
    obtain ⟨questions, free⟩ := questions
    dsimp only
    split
    · exact questions.trans (leave_advances free onLine)
    · have counted : Advance (asked.holding (call :: rest))
          ((asked.modifyDebugger fun debugger => { debugger with
            breakpoints := (asked.debugger.breakpoints.recordHit source.key line).1 }).holding
              (call :: rest)) :=
        .hit call source.key line (mem_holding _ call rest) free
      exact (questions.tail counted).trans (hit_advances free errand)

/-- A call goes on, stops or waits again. -/
theorem proceed_advances (valid : session.debugger.control.Valid)
    (begun : session.debugger.control.state ≠ .initializing)
    (live : session.debugger.control.state ≠ .terminated) :
    Advances (session.holding (call :: rest)) ((session.proceed call).holding rest) := by
  unfold proceed
  split
  · rename_i record errand
    exact beginStop_advances begun live (by simp [Call.StopsFor, errand])
  · rename_i line source errand
    have onLine : ∃ line source, call.errand = .line line source := ⟨line, source, errand⟩
    dsimp only
    split
    · rw [block_holding]
    · rename_i control gate passed
      rcases Execution.Control.lineGate_spec passed with ⟨ends, _, _⟩ | ⟨free, answers⟩
      · exact absurd ends live
      · cases gate with
        | stop reason =>
          obtain ⟨enters, cause⟩ := answers
          have purpose : call.StopsFor reason none := by
            simp only [Call.StopsFor, errand, and_true]
            rcases cause with pending | rfl
            · rcases valid.asked reason pending with rfl | rfl <;> decide
            · decide
          exact .single (.stop call session.blocked rest reason none control rfl free enters purpose)
        | breakpoints =>
          cases answers
          exact visit_advances free errand
        | suppressed =>
          cases answers
          exact leave_advances free onLine
        | terminated => exact answers.elim

end DebugAdapter.Session
