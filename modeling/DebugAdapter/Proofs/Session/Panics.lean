import DebugAdapter.Proofs.Session.Refusal

/-! What follows a panic. The thread that has stopped answers requests until it is let go, and then
the session is over. -/
namespace DebugAdapter.Session

variable {session next : Session} {call : Call} {record : ExceptionRecord}

/-- The thread of a call is stopped, or the session is over. -/
def EndsWith (session : Session) (call : Call) : Prop :=
  session.stopped.map (·.call) = some call ∨ session.debugger.control.state = .terminated

theorem release_ends {stop : Stop} (errand : stop.call.errand = .exception record)
    (fatal : record.fatal = true) :
    (session.release stop).debugger.control.state = .terminated := by
  rw [release_eq]
  simp only [returned, errand, fatal, if_true]
  exact (shutdown_ended _).state

theorem resume_ends {stop : Stop} (errand : stop.call.errand = .exception record)
    (fatal : record.fatal = true) (how : Resume) :
    (session.resume stop how).debugger.control.state = .terminated := by
  unfold resume
  dsimp only
  split <;> exact release_ends errand fatal

/-- A thread that has stopped at a panic answers requests until it is let go, and then the session is
over. -/
theorem serveNext_endsWith (coherent : session.Coherent)
    (errand : call.errand = .exception record) (fatal : record.fatal = true)
    (within : session.EndsWith call) : session.serveNext.EndsWith call := by
  rcases within with stopped | ends
  · unfold serveNext
    split
    · rename_i stop deferred rest held _
      obtain rfl : stop.call = call := by simpa [held] using stopped
      dsimp only
      generalize (Debugger.inspect _ stop deferred).outcome = outcome
      cases outcome with
      | error failure => exact .inl stopped
      | ok reply =>
        simp only [Session.reply]
        split
        · exact .inr (resume_ends errand fatal _)
        · exact .inl rfl
    · exact .inl stopped
  · exact .inr ((serveNext_acts coherent).ended coherent ends)

theorem rounds_endsWith (requests : List Deferred) (coherent : session.Coherent)
    (errand : call.errand = .exception record) (fatal : record.fatal = true)
    (within : session.EndsWith call) :
    (requests.foldl (fun session _ => session.serveNext) session).EndsWith call := by
  induction requests generalizing session with
  | nil => exact within
  | cons request rest ih =>
    exact ih ((serveNext_acts coherent).coherent coherent)
      (serveNext_endsWith coherent errand fatal within)

theorem settle_endsWith (coherent : session.Coherent) (drained : session.debugger.queue = [])
    (within : session.EndsWith call) : session.settle.EndsWith call := by
  by_cases ends : session.debugger.control.state = .terminated
  · exact .inr ((settle_over drained coherent ends).1.ended coherent ends)
  · have running : ¬session.isTerminated = true := (isTerminated_iff coherent).not.mpr ends
    have stopped := within.resolve_right ends
    have held : session.debugger.control.stopper.isSome := by
      obtain ⟨stop, held, _⟩ := Option.map_eq_some_iff.mp stopped
      simp [coherent.holder ends, held]
    rw [settle_held running (.inl held)]
    exact within

theorem serve_endsWith (coherent : session.Coherent) (errand : call.errand = .exception record)
    (fatal : record.fatal = true) (within : session.EndsWith call) :
    session.serve.settle.EndsWith call := by
  obtain ⟨served, drained⟩ := serve_acts coherent
  exact settle_endsWith (served.coherent coherent) drained
    (rounds_endsWith session.debugger.queue coherent errand fatal within)

theorem handleAll_calls (session : Session) (requests : List Request) :
    (session.handleAll requests).1.stopped = session.stopped := by
  induction requests generalizing session with
  | nil => rfl
  | cons request rest ih => exact (ih _).trans (handle_calls session request).1

theorem batch_endsWith (coherent : session.Coherent) (errand : call.errand = .exception record)
    (fatal : record.fatal = true) (stopped : session.stopped.map (·.call) = some call)
    (requests : List Request) : (session.batch requests).1.EndsWith call := by
  rcases batch_gathers session requests with ⟨_, same⟩ | ⟨middle, gathers, same⟩
  · rw [same]
    exact .inl stopped
  · rw [same]
    refine serve_endsWith (gathers.coherent coherent) errand fatal (.inl ?_)
    cases gathers with
    | turns => rwa [handleAll_calls]
    | busy first rest asked outcome =>
      change ((session.note asked).handleAll rest).1.stopped.map _ = _
      rwa [handleAll_calls]

/-- While a thread is stopped, no other one stops. -/
theorem Advance.stays (advance : Advance session next) (coherent : session.Coherent)
    (stopped : session.stopped.map (·.call) = some call) :
    next.stopped.map (·.call) = some call := by
  cases advance with
  | aside aside => cases aside <;> exact stopped
  | stop other before after _ _ _ waits free =>
    have alone := (coherent.alone (by simp [waits]) free).1
    simp [alone] at stopped
  | _ => exact stopped

theorem Advances.stays (advances : Advances session next) (coherent : session.Coherent)
    (stopped : session.stopped.map (·.call) = some call) :
    next.stopped.map (·.call) = some call := by
  induction advances with
  | refl => exact stopped
  | tail advances last ih => exact last.stays (Advances.coherent advances coherent) ih

/-- Nobody asks the stopped thread to run on. -/
theorem Act.endsWith (act : Act session none next) (drained : session.debugger.queue = [])
    (stopped : session.stopped.map (·.call) = some call) : next.EndsWith call := by
  cases act with
  | aside aside => cases aside <;> exact .inl stopped
  | decline _ _ _ waiting | reply _ _ _ _ _ waiting | resume _ _ _ _ _ _ waiting =>
    simp [drained] at waiting
  | detach handle announce =>
    left
    unfold Session.detach
    split <;> exact stopped
  | reconfigure change =>
    left
    unfold Session.configure
    split <;> exact stopped
  | capture | dismiss => exact .inl stopped
  | shutdown => exact .inr (shutdown_ended session).state
  | release _ ends => exact .inr ends

theorem Acts.endsWith (acts : Acts session [] next) (settled : session.Settled)
    (stopped : session.stopped.map (·.call) = some call) : next.EndsWith call := by
  refine acts.unasked (P := (·.EndsWith call)) (.inl stopped) fun prior act within => ?_
  rcases within with stays | ends
  · exact act.endsWith (prior.drained settled.drained) stays
  · exact .inr ((Acts.still act).ended (prior.coherent settled.coherent) ends)

/-- Without a request the stopped thread stays so until the session is over. -/
theorem Moves.endsWith (moves : Moves session next []) (settled : session.Settled)
    (stopped : session.stopped.map (·.call) = some call) : next.EndsWith call := by
  obtain ⟨taken, middle, acts, middleSettled, advances, untaken, alone⟩ := moves
  obtain rfl := untaken.eq_nil
  have live : session.debugger.control.state ≠ .terminated := fun ends => by
    simp [(settled.ends ends).1] at stopped
  rcases acts.endsWith settled stopped with stays | ends
  · exact .inl (advances.stays middleSettled.coherent stays)
  · rw [alone live ends]
    exact .inr ends

theorem perform_endsWith (settled : session.Settled) (step : Step)
    (errand : call.errand = .exception record) (fatal : record.fatal = true)
    (within : session.EndsWith call) : (session.perform step).1.EndsWith call := by
  have coherent := settled.coherent
  have moves := perform_moves settled step
  rcases within with stopped | ends
  · cases step with
    | request request =>
      have handled : (session.handle request).1.EndsWith call :=
        .inl ((handle_calls session request).1 ▸ stopped)
      exact serve_endsWith ((handle_acts coherent request).coherent coherent) errand fatal handled
    | batch requests => exact batch_endsWith coherent errand fatal stopped requests
    | _ => exact Moves.endsWith moves settled stopped
  · exact .inr (perform_ended settled step ends)

theorem run_endsWith (settled : session.Settled) (errand : call.errand = .exception record)
    (fatal : record.fatal = true) (more : List Step) (within : session.EndsWith call) :
    (session.run more).EndsWith call := by
  induction more generalizing session with
  | nil => exact within
  | cons step more ih =>
    exact ih (perform_settled settled step) (perform_endsWith settled step errand fatal within)

end DebugAdapter.Session
