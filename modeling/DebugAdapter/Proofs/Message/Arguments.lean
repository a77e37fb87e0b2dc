import DebugAdapter.Message.Arguments
import DebugAdapter.Proofs.Json.Shape

/-! The lines in the arguments of a request, which are words whatever form the arguments have. -/
namespace DebugAdapter

open Json

theorem Arguments.read?_eq_some {α : Type} {record : Record α} {request : Request} {a : α} :
    read? record request = some a ↔
      ∃ json, request.arguments = some json ∧ record.read json = .ok a := by
  unfold read?
  cases request.arguments with
  | none => simp
  | some json => cases found : record.read json <;> simp [found]

theorem Breakpoint.Request.ofJson_line {json : Json} {request : Breakpoint.Request}
    (found : Breakpoint.Request.ofJson json = .ok request) : request.line < Word.limit32 := by
  refine Record.read_keeps (P := fun request => request.line < Word.limit32) ?_ (by decide) found
  simp only [Breakpoint.Request.record, List.forall_mem_cons, List.not_mem_nil, false_imp_iff,
    implies_true, and_true]
  refine ⟨Field.keeps_required fun _ _ _ _ read => readU32_lt read, ?_, ?_, ?_, ?_⟩ <;>
    exact Field.keeps_option (fun _ holds => holds) fun _ _ _ holds _ => holds

/-- Every line in the arguments for breakpoints is a word. -/
structure Arguments.SetBreakpoints.InWords (arguments : Arguments.SetBreakpoints) : Prop where
  breakpoints : ∀ requests ∈ arguments.breakpoints, ∀ request ∈ requests,
    request.line < Word.limit32
  lines : ∀ lines ∈ arguments.lines, ∀ line ∈ lines, line < Word.limit32

theorem Arguments.setBreakpoints_inWords {json : Json} {arguments : Arguments.SetBreakpoints}
    (done : Arguments.setBreakpoints.read json = .ok arguments) : arguments.InWords := by
  refine Record.read_keeps ?_ ⟨nofun, nofun⟩ done
  simp only [Arguments.setBreakpoints, List.forall_mem_cons, List.not_mem_nil, false_imp_iff,
    implies_true, and_true]
  have breakpoints : (Field.option "breakpoints" (readList Breakpoint.Request.ofJson)
      fun (s : SetBreakpoints) v => { s with breakpoints := v }).Keeps SetBreakpoints.InWords := by
    refine Field.keeps_option (fun _ words => ⟨nofun, words.lines⟩) fun _ _ requests words read =>
      ⟨?_, words.lines⟩
    rintro _ ⟨⟩ request member
    obtain ⟨item, read⟩ := mem_readList read request member
    exact Breakpoint.Request.ofJson_line read
  have lines : (Field.option "lines" (readList readU32)
      fun (s : SetBreakpoints) v => { s with lines := v }).Keeps SetBreakpoints.InWords := by
    refine Field.keeps_option (fun _ words => ⟨words.breakpoints, nofun⟩) fun _ _ lines words read =>
      ⟨words.breakpoints, ?_⟩
    rintro _ ⟨⟩ line member
    obtain ⟨item, read⟩ := mem_readList read line member
    exact readU32_lt read
  exact ⟨Field.keeps_required fun _ _ _ words _ => ⟨words.breakpoints, words.lines⟩, breakpoints,
    lines, Field.keeps_option (fun _ words => words) fun _ _ _ words _ => words⟩

theorem Arguments.setBreakpoints_line {request : Request} {arguments : Arguments.SetBreakpoints}
    (found : Arguments.read? Arguments.setBreakpoints request = some arguments) :
    ∀ breakpoint ∈ arguments.requests, breakpoint.line < Word.limit32 := by
  obtain ⟨json, _, done⟩ := read?_eq_some.mp found
  have words := setBreakpoints_inWords done
  intro breakpoint member
  unfold SetBreakpoints.requests at member
  split at member
  · rename_i breakpoints given
    exact words.breakpoints breakpoints given breakpoint member
  · rename_i lines _ given
    obtain ⟨line, inside, rfl⟩ := List.mem_map.mp member
    exact words.lines lines given line inside
  · contradiction

end DebugAdapter
