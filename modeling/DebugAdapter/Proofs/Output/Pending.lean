import DebugAdapter.Proofs.Output.Styling

/-! How much text waits to be sent. A run that has grown long enough ends where a character starts,
so beyond the threshold only bytes are kept that continue one. -/
namespace DebugAdapter.Output

open Text

/-- The pending text goes on beyond the threshold with bytes that continue a character. -/
structure Parser.Limited (threshold : Nat) (parser : Parser) : Prop where
  limit : parser.threshold = threshold
  beyond : ∀ b ∈ parser.pending.drop threshold, Utf8.isContinuation b = true

namespace Parser

variable {parser : Parser} {threshold : Nat}

theorem limited_start (threshold : Nat) :
    (ofThreshold threshold).Limited (max threshold 1) :=
  ⟨rfl, by simp [ofThreshold]⟩

theorem Limited.empty (limited : parser.Limited threshold) (mode : Mode) (style : Style) :
    Limited threshold { parser with mode, style, pending := [] } :=
  ⟨limited.limit, by simp⟩

theorem Limited.readText (limited : parser.Limited threshold) (positive : 1 ≤ threshold)
    (coding : Encoding) (b : UInt8) : (parser.readText coding b).1.Limited threshold := by
  obtain ⟨rfl, beyond⟩ := limited
  rw [readText_eq]
  split_ifs with escapes lineEnds full
  · exact ⟨rfl, beyond⟩
  · exact ⟨rfl, by simp⟩
  · refine ⟨rfl, ?_⟩
    rw [List.drop_of_length_le positive]
    simp
  · refine ⟨rfl, ?_⟩
    -- The byte is within the threshold, or it is kept because it starts no character.
    rcases Nat.lt_or_ge parser.pending.length parser.threshold with room | reached
    · rw [List.drop_of_length_le (by rw [List.length_append]; exact room)]
      simp
    · have continuation : Utf8.isContinuation b = true := by
        simpa using fun fresh => full ⟨reached, fresh⟩
      rw [List.drop_append_of_le_length reached]
      simpa [or_imp, forall_and, continuation] using beyond

theorem Limited.step (limited : parser.Limited threshold) (positive : 1 ≤ threshold)
    (coding : Encoding) (b : UInt8) : (parser.step coding b).1.Limited threshold := by
  unfold Parser.step
  split
  · exact limited.readText positive coding b
  · split <;> exact ⟨limited.limit, limited.beyond⟩
  · simp only [readControl, selectStyle_eq]
    split_ifs <;> first | exact ⟨limited.limit, limited.beyond⟩ | exact limited.empty _ _

theorem Limited.feed (limited : parser.Limited threshold) (positive : 1 ≤ threshold)
    (coding : Encoding) (bytes : List UInt8) : (parser.feed coding bytes).1.Limited threshold := by
  induction bytes generalizing parser with
  | nil => exact limited
  | cons b rest ih => exact ih (limited.step positive coding b)

theorem pending_suffix (coding : Encoding) (threshold : Nat) (bytes : List UInt8) :
    ((ofThreshold threshold).feed coding bytes).1.pending <:+ Mode.ground.texts bytes := by
  obtain ⟨pieces, -, whole⟩ := (ofThreshold threshold).feed_pending coding bytes
  exact ⟨pieces.flatten, whole⟩

end Parser

variable {threshold : Nat}

/-- However a stream is cut, and wherever it is seen, the text that waits ends what was read, and
beyond the threshold it only has bytes that continue a character. So bytes of that kind in a row
bound it: three of them in well-formed text. Without a bound on them there is none on the text. -/
theorem pending_bounded (positive : 1 ≤ threshold) (coding : Encoding)
    (pieces : List (List UInt8)) :
    let pending (pieces : List (List UInt8)) :=
      (emitting (Parser.feed coding) (.ofThreshold threshold) pieces).1.pending
    let text := Mode.ground.texts pieces.flatten
    (∀ b ∈ (pending pieces).drop threshold, Utf8.isContinuation b = true) ∧
      pending pieces <:+ text ∧
      (∀ most, (∀ run, run <:+: text → (∀ b ∈ run, Utf8.isContinuation b = true) →
        run.length ≤ most) → (pending pieces).length ≤ threshold + most) ∧
      (∀ chars, text <+: Utf8.encode chars → (pending pieces).length ≤ threshold + 3) ∧
      ∀ n, pending [List.replicate n 0x80] = List.replicate n 0x80 := by
  intro pending text
  have fed : pending pieces =
      ((Parser.ofThreshold threshold).feed coding pieces.flatten).1.pending :=
    congrArg (·.1.pending) (Parser.feed_pieces coding _ pieces)
  have limited := Parser.limited_start threshold
  rw [Nat.max_eq_left positive] at limited
  have beyond := (limited.feed positive coding pieces.flatten).beyond
  have suffix := Parser.pending_suffix coding threshold pieces.flatten
  rw [← fed] at beyond suffix
  have bounded (most : Nat) (short : ∀ run, run <:+: text →
      (∀ b ∈ run, Utf8.isContinuation b = true) → run.length ≤ most) :
      (pending pieces).length ≤ threshold + most := by
    have within := short _ ((List.drop_suffix threshold _).trans suffix).isInfix beyond
    rw [List.length_drop] at within
    omega
  refine ⟨beyond, suffix, bounded, ?_, ?_⟩
  · intro chars encoded
    refine bounded 3 ?_
    rintro run ⟨front, back, inside⟩ continues
    obtain ⟨rest, whole⟩ := encoded
    have split : Utf8.encode chars = front ++ (run ++ (back ++ rest)) := by
      rw [← whole, ← inside, List.append_assoc, List.append_assoc]
    exact Utf8.encode_continued split continues
  · intro n
    have continues : ∀ b ∈ List.replicate n (0x80 : UInt8), Utf8.isContinuation b = true := by
      intro b occurs
      rw [List.eq_of_mem_replicate occurs]
      decide
    have kept := @feed_continuation coding (.ofThreshold threshold) _ rfl continues
    simp only [pending, emitting, kept]
    rfl

theorem pending_bounded_tight :
    1 ≤ 1 ∧ Mode.ground.texts [0x61, 0xF0, 0x9F, 0x98, 0x80] <+: Utf8.encode ['a', '😀'] ∧
      let pending := (emitting (Parser.feed .utf8) (.ofThreshold 1)
        [[0x61, 0xF0], [0x9F, 0x98], [0x80]]).1.pending
      pending = [0xF0, 0x9F, 0x98, 0x80] ∧ pending.length ≤ 1 + 3 := by
  have whole : Mode.ground.texts [0x61, 0xF0, 0x9F, 0x98, 0x80] <+: Utf8.encode ['a', '😀'] := by
    decide +kernel
  exact ⟨Nat.le_refl 1, whole, by decide +kernel, (pending_bounded (Nat.le_refl 1) .utf8
    [[0x61, 0xF0], [0x9F, 0x98], [0x80]]).2.2.2.1 ['a', '😀'] whole⟩

/-- In neither coding do a run of the threshold and the rest of one character bound the text that
waits. -/
theorem pending_exceeds : ¬∃ coding, ∀ (threshold : Nat) (pieces : List (List UInt8)),
    1 ≤ threshold → (emitting (Parser.feed coding) (.ofThreshold threshold) pieces).1.pending.length
      ≤ threshold + 3 := by
  rintro ⟨coding, bounded⟩
  have five := bounded 1 [[0x80, 0x80, 0x80, 0x80, 0x80]] (Nat.le_refl 1)
  cases coding with
  | utf8 => exact absurd five (by decide)
  | ansi => exact absurd five (by decide)

end DebugAdapter.Output
