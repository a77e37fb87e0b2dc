import DebugAdapter.Proofs.Output.Escape

/-! Escape sequences that select no style. Most leave no trace. One with intermediate bytes is taken
to be over at the first of them, so that the rest of it is text, and a private one is read as if its
markers were not there. -/
namespace DebugAdapter.Output

def introducers : List UInt8 := [0x5B, 0x50, 0x58, 0x5D, 0x5E, 0x5F]

/-- A complete escape sequence: a single byte after the escape byte, or one that comes after
intermediate bytes, or the parts of a control sequence. -/
inductive Escape where
  | short (final : UInt8) (bounds : 0x30 ≤ final ∧ final ≤ 0x7E) (alone : final ∉ introducers)
  | long (first : UInt8) (more : List UInt8) (final : UInt8)
      (between : ∀ b ∈ first :: more, 0x20 ≤ b ∧ b ≤ 0x2F) (bounds : 0x30 ≤ final ∧ final ≤ 0x7E)
  | control (parameters intermediates : List UInt8) (final : UInt8)
      (given : ∀ b ∈ parameters, 0x30 ≤ b ∧ b ≤ 0x3F)
      (between : ∀ b ∈ intermediates, 0x20 ≤ b ∧ b ≤ 0x2F) (bounds : 0x40 ≤ final ∧ final ≤ 0x7E)

namespace Escape

def bytes : Escape → List UInt8
  | .short final .. => [0x1B, final]
  | .long first more final .. => 0x1B :: first :: more ++ [final]
  | .control parameters intermediates final .. =>
    [0x1B, 0x5B] ++ parameters ++ intermediates ++ [final]

/-- No selection of a style: either no control sequence that ends in the letter m, or a private one,
with a marker among its parameters. -/
def Foreign : Escape → Prop
  | .control parameters _ final .. => final ≠ 0x6D ∨ ∃ b ∈ parameters, 0x3C ≤ b
  | _ => True

/-- Ends where the parser takes it to end, and in a byte that has no effect. -/
def Dropped : Escape → Prop
  | .short .. => True
  | .long .. => False
  | .control _ _ final .. => final ≠ 0x6D

def counts (b : UInt8) : Bool :=
  (0x30 ≤ b && b ≤ 0x39) || b = 0x3B

/-- The bytes that count: text after the first intermediate byte, and of a control sequence that
ends in the letter m what is left without its markers. -/
def residue : Escape → List UInt8
  | .short .. => []
  | .long _ more final .. => more ++ [final]
  | .control parameters _ final .. =>
    if final = 0x6D then [0x1B, 0x5B] ++ parameters.filter counts ++ [0x6D] else []

end Escape

namespace Parser

variable {coding : Text.Encoding} {parser : Parser} {params : List Nat} {current : Option Nat}
variable {b : UInt8} {bytes : List UInt8}

theorem step_inner (inner : b < 0x40) :
    ({ parser with mode := .control params current } : Parser).step coding b =
        ({ parser with mode := Mode.next (.control params current) b }, []) ∧
      (∃ before last, Mode.next (.control params current) b = .control before last) ∧
      (Escape.counts b = false →
        Mode.next (.control params current) b = .control params current) := by
  have early : ¬(0x40 ≤ b ∧ b ≤ 0x7E) := fun final => absurd inner (UInt8.not_lt.mpr final.1)
  simp only [step, readControl, Mode.next, if_neg early, Escape.counts, Bool.or_eq_false_iff,
    Bool.and_eq_false_iff, decide_eq_false_iff_not]
  split_ifs with digit separator
  · exact ⟨rfl, ⟨_, _, rfl⟩, fun uncounted => absurd digit (not_and_or.mpr uncounted.1)⟩
  · exact ⟨rfl, ⟨_, _, rfl⟩, fun uncounted => absurd separator uncounted.2⟩
  · exact ⟨rfl, ⟨_, _, rfl⟩, fun _ => rfl⟩

theorem feed_inner (inner : ∀ b ∈ bytes, b < 0x40) :
    ∃ before last,
      ({ parser with mode := .control params current } : Parser).feed coding bytes =
        ({ parser with mode := .control before last }, []) ∧
      ({ parser with mode := .control params current } : Parser).feed coding
        (bytes.filter Escape.counts) = ({ parser with mode := .control before last }, []) := by
  induction bytes generalizing params current with
  | nil => exact ⟨params, current, rfl, rfl⟩
  | cons b rest ih =>
    obtain ⟨first, later⟩ := List.forall_mem_cons.mp inner
    obtain ⟨stepped, ⟨before, last, known⟩, passed⟩ :=
      @step_inner coding parser params current b first
    rw [known] at stepped passed
    obtain ⟨before', last', whole, filtered⟩ := @ih before last later
    refine ⟨before', last', ?_, ?_⟩
    · simp only [feed, stepped, whole, List.append_nil]
    · cases counted : Escape.counts b with
      | true =>
        simp only [List.filter_cons_of_pos counted, feed, stepped, filtered, List.append_nil]
      | false => rw [List.filter_cons_of_neg (by simp [counted]), ← passed counted, filtered]

theorem feed_escaped (ground : parser.mode = .ground) (other : b ≠ 0x5B) :
    parser.feed coding (0x1B :: b :: bytes) = parser.feed coding bytes := by
  obtain ⟨mode, style, pending, threshold⟩ := parser
  obtain rfl : mode = .ground := ground
  have escapes : (0x1B : UInt8) = escapeByte := rfl
  simp only [feed, step, readText_eq, if_pos escapes, if_neg other, List.nil_append]

theorem feed_control (ground : parser.mode = .ground) :
    parser.feed coding ([0x1B, 0x5B] ++ bytes) =
      ({ parser with mode := .control [] none } : Parser).feed coding bytes := by
  obtain ⟨mode, style, pending, threshold⟩ := parser
  obtain rfl : mode = .ground := ground
  rfl

theorem step_final (bounds : 0x40 ≤ b ∧ b ≤ 0x7E) (other : b ≠ 0x6D) :
    ({ parser with mode := .control params current } : Parser).step coding b =
      ({ parser with mode := .ground }, []) := by
  have undigit : ¬(0x30 ≤ b ∧ b ≤ 0x39) := fun inside =>
    absurd (UInt8.le_trans bounds.1 inside.2) (by decide)
  have unseparated : b ≠ 0x3B := fun same => absurd (same ▸ bounds.1) (by decide)
  simp only [step, readControl, if_neg undigit, if_neg unseparated, if_pos bounds, if_neg other]

end Parser

namespace Escape

variable {coding : Text.Encoding} {parser : Parser}

theorem filter_between {intermediates : List UInt8}
    (between : ∀ b ∈ intermediates, 0x20 ≤ b ∧ b ≤ 0x2F) : intermediates.filter counts = [] := by
  rw [List.filter_eq_nil_iff]
  intro b occurs counted
  have range := between b occurs
  simp only [counts, Bool.or_eq_true, Bool.and_eq_true, decide_eq_true_eq, UInt8.le_iff_toNat_le,
    ← UInt8.toNat_inj] at counted range
  simp at counted range
  omega

/-- What the parser makes of a sequence is what it makes of the bytes that count. -/
theorem feed_bytes (escape : Escape) (ground : parser.mode = .ground) :
    parser.feed coding escape.bytes = parser.feed coding escape.residue := by
  cases escape with
  | short final bounds alone =>
    exact Parser.feed_escaped ground fun same => alone (same ▸ List.mem_cons_self)
  | long first more final between bounds =>
    have range := between first List.mem_cons_self
    exact Parser.feed_escaped ground fun same => absurd (same ▸ range.2) (by decide)
  | control parameters intermediates final given between bounds =>
    have inner : ∀ b ∈ parameters ++ intermediates, b < 0x40 := by
      intro b occurs
      rcases List.mem_append.mp occurs with parameter | intermediate
      · exact UInt8.lt_of_le_of_lt (given b parameter).2 (by decide)
      · exact UInt8.lt_of_le_of_lt (between b intermediate).2 (by decide)
    obtain ⟨before, last, whole, filtered⟩ :=
      @Parser.feed_inner coding parser [] none _ inner
    rw [List.filter_append, filter_between between, List.append_nil] at filtered
    simp only [bytes, residue]
    rw [List.append_assoc, List.append_assoc, Parser.feed_control ground, ← List.append_assoc,
      Parser.feed_append, whole]
    split
    · rename_i selects
      rw [List.append_assoc, Parser.feed_control ground, Parser.feed_append, filtered, selects]
    · rename_i other
      simp only [Parser.feed, Parser.step_final bounds other, List.append_nil, ← ground]

theorem feed_text_ne {b : UInt8} {bytes : List UInt8} (ground : parser.mode = .ground)
    (text : b ≠ Parser.escapeByte) : parser.feed coding (b :: bytes) ≠ (parser, []) := by
  intro same
  obtain ⟨pieces, runs, whole⟩ := parser.feed_pending coding (b :: bytes)
  rw [same] at runs whole
  obtain rfl : pieces = [] := List.map_eq_nil_iff.mp runs.symm
  simp [ground, Mode.texts, Mode.text, Mode.reads, text] at whole

theorem residue_long {first final : UInt8} {more : List UInt8}
    (between : ∀ b ∈ first :: more, 0x20 ≤ b ∧ b ≤ 0x2F) (bounds : 0x30 ≤ final ∧ final ≤ 0x7E) :
    ∃ b rest, more ++ [final] = b :: rest ∧ b ≠ Parser.escapeByte := by
  cases more with
  | nil => exact ⟨final, [], rfl, fun same => absurd (same ▸ bounds.1) (by decide)⟩
  | cons b more =>
    have range := between b (by simp)
    exact ⟨b, more ++ [final], rfl, fun same => absurd (same ▸ range.1) (by decide)⟩

/-- Wherever text may come next, a sequence is read as those of its bytes that count. Without
intermediate bytes after the escape byte it leaves no trace, unless it ends in the letter m; with
them it always leaves one. -/
theorem sequences_read (escape : Escape) (coding : Text.Encoding) (threshold : Nat)
    (front back : List UInt8)
    (ground : ((Parser.ofThreshold threshold).feed coding front).1.mode = .ground) :
    let fed := (Parser.ofThreshold threshold).feed coding
    (escape.Dropped → fed (front ++ escape.bytes ++ back) = fed (front ++ back)) ∧
      fed (front ++ escape.bytes ++ back) = fed (front ++ escape.residue ++ back) ∧
      ∀ first more final between bounds, escape = .long first more final between bounds →
        fed (front ++ escape.bytes) ≠ fed front := by
  intro fed
  have counted (rest : List UInt8) :
      fed (front ++ escape.bytes ++ rest) = fed (front ++ escape.residue ++ rest) := by
    simp only [fed, Parser.feed_append, escape.feed_bytes ground]
  refine ⟨?_, counted back, ?_⟩
  · intro dropped
    have nothing : escape.residue = [] := by
      cases escape with
      | short => rfl
      | long => contradiction
      | control parameters intermediates final => exact if_neg dropped
    rw [counted, nothing, List.append_nil]
  · rintro first more final between bounds rfl same
    obtain ⟨b, rest, shape, text⟩ := residue_long between bounds
    have begun := counted []
    simp only [List.append_nil, same, residue, shape, fed, Parser.feed_append] at begun
    refine @feed_text_ne coding _ b rest ground text (Prod.ext ?_ ?_)
    · exact (congrArg Prod.fst begun).symm
    · exact List.append_cancel_left ((congrArg Prod.snd begun).symm.trans (List.append_nil _).symm)

theorem cursor_unseen :
    ∃ cursor : Escape, cursor.bytes = [0x1B, 0x5B, 0x3F, 0x32, 0x35, 0x6C] ∧
      let fed := (Parser.ofThreshold 1).feed .utf8
      (fed [0x61, 0xC3]).1.mode = .ground ∧ cursor.Dropped ∧
        fed ([0x61, 0xC3] ++ cursor.bytes ++ [0xA9, 0x0A]) = fed [0x61, 0xC3, 0xA9, 0x0A] ∧
        (fed [0x61, 0xC3, 0xA9, 0x0A]).2 = [⟨"a", {}⟩, ⟨"é\n", {}⟩] := by
  let cursor : Escape := .control [0x3F, 0x32, 0x35] [] 0x6C (by simp) (by simp) (by decide)
  have ground : ((Parser.ofThreshold 1).feed .utf8 [0x61, 0xC3]).1.mode = .ground := by
    decide +kernel
  have dropped : cursor.Dropped := show (0x6C : UInt8) ≠ 0x6D by decide
  have unseen := (sequences_read cursor .utf8 1 [0x61, 0xC3] [0xA9, 0x0A] ground).1 dropped
  exact ⟨cursor, rfl, ground, dropped, unseen, by decide +kernel⟩

def Transparent (escape : Escape) : Prop :=
  ∀ (coding : Text.Encoding) (threshold : Nat) (front back : List UInt8),
    let fed := (Parser.ofThreshold threshold).feed coding
    (fed front).1.mode = .ground →
      (fed (front ++ escape.bytes ++ back)).2 = (fed (front ++ back)).2 ∧
        (fed (front ++ escape.bytes ++ back)).1.style = (fed (front ++ back)).1.style

/-- The end of a sequence that designates a character set is shown as text, and a private sequence
selects a style. -/
theorem foreign_sequences_seen :
    (∃ charset : Escape, charset.bytes = [0x1B, 0x28, 0x42] ∧ charset.Foreign ∧
      ¬charset.Transparent) ∧
    ∃ keys : Escape, keys.bytes = [0x1B, 0x5B, 0x3F, 0x31, 0x6D] ∧ keys.Foreign ∧
      ¬keys.Transparent := by
  constructor
  · refine ⟨.long 0x28 [] 0x42 (by simp) (by decide), rfl, trivial, ?_⟩
    intro unseen
    have ground : ((Parser.ofThreshold 4096).feed .utf8 [0x61]).1.mode = .ground := by decide +kernel
    exact absurd (unseen .utf8 4096 [0x61] [0x62, 0x0A] ground).1 (by decide +kernel)
  · refine ⟨.control [0x3F, 0x31] [] 0x6D (by simp) (by simp) (by decide), rfl,
      .inr ⟨0x3F, by decide, by decide⟩, ?_⟩
    intro unseen
    exact absurd (unseen .utf8 4096 [] [0x78, 0x0A] rfl).2 (by decide +kernel)

end Escape
end DebugAdapter.Output
