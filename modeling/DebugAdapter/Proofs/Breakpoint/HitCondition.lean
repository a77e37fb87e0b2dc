import DebugAdapter.Breakpoint.HitCondition
import DebugAdapter.Proofs.Text.Parts

/-! What a hit condition may be written as, and the hit counts that meet it. -/
namespace DebugAdapter.Digits

/-- Decimal digits for a number; a plus sign may stand before them. -/
structure Numeral (sign digits : List Char) (n : Nat) : Prop where
  sign : sign = [] ∨ sign = ['+']
  given : digits ≠ []
  decimal : ∀ c ∈ digits, c.isDigit = true
  number : Nat.ofDigitChars 10 digits 0 = n

variable {sign digits text : List Char} {n : Nat}

theorem word?_split (text : List Char) : ∃ sign digits, text = sign ++ digits ∧
    (sign = [] ∨ sign = ['+']) ∧ word? text =
      if digits.isEmpty || !digits.all Char.isDigit then none
      else if value 10 digits < Word.limit64 then some (value 10 digits) else none := by
  unfold word?
  split
  · exact ⟨['+'], _, rfl, .inr rfl, rfl⟩
  · exact ⟨[], _, rfl, .inl rfl, rfl⟩

theorem numeral_of_word? (read : word? text = some n) :
    n < Word.limit64 ∧ ∃ sign digits, text = sign ++ digits ∧ Numeral sign digits n := by
  obtain ⟨sign, digits, whole, either, same⟩ := word?_split text
  rw [same] at read
  split at read
  · contradiction
  · rename_i accepted
    obtain ⟨given, decimal⟩ : digits ≠ [] ∧ ∀ c ∈ digits, c.isDigit = true := by
      simpa using accepted
    split at read
    · rename_i fits
      obtain rfl := Option.some.inj read
      exact ⟨fits, sign, digits, whole, either, given, decimal,
        (value_eq_ofDigitChars decimal).symm⟩
    · contradiction

theorem Numeral.word?_eq (numeral : Numeral sign digits n) (fits : n < Word.limit64) :
    word? (sign ++ digits) = some n := by
  have whole : value 10 digits = n := (value_eq_ofDigitChars numeral.decimal).trans numeral.number
  rcases numeral.sign with rfl | rfl
  · rw [List.nil_append, word?_of_digits numeral.decimal numeral.given (whole.symm ▸ fits), whole]
  · rw [List.singleton_append, word?]
    simp [numeral.given, List.all_eq_true.mpr numeral.decimal, whole, fits]

theorem Numeral.of_mem (numeral : Numeral sign digits n) {c : Char} (occurs : c ∈ sign ++ digits) :
    c = '+' ∨ c.isDigit = true := by
  rcases List.mem_append.mp occurs with before | within
  · rcases numeral.sign with rfl | rfl
    · contradiction
    · exact .inl (List.mem_singleton.mp before)
  · exact .inr (numeral.decimal c within)

theorem Numeral.solid (numeral : Numeral sign digits n) {c : Char} (occurs : c ∈ sign ++ digits) :
    Text.isBlank c = false := by
  rcases numeral.of_mem occurs with rfl | digit
  · decide
  · exact Text.isBlank_of_isDigit digit

end DebugAdapter.Digits

namespace DebugAdapter.Breakpoint.HitCondition

open Text Digits

/-- The operators, and how the hits that meet a condition compare to its count. -/
inductive Operator : List Char → (Nat → Nat → Prop) → Prop where
  | absent : Operator [] (· = ·)
  | equal : Operator ['=', '='] (· = ·)
  | atLeast : Operator ['>', '='] (· ≥ ·)
  | greater : Operator ['>'] (· > ·)

/-- Between blank characters a text has an operator, further blank characters and the numeral of a
positive count of 64 bits. -/
def Written (text : List Char) (compare : Nat → Nat → Prop) (count : Nat) : Prop :=
  ∃ operator gap sign digits, trim text = operator ++ (gap ++ (sign ++ digits)) ∧
    Operator operator compare ∧ (∀ c ∈ gap, isBlank c = true) ∧ Numeral sign digits count ∧
    1 ≤ count ∧ count < Word.limit64

variable {operator rest text : List Char} {compare : Nat → Nat → Prop} {count : Nat}

theorem splitRelation_operator (text : List Char) : ∃ operator compare,
    text = operator ++ (splitRelation text).2 ∧ Operator operator compare ∧
      ∀ count hits, isMet ⟨(splitRelation text).1, count⟩ hits = true ↔ compare hits count := by
  unfold splitRelation
  split
  · exact ⟨_, _, rfl, .atLeast, by simp [isMet]⟩
  · exact ⟨_, _, rfl, .equal, by simp [isMet]⟩
  · exact ⟨_, _, rfl, .greater, by simp [isMet]⟩
  · exact ⟨_, _, rfl, .absent, by simp [isMet]⟩

/-- An operator is read whole if nothing after it could be a part of one. -/
theorem Operator.splitRelation (known : Operator operator compare)
    (other : ∀ c ∈ rest, c ≠ '=' ∧ c ≠ '>') :
    ∃ relation, HitCondition.splitRelation (operator ++ rest) = (relation, rest) ∧
      ∀ count hits, isMet ⟨relation, count⟩ hits = true ↔ compare hits count := by
  cases known with
  | absent =>
    refine ⟨.equal, ?_, by simp [isMet]⟩
    rw [List.nil_append]
    unfold HitCondition.splitRelation
    split <;> simp_all
  | equal => exact ⟨.equal, rfl, by simp [isMet]⟩
  | atLeast => exact ⟨.atLeast, rfl, by simp [isMet]⟩
  | greater =>
    refine ⟨.greater, ?_, by simp [isMet]⟩
    rw [List.singleton_append]
    unfold HitCondition.splitRelation
    split <;> simp_all

theorem parseChars?_eq_some_iff {condition : HitCondition} : parseChars? text = some condition ↔
    (splitRelation (trim text)).1 = condition.relation ∧
      word? (trim (splitRelation (trim text)).2) = some condition.count ∧ condition.count ≠ 0 := by
  have parts : parseChars? text = (word? (trim (splitRelation (trim text)).2)).bind fun count =>
      if count = 0 then none else some ⟨(splitRelation (trim text)).1, count⟩ := rfl
  rw [parts, Option.bind_eq_some_iff]
  constructor
  · rintro ⟨count, read, built⟩
    split at built
    · contradiction
    · rename_i positive
      cases built
      exact ⟨rfl, read, positive⟩
  · rintro ⟨same, read, positive⟩
    exact ⟨condition.count, read, by rw [if_neg positive, same]⟩

theorem written_of_parseChars? {condition : HitCondition}
    (parsed : parseChars? text = some condition) :
    ∃ compare, Written text compare condition.count := by
  obtain ⟨-, read, positive⟩ := parseChars?_eq_some_iff.mp parsed
  obtain ⟨operator, compare, whole, known, -⟩ := splitRelation_operator (trim text)
  obtain ⟨gap, blanks, split, blankGap, blank⟩ := trim_split (splitRelation (trim text)).2
  obtain ⟨fits, sign, digits, same, numeral⟩ := numeral_of_word? read
  -- The text was trimmed, so that nothing but the start of the rest can be blank.
  have ended : trim (operator ++ (gap ++ (sign ++ digits)) ++ blanks) =
      operator ++ (gap ++ (sign ++ digits)) ++ blanks := by
    rw [← same, List.append_assoc, ← split, ← whole, trim_trim]
  obtain rfl := trailing_eq_nil ended blank
  rw [List.append_nil, same] at split
  rw [split] at whole
  exact ⟨compare, operator, gap, sign, digits, whole, known, blankGap, numeral,
    Nat.pos_of_ne_zero positive, fits⟩

theorem Written.parseChars? (written : Written text compare count) :
    ∃ relation, parseChars? text = some ⟨relation, count⟩ ∧
      ∀ hits, isMet ⟨relation, count⟩ hits = true ↔ compare hits count := by
  obtain ⟨operator, gap, sign, digits, whole, known, blank, numeral, positive, fits⟩ := written
  have other : ∀ c ∈ gap ++ (sign ++ digits), c ≠ '=' ∧ c ≠ '>' := by
    intro c occurs
    rcases List.mem_append.mp occurs with between | within
    · have white := blank c between
      constructor <;> (rintro rfl; contradiction)
    · have plain := numeral.of_mem within
      constructor <;> (rintro rfl; revert plain; decide)
  obtain ⟨relation, split, met⟩ := known.splitRelation other
  have padded : trim (gap ++ (sign ++ digits)) = sign ++ digits := by
    have same := trim_padded blank (fun _ => numeral.solid) (List.forall_mem_nil _)
    rwa [List.append_nil] at same
  refine ⟨relation, parseChars?_eq_some_iff.mpr ?_, met count⟩
  rw [whole, split, padded]
  exact ⟨rfl, numeral.word?_eq fits, Nat.ne_of_gt positive⟩

/-- The conditions that are read are those that are written as described, and each of them is met
by the hits that its operator says. -/
theorem accepted_iff_written :
    (∀ text, (parse? text).isSome = true ↔ ∃ compare count, Written text.toList compare count) ∧
    ∀ text compare count, Written text.toList compare count →
      ∃ condition, parse? text = some condition ∧
        ∀ hits, condition.isMet hits = true ↔ compare hits count := by
  refine ⟨fun text => ⟨fun accepted => ?_, ?_⟩, fun text compare count written => ?_⟩
  · obtain ⟨condition, parsed⟩ := Option.isSome_iff_exists.mp accepted
    obtain ⟨compare, written⟩ := written_of_parseChars? parsed
    exact ⟨compare, condition.count, written⟩
  · rintro ⟨compare, count, written⟩
    obtain ⟨relation, parsed, -⟩ := written.parseChars?
    exact Option.isSome_iff_exists.mpr ⟨_, parsed⟩
  · obtain ⟨relation, parsed, met⟩ := written.parseChars?
    exact ⟨_, parsed, met⟩

theorem written_padded :
    Written [' ', '>', '\t', '+', '0', '7', '\n'] (· > ·) 7 ∧
    ∃ condition, parse? " >\t+07\n" = some condition ∧
      ∀ hits, condition.isMet hits = true ↔ hits > 7 := by
  have written : Written [' ', '>', '\t', '+', '0', '7', '\n'] (· > ·) 7 :=
    ⟨['>'], ['\t'], ['+'], ['0', '7'], by decide, .greater, List.all_eq_true.mp rfl,
      ⟨.inr rfl, by decide, List.all_eq_true.mp rfl, by decide⟩, by decide, by decide⟩
  exact ⟨written, accepted_iff_written.2 " >\t+07\n" _ _ written⟩

end DebugAdapter.Breakpoint.HitCondition
