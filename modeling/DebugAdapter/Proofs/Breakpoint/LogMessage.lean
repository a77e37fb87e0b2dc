import DebugAdapter.Breakpoint.LogMessage
import DebugAdapter.Proofs.Json.Shape
import DebugAdapter.Proofs.Text.Parts
import Mathlib.Data.List.Chain

/-! Log messages and the templates that they are read from. A template is read piece by piece, and
each list of fragments in normal form is what its own template is read as. -/
namespace DebugAdapter.Breakpoint

open Text

namespace Fragment

/-- Braces of a text are written twice, and an expression stands between blanks in braces. -/
def written : Fragment → List Char
  | text content => content.toList.flatMap fun c => if c = '{' ∨ c = '}' then [c, c] else [c]
  | expr expression => '{' :: ' ' :: expression.toList ++ [' ', '}']

def isText : Fragment → Bool
  | text _ => true
  | expr _ => false

/-- A text says something, and so does an expression, which ends before the first closing brace. -/
def Proper : Fragment → Prop
  | text content => content ≠ ""
  | expr expression =>
    trimmed expression = expression ∧ expression ≠ "" ∧ '}' ∉ expression.toList

instance : DecidablePred Proper
  | text _ => inferInstanceAs (Decidable (_ ≠ _))
  | expr _ => inferInstanceAs (Decidable (_ ∧ _))

end Fragment

namespace LogMessage

def template (fragments : List Fragment) : String :=
  .ofList (fragments.flatMap Fragment.written)

/-- Fragments that each say something, no two texts of them side by side. -/
structure Normal (fragments : List Fragment) : Prop where
  proper : ∀ fragment ∈ fragments, fragment.Proper
  apart : fragments.IsChain fun first second => ¬(first.isText ∧ second.isText)

/-- Reading a template from the left, one comes to an opening brace that is not doubled, outside of
any expression, and `after` is what follows it. -/
inductive Opens : List Char → List Char → Prop where
  | here {after : List Char} : after.head? ≠ some '{' → Opens ('{' :: after) after
  | doubled {rest after : List Char} : Opens rest after → Opens ('{' :: '{' :: rest) after
  | expression {inside rest after : List Char} : inside.head? ≠ some '{' → '}' ∉ inside →
      Opens rest after → Opens ('{' :: (inside ++ '}' :: rest)) after
  | other {c : Char} {rest after : List Char} : c ≠ '{' → Opens rest after →
      Opens (c :: rest) after

/-- An opening brace before this is closed nowhere, or by the first brace after blanks. -/
def Faulty (after : List Char) : Prop :=
  '}' ∉ after ∨
    ∃ inside rest, after = inside ++ '}' :: rest ∧ ∀ c ∈ inside, isBlank c = true

variable {c : Char} {literal expr inside rest after text : List Char}

theorem head?_enclosed :
    (inside ++ '}' :: rest).head? = some '{' ↔ inside.head? = some '{' := by
  cases inside <;> simp

theorem parseFrom_nil (literal : List Char) :
    parseFrom literal none [] = .ok (textFragment literal) := rfl

theorem parseFrom_cons (literal : List Char) (c : Char) (rest : List Char) :
    parseFrom literal none (c :: rest) =
      if (c = '{' ∨ c = '}') ∧ rest.head? = some c then
        parseFrom (c :: literal) none rest.tail
      else if c = '{' then (parseFrom [] (some []) rest).map (textFragment literal ++ ·)
      else parseFrom (c :: literal) none rest := by
  by_cases opens : c = '{'
  · subst opens
    cases rest with
    | nil => rfl
    | cons d rest =>
      by_cases again : d = '{'
      · subst again
        rfl
      · rw [parseFrom] <;> simp_all
  · by_cases closes : c = '}'
    · subst closes
      cases rest with
      | nil => rfl
      | cons d rest =>
        by_cases again : d = '}'
        · subst again
          rfl
        · rw [parseFrom] <;> simp_all
    · rw [parseFrom] <;> simp_all

theorem parseFrom_cons_inside (literal expr : List Char) (c : Char) (rest : List Char) :
    parseFrom literal (some expr) (c :: rest) =
      if c = '}' then
        (closeExpression expr).bind fun fragment => (parseFrom [] none rest).map (fragment :: ·)
      else parseFrom literal (some (c :: expr)) rest := by
  by_cases closes : c = '}'
  · subst closes
    rfl
  · rw [parseFrom, if_neg closes]
    exact closes

theorem parseFrom_escape (brace : c = '{' ∨ c = '}') (literal rest : List Char) :
    parseFrom literal none (c :: c :: rest) = parseFrom (c :: literal) none rest := by
  rw [parseFrom_cons, if_pos ⟨brace, List.head?_cons⟩, List.tail_cons]

theorem parseFrom_other (unopened : c ≠ '{') (single : c = '}' → rest.head? ≠ some '}')
    (literal : List Char) :
    parseFrom literal none (c :: rest) = parseFrom (c :: literal) none rest := by
  have once : ¬((c = '{' ∨ c = '}') ∧ rest.head? = some c) := by
    rintro ⟨brace, again⟩
    have closes := brace.resolve_left unopened
    exact single closes (closes ▸ again)
  rw [parseFrom_cons, if_neg once, if_neg unopened]

theorem parseFrom_open (alone : after.head? ≠ some '{') (literal : List Char) :
    parseFrom literal none ('{' :: after) =
      (parseFrom [] (some []) after).map (textFragment literal ++ ·) := by
  rw [parseFrom_cons, if_neg fun doubled => alone doubled.2, if_pos rfl]

theorem parseFrom_unclosed (unclosed : '}' ∉ after) :
    parseFrom literal (some expr) after = .error .unterminated := by
  induction after generalizing expr with
  | nil => rfl
  | cons c rest ih =>
    obtain ⟨other, later⟩ := not_or.mp (mt List.mem_cons.mpr unclosed)
    rw [parseFrom_cons_inside, if_neg (Ne.symm other), ih later]

theorem parseFrom_closed (inner : '}' ∉ inside) :
    parseFrom literal (some expr) (inside ++ '}' :: rest) =
      (closeExpression (inside.reverse ++ expr)).bind fun fragment =>
        (parseFrom [] none rest).map (fragment :: ·) := by
  induction inside generalizing expr with
  | nil =>
    rw [List.nil_append, parseFrom_cons_inside, if_pos rfl, List.reverse_nil, List.nil_append]
  | cons c inside ih =>
    obtain ⟨other, later⟩ := not_or.mp (mt List.mem_cons.mpr inner)
    rw [List.cons_append, parseFrom_cons_inside, if_neg (Ne.symm other), ih later,
      List.reverse_cons, List.append_assoc, List.singleton_append]

/-- An expression of blanks alone is refused; any other follows the text before it. -/
theorem parseFrom_expression (alone : inside.head? ≠ some '{') (inner : '}' ∉ inside)
    (literal rest : List Char) :
    parseFrom literal none ('{' :: (inside ++ '}' :: rest)) =
      if trim inside = [] then .error .emptyExpression
      else (parseFrom [] none rest).map
        (textFragment literal ++ .expr (.ofList (trim inside)) :: ·) := by
  rw [parseFrom_open (mt head?_enclosed.mp alone), parseFrom_closed inner, List.append_nil,
    closeExpression, List.reverse_reverse]
  by_cases blank : trim inside = []
  · simp only [blank, List.isEmpty_nil, if_true]
    rfl
  · simp only [List.isEmpty_iff, blank, if_false]
    cases parseFrom [] none rest <;> rfl

/-- A template is made of escaped braces, other characters and expressions, up to its end or to an
expression that does not end. -/
theorem pieces {P : List Char → Prop} (nil : P [])
    (escape : ∀ c rest, c = '{' ∨ c = '}' → P rest → P (c :: c :: rest))
    (other : ∀ c rest, c ≠ '{' → (c = '}' → rest.head? ≠ some '}') → P rest →
      P (c :: rest))
    (unclosed : ∀ after, after.head? ≠ some '{' → '}' ∉ after → P ('{' :: after))
    (expression : ∀ inside rest, inside.head? ≠ some '{' → '}' ∉ inside → P rest →
      P ('{' :: (inside ++ '}' :: rest))) (text : List Char) : P text := by
  induction size : text.length using Nat.strong_induction_on generalizing text with
  | h size ih =>
    subst size
    have shorter (rest : List Char) (fewer : rest.length < text.length) : P rest :=
      ih rest.length fewer rest rfl
    cases text with
    | nil => exact nil
    | cons c rest =>
      by_cases doubled : (c = '{' ∨ c = '}') ∧ rest.head? = some c
      · obtain ⟨brace, again⟩ := doubled
        obtain ⟨tail, rfl⟩ := List.head?_eq_some_iff.mp again
        refine escape c tail brace (shorter tail ?_)
        simp only [List.length_cons]
        omega
      · by_cases opens : c = '{'
        · subst opens
          have alone : rest.head? ≠ some '{' := fun again => doubled ⟨.inl rfl, again⟩
          by_cases closed : '}' ∈ rest
          · obtain ⟨inside, later, rfl, inner⟩ := List.eq_append_cons_of_mem closed
            refine expression inside later (mt head?_enclosed.mpr alone) inner (shorter later ?_)
            simp only [List.length_cons, List.length_append]
            omega
          · exact unclosed rest alone closed
        · refine other c rest opens (fun closes again => ?_) (shorter rest (by simp))
          exact doubled ⟨.inr closes, closes ▸ again⟩

theorem textFragment_reverse {text : String} (given : text ≠ "") :
    textFragment text.toList.reverse = [.text text] := by
  have filled : text.toList.reverse.isEmpty = false := by simpa using given
  rw [textFragment, filled, if_neg Bool.false_ne_true, List.reverse_reverse, String.ofList_toList]

theorem parseFrom_text (text : String) (literal rest : List Char) :
    parseFrom literal none ((Fragment.text text).written ++ rest) =
      parseFrom (text.toList.reverse ++ literal) none rest := by
  simp only [Fragment.written]
  induction text.toList generalizing literal with
  | nil => rfl
  | cons c chars ih =>
    rw [List.flatMap_cons, List.append_assoc, List.reverse_cons, List.append_assoc,
      List.singleton_append]
    split
    · rename_i brace
      rw [List.cons_append, List.singleton_append, parseFrom_escape brace, ih]
    · rename_i plain
      rw [not_or] at plain
      rw [List.singleton_append, parseFrom_other plain.1 (absurd · plain.2), ih]

/-- Text that was read before belongs to no text that follows. -/
theorem parseFrom_written {fragments : List Fragment} (normal : Normal fragments)
    (apart : literal ≠ [] → ∀ first ∈ fragments.head?, first.isText = false) :
    parseFrom literal none (fragments.flatMap Fragment.written) =
      .ok (textFragment literal ++ fragments) := by
  induction fragments generalizing literal with
  | nil => rw [List.flatMap_nil, parseFrom_nil, List.append_nil]
  | cons first rest ih =>
    obtain ⟨own, others⟩ := List.forall_mem_cons.mp normal.proper
    obtain ⟨next, chain⟩ := List.isChain_cons.mp normal.apart
    have later : Normal rest := ⟨others, chain⟩
    rw [List.flatMap_cons]
    cases first with
    | text text =>
      obtain rfl : literal = [] := by
        by_contra read
        have other := apart read (.text text) rfl
        contradiction
      have follows : ∀ second ∈ rest.head?, second.isText = false := fun second member => by
        simpa [Fragment.isText] using next second member
      rw [parseFrom_text, List.append_nil, ih later fun _ => follows, textFragment_reverse own]
      rfl
    | expr expression =>
      obtain ⟨trims, given, inner⟩ := own
      have padded : trim (' ' :: expression.toList ++ [' ']) = expression.toList := by
        have blank : ∀ c ∈ [' '], isBlank c = true := List.all_eq_true.mp rfl
        have same := congrArg String.toList trims
        rw [trimmed, String.toList_ofList] at same
        exact (trim_surrounded blank expression.toList blank).trans same
      have spaced : '}' ∉ ' ' :: expression.toList ++ [' '] := by simpa using inner
      have whole : (Fragment.expr expression).written ++ rest.flatMap Fragment.written =
          '{' :: ((' ' :: expression.toList ++ [' ']) ++
            '}' :: rest.flatMap Fragment.written) := by
        simp [Fragment.written]
      have read := ih later fun absent => absurd rfl absent
      rw [whole, parseFrom_expression (by simp) spaced, padded, read,
        if_neg (by simpa using given), String.ofList_toList]
      rfl

theorem normal_textFragment (literal : List Char) : Normal (textFragment literal) := by
  unfold textFragment
  split
  · exact ⟨by simp, .nil⟩
  · rename_i given
    refine ⟨fun fragment member => ?_, .singleton _⟩
    obtain rfl := List.mem_singleton.mp member
    simpa [Fragment.Proper] using given

theorem Normal.expression {fragments : List Fragment} (normal : Normal fragments)
    (literal : List Char) {expression : String} (proper : (Fragment.expr expression).Proper) :
    Normal (textFragment literal ++ .expr expression :: fragments) := by
  have before := normal_textFragment literal
  have after : (Fragment.expr expression :: fragments).IsChain
      fun first second => ¬(first.isText ∧ second.isText) :=
    List.isChain_cons.mpr ⟨fun _ _ texts => absurd texts.1 Bool.false_ne_true, normal.apart⟩
  refine ⟨fun fragment member => ?_, List.isChain_append.mpr ⟨before.apart, after, ?_⟩⟩
  · rcases List.mem_append.mp member with text | later
    · exact before.proper fragment text
    · rcases List.mem_cons.mp later with rfl | later
      · exact proper
      · exact normal.proper fragment later
  · rintro first - second head ⟨-, text⟩
    cases head
    contradiction

theorem parseFrom_normal {fragments : List Fragment}
    (parsed : parseFrom literal none text = .ok fragments) : Normal fragments := by
  induction text using pieces generalizing literal fragments with
  | nil =>
    rw [parseFrom_nil] at parsed
    exact Except.ok.inj parsed ▸ normal_textFragment literal
  | escape c rest brace ih =>
    rw [parseFrom_escape brace] at parsed
    exact ih parsed
  | other c rest unopened single ih =>
    rw [parseFrom_other unopened single] at parsed
    exact ih parsed
  | unclosed after alone unclosed =>
    rw [parseFrom_open alone, parseFrom_unclosed unclosed] at parsed
    contradiction
  | expression inside rest alone inner ih =>
    rw [parseFrom_expression alone inner] at parsed
    split at parsed
    · contradiction
    · rename_i given
      obtain ⟨later, read, rfl⟩ := Json.map_eq_ok parsed
      refine (ih read).expression literal ⟨?_, ?_, ?_⟩
      · rw [trimmed, String.toList_ofList, trim_trim]
      · simpa using given
      · rw [String.toList_ofList]
        exact fun occurs => inner ((trim_sublist inside).subset occurs)

theorem opens_other (other : c ≠ '{') : Opens (c :: rest) after ↔ Opens rest after := by
  refine ⟨fun opens => ?_, .other other⟩
  cases opens with
  | other _ later => exact later
  | here | doubled | expression => contradiction

theorem opens_brace : Opens ('{' :: text) after ↔
    (∃ rest, text = '{' :: rest ∧ Opens rest after) ∨
      text.head? ≠ some '{' ∧ (after = text ∨
        ∃ inside rest, text = inside ++ '}' :: rest ∧ '}' ∉ inside ∧ Opens rest after) := by
  constructor
  · intro opens
    cases opens with
    | here alone => exact .inr ⟨alone, .inl rfl⟩
    | doubled later => exact .inl ⟨_, rfl, later⟩
    | expression alone inner later =>
      exact .inr ⟨mt head?_enclosed.mp alone, .inr ⟨_, _, rfl, inner, later⟩⟩
    | other => contradiction
  · rintro (⟨rest, rfl, later⟩ | ⟨alone, rfl | ⟨inside, rest, rfl, inner, later⟩⟩)
    · exact .doubled later
    · exact .here alone
    · exact .expression (mt head?_enclosed.mpr alone) inner later

theorem opens_escape (brace : c = '{' ∨ c = '}') :
    Opens (c :: c :: rest) after ↔ Opens rest after := by
  rcases brace with rfl | rfl
  · simp [opens_brace]
  · rw [opens_other (by decide), opens_other (by decide)]

theorem enclosed_inj {inside' rest' : List Char} (inner : '}' ∉ inside)
    (inner' : '}' ∉ inside') (same : inside ++ '}' :: rest = inside' ++ '}' :: rest') :
    inside = inside' ∧ rest = rest' := by
  have split := splitFirst?_append inner rest
  rw [same, splitFirst?_append inner' rest'] at split
  cases split
  exact ⟨rfl, rfl⟩

theorem opens_expression (alone : inside.head? ≠ some '{') (inner : '}' ∉ inside) :
    Opens ('{' :: (inside ++ '}' :: rest)) after ↔
      after = inside ++ '}' :: rest ∨ Opens rest after := by
  have opened : (inside ++ '}' :: rest).head? ≠ some '{' := mt head?_enclosed.mp alone
  rw [opens_brace]
  constructor
  · rintro (⟨later, doubled, -⟩ | ⟨-, same | ⟨inside', rest', same, inner', later⟩⟩)
    · exact absurd (congrArg List.head? doubled) opened
    · exact .inl same
    · obtain ⟨-, rfl⟩ := enclosed_inj inner inner' same
      exact .inr later
  · rintro (same | later)
    · exact .inr ⟨opened, .inl same⟩
    · exact .inr ⟨opened, .inr ⟨inside, rest, rfl, inner, later⟩⟩

theorem faulty_enclosed (inner : '}' ∉ inside) :
    Faulty (inside ++ '}' :: rest) ↔ trim inside = [] := by
  rw [trim_eq_nil]
  constructor
  · rintro (unclosed | ⟨inside', rest', same, blank⟩)
    · exact absurd (by simp) unclosed
    · have inner' : '}' ∉ inside' := fun occurs => absurd (blank _ occurs) (by decide)
      obtain ⟨rfl, -⟩ := enclosed_inj inner inner' same
      exact blank
  · exact fun blank => .inr ⟨inside, rest, rfl, blank⟩

theorem parseFrom_error_iff (literal text : List Char) :
    (∃ fault, parseFrom literal none text = .error fault) ↔
      ∃ after, Opens text after ∧ Faulty after := by
  induction text using pieces generalizing literal with
  | nil => simp [parseFrom_nil, show ∀ after, ¬Opens [] after from nofun]
  | escape c rest brace ih => simp only [parseFrom_escape brace, opens_escape brace, ih]
  | other c rest unopened single ih =>
    simp only [parseFrom_other unopened single, opens_other unopened, ih]
  | unclosed after alone unclosed =>
    rw [parseFrom_open alone, parseFrom_unclosed unclosed]
    exact iff_of_true ⟨_, rfl⟩ ⟨after, .here alone, .inl unclosed⟩
  | expression inside rest alone inner ih =>
    rw [parseFrom_expression alone inner]
    have faulty : Faulty (inside ++ '}' :: rest) ↔ trim inside = [] := faulty_enclosed inner
    split
    · rename_i blank
      exact iff_of_true ⟨_, rfl⟩ ⟨_, .here (mt head?_enclosed.mp alone), faulty.mpr blank⟩
    · rename_i given
      have later := ih []
      simp only [opens_expression alone inner, or_and_right, exists_or, exists_eq_left, faulty,
        given, false_or, ← later]
      cases parseFrom [] none rest <;> simp [Except.map]

/-- What fragments in normal form are written as is read as those fragments, and whatever is read
is in normal form. Only an opening brace that is closed nowhere or encloses nothing is refused. -/
theorem parse_template :
    (∀ fragments, Normal fragments → parse (template fragments) = .ok fragments) ∧
    (∀ text fragments, parse text = .ok fragments →
      Normal fragments ∧ parse (template fragments) = .ok fragments) ∧
    ∀ text, (∃ fault, parse text = .error fault) ↔
      ∃ after, Opens text.toList after ∧ Faulty after := by
  have written (fragments : List Fragment) (normal : Normal fragments) :
      parse (template fragments) = .ok fragments := by
    rw [parse, template, String.toList_ofList,
      parseFrom_written normal fun absent => absurd rfl absent]
    rfl
  refine ⟨written, fun text fragments parsed => ?_, fun text => parseFrom_error_iff [] _⟩
  exact ⟨parseFrom_normal parsed, written fragments (parseFrom_normal parsed)⟩

/-- A text that ends in a brace stands before an expression that begins with one; a closing brace
may stand alone, and an expression may not be blank. -/
theorem parse_template_braces :
    template [.text "a\x7b", .expr "\x7bb"] = "a\x7b\x7b\x7b \x7bb \x7d" ∧
    parse "a\x7b\x7b\x7b \x7bb \x7d" = .ok [.text "a\x7b", .expr "\x7bb"] ∧
    Normal [.text "\x7d"] ∧ ∃ fault, parse "a\x7b \x7d" = .error fault := by
  have normal : Normal [.text "a\x7b", .expr "\x7bb"] := ⟨by decide, by simp [Fragment.isText]⟩
  have opens : Opens ['a', '{', ' ', '}'] [' ', '}'] :=
    .other (by decide) (.here (by decide))
  exact ⟨by decide, parse_template.1 _ normal, (parse_template.2.1 "\x7d" _ rfl).1,
    (parse_template.2.2 _).mpr ⟨_, opens, .inr ⟨[' '], [], rfl, List.all_eq_true.mp rfl⟩⟩⟩

end LogMessage

end DebugAdapter.Breakpoint
