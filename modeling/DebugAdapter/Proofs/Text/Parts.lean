import DebugAdapter.Number.Digits
import DebugAdapter.Text.Blank
import DebugAdapter.Text.Split
import Mathlib.Data.List.Basic
import Mathlib.Data.List.DropRight
import Mathlib.Data.List.TakeWhile

/-! Texts taken apart: at their separators, from the blank characters around them, into the digits
of a number; and what is the same of them in lowercase. -/
namespace DebugAdapter.Text

/-- The part before the first occurrence is the shortest before any. -/
theorem splitFirst?_shortest {needle text before after : List Char}
    (found : splitFirst? needle text = some (before, after)) :
    text = before ++ needle ++ after ∧
      ∀ front back, text = front ++ needle ++ back → before.length ≤ front.length := by
  induction text generalizing before with
  | nil =>
    rw [splitFirst?] at found
    split at found
    · rename_i empty
      cases found
      simp [List.isEmpty_iff.mp empty]
    · contradiction
  | cons c rest ih =>
    rw [splitFirst?] at found
    split at found
    · rename_i here
      cases found
      exact ⟨(List.isPrefixOf?_eq_some_iff_append_eq.mp here).symm, fun _ _ _ => Nat.zero_le _⟩
    · rename_i elsewhere
      obtain ⟨⟨before, after⟩, later, same⟩ := Option.map_eq_some_iff.mp found
      cases same
      obtain ⟨rfl, shortest⟩ := ih later
      refine ⟨rfl, fun front back split => ?_⟩
      cases front with
      | nil =>
        have here := List.isPrefixOf?_eq_some_iff_append_eq.mpr split.symm
        rw [List.nil_append, elsewhere] at here
        contradiction
      | cons d front => exact Nat.succ_le_succ (shortest front back (List.cons.inj split).2)

theorem splitFirst?_eq_none {needle text : List Char} :
    splitFirst? needle text = none ↔ ∀ before after, text ≠ before ++ needle ++ after := by
  constructor
  · intro missing before after split
    induction text generalizing before with
    | nil =>
      have empty : needle = [] := by simp_all
      simp [splitFirst?, empty] at missing
    | cons c rest ih =>
      rw [splitFirst?] at missing
      split at missing
      · contradiction
      · rename_i elsewhere
        cases before with
        | nil =>
          have here := List.isPrefixOf?_eq_some_iff_append_eq.mpr split.symm
          rw [List.nil_append, elsewhere] at here
          contradiction
        | cons d before =>
          exact ih (Option.map_eq_none_iff.mp missing) before (List.cons.inj split).2
  · intro absent
    cases found : splitFirst? needle text with
    | none => rfl
    | some parts => exact absurd (splitFirst?_shortest found).1 (absent parts.1 parts.2)

theorem splitFirst?_append {sep : Char} {before : List Char} (free : sep ∉ before)
    (after : List Char) : splitFirst? [sep] (before ++ sep :: after) = some (before, after) := by
  induction before with
  | nil => simp [splitFirst?, List.isPrefixOf?]
  | cons c before ih =>
    obtain ⟨other, later⟩ := not_or.mp (mt List.mem_cons.mpr free)
    simp [splitFirst?, List.isPrefixOf?, other, ih later]

theorem of_splitFirst?_eq_some {sep : Char} {text before after : List Char}
    (found : splitFirst? [sep] text = some (before, after)) :
    text = before ++ sep :: after ∧ sep ∉ before := by
  obtain ⟨whole, shortest⟩ := splitFirst?_shortest found
  rw [List.append_assoc, List.singleton_append] at whole
  refine ⟨whole, fun occurs => ?_⟩
  obtain ⟨front, back, rfl⟩ := List.append_of_mem occurs
  have short := shortest front (back ++ sep :: after) (by simp [whole])
  rw [List.length_append, List.length_cons] at short
  omega

theorem split_eq_splitOn (sep : Char) (text : List Char) : split sep text = text.splitOn sep := by
  induction text with
  | nil => rfl
  | cons c rest ih =>
    rw [split, ih, List.splitOn_cons_eq_if_modifyHead]
    simp only [beq_iff_eq]
    split
    · rfl
    · cases parts : rest.splitOn sep with
      | nil => exact absurd parts (List.splitOn_ne_nil sep rest)
      | cons part parts => rfl

theorem split_ne_nil (sep : Char) (text : List Char) : split sep text ≠ [] := by
  rw [split_eq_splitOn]
  exact List.splitOn_ne_nil sep text

theorem join_split (sep : Char) (text : List Char) : join sep (split sep text) = text := by
  rw [split_eq_splitOn, join, List.intercalate_splitOn]

theorem split_join {sep : Char} {parts : List (List Char)} (free : ∀ part ∈ parts, sep ∉ part)
    (given : parts ≠ []) : split sep (join sep parts) = parts := by
  rw [split_eq_splitOn, join, List.splitOn_intercalate sep free given]

theorem split_append (sep : Char) (left right : List Char) :
    split sep (left ++ sep :: right) = split sep left ++ split sep right := by
  simp only [split_eq_splitOn, List.splitOn_append_cons_self]

theorem split_free {sep : Char} {text : List Char} (free : sep ∉ text) :
    split sep text = [text] := by
  rw [split_eq_splitOn, List.splitOn_eq_singleton free]

/-- The parts consist of the characters of the text but its separators. -/
theorem of_mem_split {sep c : Char} {text part : List Char} (member : part ∈ split sep text)
    (occurs : c ∈ part) : c ∈ text ∧ c ≠ sep := by
  induction text generalizing part with
  | nil => simp_all [split]
  | cons d rest ih =>
    rw [split] at member
    split at member
    · rcases List.mem_cons.mp member with rfl | later
      · contradiction
      · exact (ih later occurs).imp_left (List.mem_cons_of_mem d)
    · rename_i other
      split at member
      · simp_all
      · rename_i first parts same
        rw [same] at ih
        rcases List.mem_cons.mp member with rfl | later
        · rcases List.mem_cons.mp occurs with rfl | inside
          · exact ⟨List.mem_cons_self, other⟩
          · exact (ih List.mem_cons_self inside).imp_left (List.mem_cons_of_mem d)
        · exact (ih (List.mem_cons_of_mem _ later) occurs).imp_left (List.mem_cons_of_mem d)

theorem join_cons (sep : Char) (part : List Char) (rest : List (List Char)) :
    join sep (part :: rest) = part ++ if rest = [] then [] else sep :: join sep rest := by
  cases rest <;> simp [join, List.intercalate_cons_cons]

theorem join_append {sep : Char} {left right : List (List Char)} (given : left ≠ [])
    (more : right ≠ []) : join sep (left ++ right) = join sep left ++ sep :: join sep right := by
  induction left with
  | nil => contradiction
  | cons part rest ih =>
    simp only [join] at ih ⊢
    cases rest with
    | nil => simp [List.intercalate_cons_of_ne_nil more]
    | cons second rest =>
      have later := ih (List.cons_ne_nil second rest)
      rw [List.cons_append] at later
      simp [List.intercalate_cons_cons, later]

/-- What is joined are the characters of the parts, and separators. -/
theorem of_mem_join {sep c : Char} {parts : List (List Char)} (occurs : c ∈ join sep parts) :
    c = sep ∨ ∃ part ∈ parts, c ∈ part := by
  induction parts with
  | nil => simp [join] at occurs
  | cons part rest ih =>
    simp only [join] at ih occurs
    cases rest with
    | nil => exact .inr ⟨part, List.mem_cons_self, by simpa using occurs⟩
    | cons second rest =>
      rw [List.intercalate_cons_cons, List.append_assoc, List.mem_append] at occurs
      rcases occurs with inside | later
      · exact .inr ⟨part, List.mem_cons_self, inside⟩
      · rcases List.mem_cons.mp later with same | later
        · exact .inl same
        · exact (ih later).imp_right fun ⟨other, member, inside⟩ =>
            ⟨other, List.mem_cons_of_mem part member, inside⟩

theorem head?_join (sep : Char) {part : List Char} (given : part ≠ [])
    (rest : List (List Char)) : (join sep (part :: rest)).head? = part.head? := by
  rw [join_cons, List.head?_append_of_ne_nil _ given]

theorem getLast?_join (sep : Char) {part : List Char} (given : part ≠ [])
    (front : List (List Char)) : (join sep (front ++ [part])).getLast? = part.getLast? := by
  have alone : join sep [part] = part := by simp [join]
  by_cases empty : front = []
  · rw [empty, List.nil_append, alone]
  · rw [join_append empty (List.cons_ne_nil part []), alone,
      List.getLast?_append_of_ne_nil _ (List.cons_ne_nil sep part),
      List.getLast?_cons_of_ne_nil given]

/-- The number of characters of parts, each with a separator after it. -/
def breadth : List (List Char) → Nat
  | [] => 0
  | part :: rest => part.length + 1 + breadth rest

theorem join_length {sep : Char} {parts : List (List Char)} (given : parts ≠ []) :
    (join sep parts).length + 1 = breadth parts := by
  induction parts with
  | nil => contradiction
  | cons part rest ih =>
    cases rest with
    | nil => simp [join, breadth]
    | cons second rest =>
      have later := ih (List.cons_ne_nil second rest)
      rw [breadth, ← later]
      simp [join, List.intercalate_cons_cons]
      omega

theorem breadth_mono {parts others : List (List Char)} (fewer : parts.Sublist others) :
    breadth parts ≤ breadth others := by
  induction fewer with
  | slnil => exact Nat.le_refl _
  | cons part _ ih => exact Nat.le_trans ih (Nat.le_add_left _ _)
  | cons_cons part _ ih => exact Nat.add_le_add_left ih _

theorem join_length_le {sep : Char} {parts others : List (List Char)}
    (fewer : parts.Sublist others) : (join sep parts).length ≤ (join sep others).length := by
  cases parts with
  | nil => exact Nat.zero_le _
  | cons part rest =>
    have given : others ≠ [] := by
      rintro rfl
      contradiction
    have length := @join_length sep _ (List.cons_ne_nil part rest)
    have lengthOthers := @join_length sep _ given
    have narrow := breadth_mono fewer
    omega

theorem takeWhile_append_cons {p : Char → Bool} {c : Char} {text : List Char}
    (all : ∀ d ∈ text, p d = true) (stop : p c = false) (rest : List Char) :
    (text ++ c :: rest).takeWhile p = text := by
  rw [List.takeWhile_append_of_pos all, List.takeWhile_cons_of_neg (by simp [stop]),
    List.append_nil]

theorem dropWhile_append_cons {p : Char → Bool} {c : Char} {text : List Char}
    (all : ∀ d ∈ text, p d = true) (stop : p c = false) (rest : List Char) :
    (text ++ c :: rest).dropWhile p = c :: rest := by
  rw [List.dropWhile_append_of_pos all, List.dropWhile_cons_of_neg (by simp [stop])]

theorem byteLength_append (left right : List Char) :
    byteLength (left ++ right) = byteLength left + byteLength right := by
  have sum (text : List Char) : byteLength text = (text.map Char.utf8Size).sum := by
    rw [byteLength, List.sum_eq_foldl, List.foldl_map]
  simp [sum]

theorem trimEnd_cons {c : Char} (solid : isBlank c = false) (rest : List Char) :
    trimEnd (c :: rest) = c :: trimEnd rest := by
  simp only [trimEnd, List.reverse_cons, List.dropWhile_append]
  split
  · rename_i blank
    simp only [List.isEmpty_iff] at blank
    simp [blank, solid]
  · simp

theorem trim_cons {c : Char} (solid : isBlank c = false) (rest : List Char) :
    trim (c :: rest) = c :: trimEnd rest := by
  rw [trim, trimStart, List.dropWhile_cons_of_neg (by simp [solid]), trimEnd_cons solid]

theorem trimEnd_append_blank (text : List Char) {blanks : List Char}
    (blank : ∀ c ∈ blanks, isBlank c = true) : trimEnd (text ++ blanks) = trimEnd text := by
  rw [trimEnd, List.reverse_append, List.dropWhile_append_of_pos (by simpa using blank), trimEnd]

theorem trimEnd_split (text : List Char) :
    ∃ right, text = trimEnd text ++ right ∧ ∀ c ∈ right, isBlank c = true := by
  refine ⟨(text.reverse.takeWhile isBlank).reverse, ?_, fun c occurs => ?_⟩
  · rw [trimEnd, ← List.reverse_append, List.takeWhile_append_dropWhile, List.reverse_reverse]
  · exact List.mem_takeWhile_imp (List.mem_reverse.mp occurs)

/-- Only blank characters are trimmed. -/
theorem trim_split (text : List Char) : ∃ left right, text = left ++ trim text ++ right ∧
    (∀ c ∈ left, isBlank c = true) ∧ ∀ c ∈ right, isBlank c = true := by
  obtain ⟨right, whole, blank⟩ := trimEnd_split (trimStart text)
  refine ⟨indentation text, right, ?_, fun _ => List.mem_takeWhile_imp, blank⟩
  rw [List.append_assoc, trim, ← whole, indentation_append_trimStart]

/-- Blank characters around a text make no difference to what is trimmed of it. -/
theorem trim_surrounded {left right : List Char} (blankLeft : ∀ c ∈ left, isBlank c = true)
    (text : List Char) (blankRight : ∀ c ∈ right, isBlank c = true) :
    trim (left ++ text ++ right) = trim text := by
  rw [trim, trim, trimStart, trimStart, List.append_assoc, List.dropWhile_append_of_pos blankLeft,
    List.dropWhile_append]
  split
  · rename_i blank
    rw [List.isEmpty_iff.mp blank, List.dropWhile_eq_nil_iff.mpr blankRight]
  · exact trimEnd_append_blank _ blankRight

theorem trim_trim (text : List Char) : trim (trim text) = trim text := by
  obtain ⟨left, right, whole, blankLeft, blankRight⟩ := trim_split text
  rw [← trim_surrounded blankLeft (trim text) blankRight, ← whole]

theorem trim_eq_nil {text : List Char} : trim text = [] ↔ ∀ c ∈ text, isBlank c = true := by
  constructor
  · intro empty
    obtain ⟨left, right, whole, blankLeft, blankRight⟩ := trim_split text
    rw [empty, List.append_nil] at whole
    intro c occurs
    rw [whole] at occurs
    exact (List.mem_append.mp occurs).elim (blankLeft c) (blankRight c)
  · intro blank
    have same := trim_surrounded blank [] (List.forall_mem_nil _)
    rwa [List.append_nil, List.append_nil] at same

theorem trim_sublist (text : List Char) : (trim text).Sublist text := by
  have ended : (trim text).Sublist (trimStart text) :=
    (List.rdropWhile_prefix isBlank (trimStart text)).sublist
  exact ended.trans (List.dropWhile_sublist isBlank)

/-- A text is trimmed if neither its first character nor its last one is blank. -/
theorem trim_eq_self {text : List Char} : trim text = text ↔
    (∀ c ∈ text.head?, isBlank c = false) ∧ ∀ c ∈ text.getLast?, isBlank c = false := by
  have ended (text : List Char) : trimEnd text = text ↔ ∀ c ∈ text.getLast?, isBlank c = false := by
    change text.rdropWhile isBlank = text ↔ _
    rw [List.rdropWhile_eq_self_iff]
    cases text using List.reverseRecOn <;> simp
  have begun (text : List Char) : trimStart text = text ↔ ∀ c ∈ text.head?, isBlank c = false := by
    rw [trimStart, List.dropWhile_eq_self_iff]
    cases text <;> simp
  rw [← begun, ← ended]
  constructor
  · intro same
    have whole : trimStart text = text := by
      have shorter : (trim text).length ≤ (trimStart text).length :=
        (List.rdropWhile_prefix isBlank (trimStart text)).length_le
      rw [same] at shorter
      exact (List.dropWhile_sublist isBlank).eq_of_length_le shorter
    exact ⟨whole, by rwa [trim, whole] at same⟩
  · rintro ⟨start, stop⟩
    rw [trim, start, stop]

theorem trailing_eq_nil {text blanks : List Char} (trimmed : trim (text ++ blanks) = text ++ blanks)
    (blank : ∀ c ∈ blanks, isBlank c = true) : blanks = [] := by
  rw [← List.getLast?_eq_none_iff, Option.eq_none_iff_forall_not_mem]
  intro c last
  have solid : isBlank c = false := by
    refine (trim_eq_self.mp trimmed).2 c ?_
    rw [List.getLast?_append, Option.mem_def.mp last]
    rfl
  exact absurd (blank c (List.mem_of_mem_getLast? last)) (by simp [solid])

/-- A text without blank characters is what remains of it between blank characters. -/
theorem trim_padded {left text right : List Char} (blankLeft : ∀ c ∈ left, isBlank c = true)
    (solid : ∀ c ∈ text, isBlank c = false) (blankRight : ∀ c ∈ right, isBlank c = true) :
    trim (left ++ text ++ right) = text := by
  rw [trim_surrounded blankLeft text blankRight, trim_eq_self]
  exact ⟨fun c first => solid c (List.mem_of_mem_head? first),
    fun c last => solid c (List.mem_of_mem_getLast? last)⟩

theorem isBlank_of_isAlpha {c : Char} (letter : c.isAlpha = true) : isBlank c = false := by
  have ranges : (decide (c.val ≥ 'A'.val ∧ c.val ≤ 'Z'.val) ||
      (decide (c.val ≥ 'a'.val) && decide (c.val ≤ 'z'.val))) = true := letter
  simp only [Bool.or_eq_true, Bool.and_eq_true, decide_eq_true_eq, ge_iff_le,
    UInt32.le_iff_toNat_le, Char.toNat_val] at ranges
  simp [isBlank, blankRanges] at ranges ⊢
  omega

theorem isBlank_of_isDigit {c : Char} (digit : c.isDigit = true) : isBlank c = false := by
  simp only [Char.isDigit, Bool.and_eq_true, decide_eq_true_eq, ge_iff_le,
    UInt32.le_iff_toNat_le, Char.toNat_val] at digit
  simp [isBlank, blankRanges] at digit ⊢
  omega

theorem toLower_eq_self {c : Char} (small : c.isUpper = false) : c.toLower = c :=
  dif_neg (of_decide_eq_false small)

/-- Only letters have a case. -/
theorem isAlpha_or_toLower_eq (c : Char) : c.isAlpha = true ∨ c.toLower = c := by
  cases upper : c.isUpper with
  | true => exact .inl (Bool.or_eq_true_iff.mpr (.inl upper))
  | false => exact .inr (toLower_eq_self upper)

/-- The lowercase of a letter is a letter, and its own lowercase. -/
theorem toLower_letter {c : Char} (letter : c.isAlpha = true) :
    c.toLower.isAlpha = true ∧ c.toLower.toLower = c.toLower := by
  cases upper : c.isUpper with
  | false =>
    rw [toLower_eq_self upper]
    exact ⟨letter, toLower_eq_self upper⟩
  | true =>
    have within := of_decide_eq_true upper
    have bounds : 65 ≤ c.val.toNat ∧ c.val.toNat ≤ 90 := by
      simp only [ge_iff_le, UInt32.le_iff_toNat_le] at within
      exact within
    have shifted : c.toLower.val.toNat = c.val.toNat + 32 := by
      have moved : c.toLower.val = c.val + 32 := congrArg Char.val (dif_pos within)
      rw [moved, UInt32.toNat_add]
      change (c.val.toNat + 32) % 4294967296 = _
      omega
    have lower : c.toLower.isLower = true := by
      have least : 97 ≤ c.toLower.val.toNat := by omega
      have greatest : c.toLower.val.toNat ≤ 122 := by omega
      exact Bool.and_eq_true_iff.mpr ⟨decide_eq_true least, decide_eq_true greatest⟩
    refine ⟨Bool.or_eq_true_iff.mpr (.inr lower), toLower_eq_self (decide_eq_false ?_)⟩
    simp only [ge_iff_le, UInt32.le_iff_toNat_le]
    change ¬(65 ≤ c.toLower.val.toNat ∧ c.toLower.val.toNat ≤ 90)
    omega

theorem toLower_eq_iff {c d : Char} (other : d.isAlpha = false) : c.toLower = d ↔ c = d := by
  rcases isAlpha_or_toLower_eq c with letter | same
  · have lower := (toLower_letter letter).1
    constructor
    · rintro rfl
      simp [lower] at other
    · rintro rfl
      simp [letter] at other
  · rw [same]

theorem isBlank_toLower (c : Char) : isBlank c.toLower = isBlank c := by
  rcases isAlpha_or_toLower_eq c with letter | same
  · rw [isBlank_of_isAlpha letter, isBlank_of_isAlpha (toLower_letter letter).1]
  · rw [same]

theorem trim_lowerAscii (text : List Char) : trim (lowerAscii text) = lowerAscii (trim text) := by
  have blank : isBlank ∘ Char.toLower = isBlank := funext isBlank_toLower
  simp only [trim, trimEnd, trimStart, lowerAscii, List.dropWhile_map, ← List.map_reverse, blank]

theorem split_lowerAscii {sep : Char} (other : sep.isAlpha = false) (text : List Char) :
    split sep (lowerAscii text) = (split sep text).map lowerAscii := by
  induction text with
  | nil => rfl
  | cons c rest ih =>
    rw [split, lowerAscii, List.map_cons, split]
    rw [lowerAscii] at ih
    rw [ih]
    simp only [toLower_eq_iff other]
    split
    · rfl
    · cases split sep rest <;> rfl

theorem join_lowerAscii {sep : Char} (other : sep.isAlpha = false) (parts : List (List Char)) :
    join sep (parts.map lowerAscii) = lowerAscii (join sep parts) := by
  have same : sep.toLower = sep := (toLower_eq_iff other).mpr rfl
  induction parts with
  | nil => rfl
  | cons part rest ih =>
    rw [List.map_cons, join_cons, join_cons, ih]
    by_cases last : rest = [] <;> simp [last, lowerAscii, same]

theorem lowerAscii_eq_iff {text other : List Char} (plain : ∀ c ∈ other, c.isAlpha = false) :
    lowerAscii text = other ↔ text = other := by
  induction text generalizing other with
  | nil => exact Iff.rfl
  | cons c rest ih =>
    cases other with
    | nil => simp [lowerAscii]
    | cons d other =>
      obtain ⟨first, later⟩ := List.forall_mem_cons.mp plain
      have tail := ih later
      rw [lowerAscii] at tail ⊢
      simp [toLower_eq_iff first, tail]

theorem lowerAscii_lowerAscii (text : List Char) :
    lowerAscii (lowerAscii text) = lowerAscii text := by
  simp only [lowerAscii, List.map_map]
  refine List.map_congr_left fun c _ => ?_
  rcases isAlpha_or_toLower_eq c with letter | same
  · exact (toLower_letter letter).2
  · simp [same]

theorem startsWith_lowerAscii {c : Char} (other : c.isAlpha = false) (text : List Char) :
    startsWith c (lowerAscii text) = startsWith c text := by
  cases text with
  | nil => rfl
  | cons first rest =>
    rw [Bool.eq_iff_iff]
    simp [startsWith, lowerAscii, toLower_eq_iff other]

theorem endsWith_lowerAscii {c : Char} (other : c.isAlpha = false) (text : List Char) :
    endsWith c (lowerAscii text) = endsWith c text := by
  rw [Bool.eq_iff_iff]
  simp [endsWith, lowerAscii, toLower_eq_iff other]

theorem trimStartOf_lowerAscii {c : Char} (other : c.isAlpha = false) (text : List Char) :
    trimStartOf c (lowerAscii text) = lowerAscii (trimStartOf c text) := by
  have same : (· == c) ∘ Char.toLower = (· == c) := by
    funext first
    rw [Bool.eq_iff_iff]
    simp [toLower_eq_iff other]
  rw [trimStartOf, lowerAscii, List.dropWhile_map, same]
  rfl

end DebugAdapter.Text

namespace DebugAdapter.Digits

theorem value_eq_ofDigitChars {digits : List Char} (decimal : ∀ c ∈ digits, c.isDigit = true) :
    value 10 digits = Nat.ofDigitChars 10 digits 0 := by
  refine List.foldl_ext _ _ _ fun n c occurs => ?_
  rw [digit?, if_pos (decimal c occurs), Option.getD_some, Nat.mul_comm]
  rfl

theorem word?_of_digits {text : List Char} (decimal : ∀ c ∈ text, c.isDigit = true)
    (given : text ≠ []) (fits : value 10 text < Word.limit64) :
    word? text = some (value 10 text) := by
  unfold word?
  split
  · exact absurd (decimal '+' List.mem_cons_self) (by decide)
  · simp [given, fits, List.all_eq_true.mpr decimal]

/-- The decimal notation of a word is read as that word. -/
theorem word?_toDigits {n : Nat} (fits : n < Word.limit64) :
    word? (Nat.toDigits 10 n) = some n := by
  have decimal : ∀ c ∈ Nat.toDigits 10 n, c.isDigit = true := fun _ occurs =>
    Nat.isDigit_of_mem_toDigits (by decide) (by decide) occurs
  have whole : value 10 (Nat.toDigits 10 n) = n := by
    rw [value_eq_ofDigitChars decimal, Nat.ofDigitChars_toDigits (by decide) (by decide)]
  rw [word?_of_digits decimal Nat.toDigits_ne_nil (whole.symm ▸ fits), whole]

end DebugAdapter.Digits
