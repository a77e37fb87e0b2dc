import DebugAdapter.Text.Utf8
import Mathlib.Data.List.Basic

/-! Reading back what was encoded gives the same characters. Only the first byte of a character
continues none, so text can be cut before it. -/
namespace DebugAdapter.Text.Utf8

theorem start_single : ∀ n < 0x80, start (.ofNat n) = ([some (.ofNat n)], .ground) := by
  decide

theorem start_double : ∀ n < 0x20, 2 ≤ n →
    start (.ofNat (n + 0xC0)) = ([], .inside 0 0x80 0xBF n) := by
  decide

/-- The second of three bytes is bounded below where the form would be overlong, and above where it
would be a surrogate. -/
theorem start_triple : ∀ n < 0x10, start (.ofNat (n + 0xE0)) =
    ([], .inside 1 (if n = 0 then 0xA0 else 0x80) (if n = 0xD then 0x9F else 0xBF) n) := by
  decide

theorem start_quadruple : ∀ n < 5, start (.ofNat (n + 0xF0)) =
    ([], .inside 2 (if n = 0 then 0x90 else 0x80) (if n = 4 then 0x8F else 0xBF) n) := by
  decide

theorem isContinuation_ofNat : ∀ n < 0x100,
    isContinuation (.ofNat n) = decide (0x80 ≤ n ∧ n < 0xC0) := by
  decide +kernel

variable {n value : Nat} {low high : UInt8}

theorem continuation_toNat (small : n < 0x40) : (UInt8.ofNat (n + 0x80)).toNat = n + 0x80 := by
  rw [UInt8.toNat_ofNat']
  omega

theorem step_more (more : Nat) (small : n < 0x40) (least : low.toNat ≤ n + 0x80)
    (greatest : n + 0x80 ≤ high.toNat) :
    step (.inside (more + 1) low high value) (.ofNat (n + 0x80)) =
      ([], .inside more 0x80 0xBF (value * 64 + n)) := by
  have within : low ≤ .ofNat (n + 0x80) ∧ .ofNat (n + 0x80) ≤ high := by
    simp only [UInt8.le_iff_toNat_le, continuation_toNat small]
    exact ⟨least, greatest⟩
  simp only [step, within, and_self, if_true, continuation_toNat small, Nat.add_sub_cancel]

theorem step_free (more : Nat) (small : n < 0x40) :
    step (.inside (more + 1) 0x80 0xBF value) (.ofNat (n + 0x80)) =
      ([], .inside more 0x80 0xBF (value * 64 + n)) :=
  step_more more small (Nat.le_add_left _ _) (by change n + 0x80 ≤ 0xBF; omega)

theorem step_last (small : n < 0x40) :
    step (.inside 0 0x80 0xBF value) (.ofNat (n + 0x80)) =
      ([some (.ofNat (value * 64 + n))], .ground) := by
  have within : (0x80 : UInt8) ≤ .ofNat (n + 0x80) ∧ .ofNat (n + 0x80) ≤ (0xBF : UInt8) := by
    simp only [UInt8.le_iff_toNat_le, continuation_toNat small]
    change 0x80 ≤ n + 0x80 ∧ n + 0x80 ≤ 0xBF
    omega
  simp only [step, within, and_self, if_true, continuation_toNat small, Nat.add_sub_cancel]

/-- A character is read when its last byte is, whatever follows. -/
theorem marksFrom_encoded (c : Char) (rest : List UInt8) :
    marksFrom .ground (String.utf8EncodeChar c ++ rest) = some c :: marksFrom .ground rest := by
  have valid : c.val.toNat < 0xD800 ∨ 0xDFFF < c.val.toNat ∧ c.val.toNat < 0x110000 := c.valid
  have code : Char.ofNat c.val.toNat = c := c.ofNat_toNat
  unfold String.utf8EncodeChar
  dsimp only
  generalize c.val.toNat = v at valid code ⊢
  split_ifs with single double triple
  · simp only [List.cons_append, List.nil_append, marksFrom, step,
      start_single v (by omega), code]
  · have whole : v / 64 % 32 * 64 + v % 64 = v := by omega
    simp only [List.cons_append, List.nil_append, marksFrom, step.eq_1,
      start_double (v / 64 % 32) (by omega) (by omega), step_last (show v % 64 < 0x40 by omega),
      whole, code]
  · have whole : (v / 4096 % 16 * 64 + v / 64 % 64) * 64 + v % 64 = v := by omega
    have least : (if v / 4096 % 16 = 0 then (0xA0 : UInt8) else 0x80).toNat ≤ v / 64 % 64 + 0x80 := by
      split
      · change 0xA0 ≤ v / 64 % 64 + 0x80
        omega
      · exact Nat.le_add_left _ _
    have greatest : v / 64 % 64 + 0x80 ≤
        (if v / 4096 % 16 = 0xD then (0x9F : UInt8) else 0xBF).toNat := by
      split <;> simp <;> omega
    simp only [List.cons_append, List.nil_append, marksFrom, step.eq_1,
      start_triple (v / 4096 % 16) (by omega), step_more 0 (by omega) least greatest,
      step_last (show v % 64 < 0x40 by omega), whole, code]
  · have whole : ((v / 262144 % 8 * 64 + v / 4096 % 64) * 64 + v / 64 % 64) * 64 + v % 64 = v := by
      omega
    have least : (if v / 262144 % 8 = 0 then (0x90 : UInt8) else 0x80).toNat ≤
        v / 4096 % 64 + 0x80 := by
      split
      · change 0x90 ≤ v / 4096 % 64 + 0x80
        omega
      · exact Nat.le_add_left _ _
    have greatest : v / 4096 % 64 + 0x80 ≤
        (if v / 262144 % 8 = 4 then (0x8F : UInt8) else 0xBF).toNat := by
      split <;> simp <;> omega
    simp only [List.cons_append, List.nil_append, marksFrom, step.eq_1,
      start_quadruple (v / 262144 % 8) (by omega), step_more 1 (by omega) least greatest,
      step_free 0 (show v / 64 % 64 < 0x40 by omega), step_last (show v % 64 < 0x40 by omega),
      whole, code]

theorem encode_cons (c : Char) (text : List Char) :
    encode (c :: text) = String.utf8EncodeChar c ++ encode text :=
  rfl

theorem marksFrom_encode (text : List Char) (rest : List UInt8) :
    marksFrom .ground (encode text ++ rest) = text.map some ++ marksFrom .ground rest := by
  induction text with
  | nil => rfl
  | cons c text ih =>
    rw [encode_cons, List.append_assoc, marksFrom_encoded, ih]
    rfl

theorem decode_encode (text : List Char) : decode (encode text) = text := by
  have read := marksFrom_encode text []
  rw [List.append_nil] at read
  simp only [decode, marks, read, marksFrom, finish, List.append_nil, List.map_map]
  exact List.map_id text

theorem decode?_encode (text : List Char) : decode? (encode text) = some text := by
  have read := marksFrom_encode text []
  rw [List.append_nil] at read
  have whole : (text.map some).mapM id = some (text.map id) := by
    rw [List.mapM_map]
    exact List.mapM_pure
  simpa only [decode?, marks, read, marksFrom, finish, List.append_nil, List.map_id] using whole

theorem encode_append (first second : List Char) :
    encode (first ++ second) = encode first ++ encode second :=
  List.flatMap_append

theorem encode_singleton (c : Char) : encode [c] = String.utf8EncodeChar c :=
  List.append_nil _

theorem encode_eq_nil {text : List Char} : encode text = [] ↔ text = [] := by
  constructor
  · intro empty
    rw [← decode_encode text, empty]
    rfl
  · rintro rfl
    rfl

/-- One byte starts a character and the others continue it. A byte of ASCII is the whole of its
character. -/
theorem utf8EncodeChar_shape (c : Char) : ∃ first rest, String.utf8EncodeChar c = first :: rest ∧
    isContinuation first = false ∧ (∀ b ∈ rest, isContinuation b = true) ∧
    (first.toNat < 0x80 → c = Char.ofNat first.toNat ∧ rest = []) := by
  have valid : c.val.toNat < 0xD800 ∨ 0xDFFF < c.val.toNat ∧ c.val.toNat < 0x110000 := c.valid
  have code : Char.ofNat c.val.toNat = c := c.ofNat_toNat
  have continues : ∀ n, isContinuation (.ofNat (n % 64 + 0x80)) = true := by
    intro n
    rw [isContinuation_ofNat _ (by omega)]
    exact decide_eq_true (by omega)
  have starts : ∀ n < 0x100, 0xC0 ≤ n → isContinuation (.ofNat n) = false ∧
      ¬(UInt8.ofNat n).toNat < 0x80 := by
    intro n small large
    rw [isContinuation_ofNat _ small, UInt8.toNat_ofNat']
    exact ⟨decide_eq_false (by omega), by omega⟩
  unfold String.utf8EncodeChar
  dsimp only
  generalize c.val.toNat = v at valid code ⊢
  split_ifs with single double triple
  · refine ⟨_, _, rfl, ?_, by simp, fun _ => ?_⟩
    · rw [isContinuation_ofNat _ (by omega)]
      exact decide_eq_false (by omega)
    · rw [UInt8.toNat_ofNat', Nat.mod_eq_of_lt (by omega)]
      exact ⟨code.symm, rfl⟩
  · obtain ⟨first, large⟩ := starts (v / 64 % 32 + 0xC0) (by omega) (by omega)
    refine ⟨_, _, rfl, first, ?_, fun ascii => absurd ascii large⟩
    simp only [List.forall_mem_cons, continues, List.not_mem_nil, false_imp_iff, implies_true,
      and_self]
  · obtain ⟨first, large⟩ := starts (v / 4096 % 16 + 0xE0) (by omega) (by omega)
    refine ⟨_, _, rfl, first, ?_, fun ascii => absurd ascii large⟩
    simp only [List.forall_mem_cons, continues, List.not_mem_nil, false_imp_iff, implies_true,
      and_self]
  · obtain ⟨first, large⟩ := starts (v / 262144 % 8 + 0xF0) (by omega) (by omega)
    refine ⟨_, _, rfl, first, ?_, fun ascii => absurd ascii large⟩
    simp only [List.forall_mem_cons, continues, List.not_mem_nil, false_imp_iff, implies_true,
      and_self]

theorem mem_of_mem_encode {text : List Char} {b : UInt8} (occurs : b ∈ encode text)
    (ascii : b.toNat < 0x80) : Char.ofNat b.toNat ∈ text := by
  obtain ⟨c, found, within⟩ := List.mem_flatMap.mp occurs
  obtain ⟨first, rest, shape, -, continues, whole⟩ := utf8EncodeChar_shape c
  rw [shape] at within
  rcases List.mem_cons.mp within with rfl | later
  · exact (whole ascii).1 ▸ found
  · have continuation := continues b later
    rw [← UInt8.ofNat_toNat (x := b), isContinuation_ofNat _ (by omega)] at continuation
    have := of_decide_eq_true continuation
    omega

def State.Proper : State → Prop
  | .ground => True
  | .inside _ low high _ => 0x80 ≤ low ∧ high ≤ 0xBF

/-- What a first byte leads to: one mark, or a character that is open. -/
inductive Begun : List Mark × State → Prop where
  | marked (mark : Mark) : Begun ([mark], .ground)
  | opened {more : Nat} {low high : UInt8} {value : Nat} :
      (State.inside more low high value).Proper → Begun ([], .inside more low high value)

theorem start_begun (b : UInt8) : Begun (start b) := by
  unfold start
  repeat' refine iteInduction (fun _ => ?_) fun _ => ?_
  all_goals first
    | exact .marked _
    | exact .opened ⟨by decide, by decide⟩

theorem Begun.proper {begun : List Mark × State} (first : Begun begun) : begun.2.Proper := by
  cases first with
  | marked mark => trivial
  | opened proper => exact proper

theorem start_proper (b : UInt8) : (start b).2.Proper :=
  (start_begun b).proper

theorem isContinuation_eq (b : UInt8) :
    isContinuation b = decide (0x80 ≤ b.toNat ∧ b.toNat < 0xC0) := by
  have small := b.toNat_lt
  rw [← isContinuation_ofNat b.toNat small, UInt8.ofNat_toNat]

theorem State.Proper.continues {more : Nat} {b : UInt8}
    (proper : (State.inside more low high value).Proper) (within : low ≤ b ∧ b ≤ high) :
    isContinuation b = true := by
  obtain ⟨least, greatest⟩ := proper
  simp only [UInt8.le_iff_toNat_le] at least greatest within
  change 0x80 ≤ low.toNat at least
  change high.toNat ≤ 0xBF at greatest
  rw [isContinuation_eq]
  exact decide_eq_true (by omega)

theorem step_proper {state : State} (proper : state.Proper) (b : UInt8) :
    (step state b).2.Proper := by
  cases state with
  | ground => exact start_proper b
  | inside more low high value =>
    simp only [step]
    split
    · cases more with
      | zero => trivial
      | succ more => exact ⟨by decide, by decide⟩
    · exact start_proper b

/-- A byte that continues no character ends the one that is open, as the end of the text does. -/
theorem step_fresh {state : State} (proper : state.Proper) {b : UInt8}
    (fresh : isContinuation b = false) :
    step state b = (finish state ++ (start b).1, (start b).2) := by
  cases state with
  | ground => rfl
  | inside more low high value =>
    have outside : ¬(low ≤ b ∧ b ≤ high) := by
      intro within
      rw [proper.continues within] at fresh
      contradiction
    rw [step, if_neg outside]
    rfl

theorem marksFrom_append {state : State} (proper : state.Proper) (front : List UInt8) {b : UInt8}
    (fresh : isContinuation b = false) (back : List UInt8) :
    marksFrom state (front ++ b :: back) = marksFrom state front ++ marks (b :: back) := by
  induction front generalizing state with
  | nil => simp only [List.nil_append, marks, marksFrom, step_fresh proper fresh, step.eq_1,
      List.append_assoc]
  | cons first front ih =>
    simp only [List.cons_append, marksFrom, ih (step_proper proper first), List.append_assoc]

/-- Any bytes, well-formed or not, may be cut before one that continues no character. -/
theorem decode_append (front : List UInt8) {back : List UInt8}
    (fresh : ∀ b ∈ back.head?, isContinuation b = false) :
    decode (front ++ back) = decode front ++ decode back := by
  cases back with
  | nil =>
    rw [List.append_nil]
    exact (List.append_nil _).symm
  | cons b back =>
    have proper : State.ground.Proper := trivial
    rw [decode, marks, marksFrom_append proper front (fresh b rfl) back, List.map_append]
    rfl

/-- The number of bytes that continue no character. -/
def starts (bytes : List UInt8) : Nat :=
  bytes.countP (!isContinuation ·)

theorem Begun.counts {begun : List Mark × State} (first : Begun begun) :
    begun.1.length + (finish begun.2).length = 1 := by
  cases first with
  | marked mark => rfl
  | opened proper => rfl

theorem start_counts (b : UInt8) : (start b).1.length + (finish (start b).2).length = 1 :=
  (start_begun b).counts

theorem step_counts {state : State} (proper : state.Proper) (b : UInt8) :
    (finish state).length + starts [b] ≤
      (step state b).1.length + (finish (step state b).2).length := by
  have counts := start_counts b
  have atMost : starts [b] ≤ 1 := List.countP_le_length
  cases state with
  | ground =>
    change 0 + starts [b] ≤ (start b).1.length + (finish (start b).2).length
    omega
  | inside more low high value =>
    rw [step]
    split
    · rename_i within
      have continuation : starts [b] = 0 := by simp [starts, proper.continues within]
      rw [continuation]
      cases more <;> simp [finish]
    · change 1 + starts [b] ≤ (start b).1.length + 1 + (finish (start b).2).length
      omega

theorem starts_le_marksFrom {state : State} (proper : state.Proper) (bytes : List UInt8) :
    (finish state).length + starts bytes ≤ (marksFrom state bytes).length := by
  induction bytes generalizing state with
  | nil => exact Nat.le_refl _
  | cons b rest ih =>
    have later := ih (step_proper proper b)
    have first := step_counts proper b
    have split : starts (b :: rest) = starts [b] + starts rest := by
      rw [← List.singleton_append, starts, List.countP_append]
      rfl
    simp only [marksFrom, List.length_append]
    omega

theorem starts_le_decode (bytes : List UInt8) : starts bytes ≤ (decode bytes).length := by
  have proper : State.ground.Proper := trivial
  have counts := starts_le_marksFrom proper bytes
  rw [decode, List.length_map]
  exact Nat.le_trans (Nat.le_add_left _ _) counts

/-- Bytes that begin in the middle of a character give a mark for that too. -/
theorem starts_lt_decode {b : UInt8} (continuation : isContinuation b = true)
    (rest : List UInt8) : starts (b :: rest) < (decode (b :: rest)).length := by
  have later := starts_le_marksFrom (start_proper b) rest
  have first := start_counts b
  have same : starts (b :: rest) = starts rest := by simp [starts, continuation]
  rw [decode, List.length_map, marks, marksFrom, List.length_append, same]
  change _ < (start b).1.length + (marksFrom (start b).2 rest).length
  omega

theorem starts_encode (text : List Char) : starts (encode text) = text.length := by
  induction text with
  | nil => rfl
  | cons c text ih =>
    obtain ⟨first, rest, shape, fresh, continues, -⟩ := utf8EncodeChar_shape c
    have inside : rest.countP (!isContinuation ·) = 0 := by
      rw [List.countP_eq_zero]
      intro b occurs
      simp [continues b occurs]
    rw [encode_cons, shape, starts, List.countP_append, List.countP_cons, inside, fresh]
    change 0 + 1 + starts (encode text) = text.length + 1
    rw [ih, Nat.zero_add, Nat.add_comm]

theorem encode_fresh (text : List Char) :
    ∀ b ∈ (encode text).head?, isContinuation b = false := by
  cases text with
  | nil => simp [encode]
  | cons c text =>
    obtain ⟨first, rest, shape, fresh, -, -⟩ := utf8EncodeChar_shape c
    simp [encode_cons, shape, fresh]

/-- Encoded text that is cut before a byte that continues no character is cut between two. -/
theorem encode_cut {text : List Char} {front back : List UInt8}
    (whole : encode text = front ++ back) (fresh : ∀ b ∈ back.head?, isContinuation b = false) :
    ∃ before, front = encode before := by
  induction text generalizing front with
  | nil =>
    obtain ⟨rfl, -⟩ := List.append_eq_nil_iff.mp whole.symm
    exact ⟨[], rfl⟩
  | cons c text ih =>
    obtain ⟨first, rest, shape, -, continues, -⟩ := utf8EncodeChar_shape c
    rw [encode_cons] at whole
    rcases List.append_eq_append_iff.mp whole with ⟨later, rfl, same⟩ | ⟨inner, cut, same⟩
    · obtain ⟨before, rfl⟩ := ih same
      exact ⟨c :: before, rfl⟩
    · cases inner with
      | nil =>
        rw [List.append_nil] at cut
        exact ⟨[c], by rw [encode_singleton, cut]⟩
      | cons b inner =>
        cases front with
        | nil => exact ⟨[], rfl⟩
        | cons start front =>
          obtain ⟨-, inside⟩ := List.cons.inj (shape.symm.trans cut)
          have continuation := continues b (by simp [inside])
          rw [fresh b (by simp [same])] at continuation
          contradiction

theorem encode_rest {text before : List Char} {back : List UInt8}
    (whole : encode text = encode before ++ back) : ∃ after, back = encode after := by
  have read : text.map some = before.map some ++ marks back := by
    have all := marksFrom_encode text []
    rw [List.append_nil, whole, marksFrom_encode before back] at all
    simpa only [marks, marksFrom, finish, List.append_nil] using all.symm
  obtain ⟨first, after, rfl, begun, -⟩ := List.map_eq_append_iff.mp read
  obtain rfl : first = before := List.map_injective_iff.mpr (fun _ _ => Option.some.inj) begun
  rw [encode_append] at whole
  exact ⟨after, (List.append_cancel_left whole).symm⟩

/-- A character is continued by at most three bytes in a row. -/
theorem encode_continued {text : List Char} {front run back : List UInt8}
    (whole : encode text = front ++ (run ++ back))
    (continues : ∀ b ∈ run, isContinuation b = true) : run.length ≤ 3 := by
  induction text generalizing front with
  | nil => simp_all [encode]
  | cons c text ih =>
    obtain ⟨first, rest, shape, fresh, -, -⟩ := utf8EncodeChar_shape c
    have short : rest.length ≤ 3 := by
      have size := String.length_utf8EncodeChar c
      rw [shape, List.length_cons] at size
      have := c.utf8Size_le_four
      omega
    rw [encode_cons, shape, List.cons_append] at whole
    cases front with
    | nil =>
      cases run with
      | nil => exact Nat.zero_le _
      | cons b run =>
        obtain ⟨rfl, -⟩ := List.cons.inj whole
        simp [fresh] at continues
    | cons start front =>
      -- The run ends with the rest of this character, or it belongs to a later one.
      rcases List.append_eq_append_iff.mp (List.cons.inj whole).2 with
        ⟨later, rfl, same⟩ | ⟨inner, rfl, same⟩
      · exact ih same
      · rw [List.length_append] at short
        rcases List.append_eq_append_iff.mp same with ⟨extra, rfl, -⟩ | ⟨extra, rfl, next⟩
        · rw [List.length_append] at short
          omega
        · cases extra with
          | nil =>
            rw [List.append_nil]
            omega
          | cons b extra =>
            have starts := encode_fresh text b (by rw [next]; rfl)
            rw [continues b (by simp)] at starts
            contradiction

end DebugAdapter.Text.Utf8
