import DebugAdapter.Proofs.Text.Utf8
import DebugAdapter.Text.Encoding

/-! The code page loses no byte, and of a text only the characters that it does not hold; in ASCII
it is the same as UTF-8. -/
namespace DebugAdapter.Text

namespace Utf8

theorem decode_ascii {bytes : List UInt8} (ascii : ∀ b ∈ bytes, b < 0x80) :
    decode bytes = bytes.map fun b => .ofNat b.toNat := by
  rw [decode, marks]
  induction bytes with
  | nil => rfl
  | cons b rest ih =>
    obtain ⟨first, later⟩ := List.forall_mem_cons.mp ascii
    rw [marksFrom, step, start, if_pos first, List.map_append, ih later]
    rfl

theorem encode_ascii {text : List Char} (ascii : ∀ c ∈ text, c.toNat < 0x80) :
    encode text = text.map fun c => .ofNat c.toNat := by
  induction text with
  | nil => rfl
  | cons c rest ih =>
    obtain ⟨first, later⟩ := List.forall_mem_cons.mp ascii
    have single : String.utf8EncodeChar c = [.ofNat c.toNat] := if_pos (Nat.le_of_lt_succ first)
    rw [encode_cons, ih later, single]
    rfl

end Utf8

namespace CodePage

variable {b : UInt8} {c : Char}

theorem decodeByte_ascii (ascii : b < 0x80) : decodeByte b = .ofNat b.toNat :=
  if_neg fun within => absurd ascii (UInt8.not_lt.mpr within.1)

theorem encodeChar_ascii (ascii : c.toNat < 0x80) : encodeChar c = .ofNat c.toNat :=
  if_pos (.inl ascii)

theorem encodeChar_decodeByte_ofNat :
    ∀ n < 0x100, encodeChar (decodeByte (.ofNat n)) = .ofNat n := by
  decide +kernel

/-- No two bytes stand for the same character. -/
theorem encodeChar_decodeByte (b : UInt8) : encodeChar (decodeByte b) = b := by
  have same := encodeChar_decodeByte_ofNat b.toNat b.toNat_lt
  rwa [UInt8.ofNat_toNat] at same

theorem decodeByte_high : ∀ index < high.length, ∀ code ∈ high[index]?, code ≠ 0 →
    decodeByte (.ofNat (0x80 + index)) = .ofNat code := by
  decide

theorem decodeByte_hole : ∀ index < high.length, high[index]? = some 0 →
    decodeByte (.ofNat (0x80 + index)) = .ofNat (0x80 + index) := by
  decide

theorem decodeByte_own : ∀ n < 0x100, n < 0x80 ∨ 0xA0 ≤ n →
    decodeByte (.ofNat n) = .ofNat n := by
  decide +kernel

/-- A character is written as a byte that stands for it, or it is not known to the page. -/
theorem decodeByte_encodeChar (c : Char) :
    encodeChar c = unknown ∨ decodeByte (encodeChar c) = c := by
  have own : Char.ofNat c.toNat = c := Char.ofNat_toNat c
  unfold encodeChar
  dsimp only
  split
  · rename_i plain
    right
    rw [decodeByte_own c.toNat (by omega) (by omega), own]
  · split
    · rename_i index found
      right
      obtain ⟨small, holds, -⟩ := List.findIdx?_eq_some_iff_getElem.mp found
      simp only [Bool.and_eq_true, decide_eq_true_eq] at holds
      rw [decodeByte_high index small high[index] (List.getElem?_eq_getElem small) holds.1,
        holds.2, own]
    · split
      · rename_i hole
        right
        have same := decodeByte_hole (c.toNat - 0x80) (by change _ < 32; omega) hole.2.2
        rwa [Nat.add_sub_cancel' hole.1, own] at same
      · exact .inl rfl

end CodePage

namespace Encoding

/-- A character that some bytes in the code page are read as. -/
def Held (c : Char) : Prop :=
  ∃ bytes, c ∈ Encoding.ansi.decodeChars bytes

theorem decode_ascii {bytes : List UInt8} (ascii : isAscii bytes = true) :
    Utf8.decode bytes = CodePage.decode bytes := by
  have each : ∀ b ∈ bytes, b < 0x80 := by simpa [isAscii] using ascii
  rw [Utf8.decode_ascii each]
  exact List.map_congr_left fun b occurs => (CodePage.decodeByte_ascii (each b occurs)).symm

theorem encode_ascii {text : List Char} (ascii : text.all (·.toNat < 0x80) = true) :
    Utf8.encode text = CodePage.encode text := by
  have each : ∀ c ∈ text, c.toNat < 0x80 := by simpa using ascii
  rw [Utf8.encode_ascii each]
  exact List.map_congr_left fun c occurs => (CodePage.encodeChar_ascii (each c occurs)).symm

theorem decodeChars_ansi (bytes : List UInt8) :
    Encoding.ansi.decodeChars bytes = CodePage.decode bytes :=
  ite_eq_right_iff.mpr decode_ascii

theorem encodeChars_ansi (text : List Char) :
    Encoding.ansi.encodeChars text = CodePage.encode text :=
  ite_eq_right_iff.mpr encode_ascii

theorem held_iff {c : Char} : Held c ↔ CodePage.decodeByte (CodePage.encodeChar c) = c := by
  constructor
  · rintro ⟨bytes, occurs⟩
    rw [decodeChars_ansi] at occurs
    obtain ⟨b, -, rfl⟩ := List.mem_map.mp occurs
    rw [CodePage.encodeChar_decodeByte]
  · intro same
    refine ⟨[CodePage.encodeChar c], ?_⟩
    rw [decodeChars_ansi, CodePage.decode, List.map_singleton, same]
    exact List.mem_singleton_self c

instance (c : Char) : Decidable (Held c) :=
  decidable_of_iff _ held_iff.symm

theorem decode_encodeChar (c : Char) :
    CodePage.decodeByte (CodePage.encodeChar c) = if Held c then c else '?' := by
  split
  · rename_i held
    exact held_iff.mp held
  · rename_i other
    rw [(CodePage.decodeByte_encodeChar c).resolve_right (mt held_iff.mpr other)]
    rfl

/-- The code page gives every byte back, and of a text the characters that it holds; UTF-8 gives
every text back. The shorter way of input that is ASCII alone makes no difference. -/
theorem decode_encode_held :
    (∀ bytes, Encoding.ansi.encode (Encoding.ansi.decode bytes) = bytes) ∧
    (∀ text, Encoding.ansi.decode (Encoding.ansi.encode text) =
      .ofList (text.toList.map fun c => if Held c then c else '?')) ∧
    (∀ text, Encoding.utf8.decode (Encoding.utf8.encode text) = text) ∧
    (∀ bytes, isAscii bytes = true → Utf8.decode bytes = CodePage.decode bytes) ∧
    ∀ text : List Char, text.all (·.toNat < 0x80) = true →
      Utf8.encode text = CodePage.encode text := by
  refine ⟨fun bytes => ?_, fun text => ?_, fun text => ?_, fun _ => decode_ascii,
    fun _ => encode_ascii⟩
  · rw [encode, decode, String.toList_ofList, encodeChars_ansi, decodeChars_ansi, CodePage.encode,
      CodePage.decode, List.map_map]
    exact (List.map_congr_left fun b _ => CodePage.encodeChar_decodeByte b).trans (List.map_id _)
  · rw [encode, decode, encodeChars_ansi, decodeChars_ansi, CodePage.encode, CodePage.decode,
      List.map_map]
    exact congrArg String.ofList (List.map_congr_left fun c _ => decode_encodeChar c)
  · rw [encode, decode, decodeChars, encodeChars, Utf8.decode_encode, String.ofList_toList]

/-- The euro sign is held, and the next character is not. -/
theorem decode_encode_euro :
    Encoding.ansi.decode (Encoding.ansi.encode "\u20AC\u20AD") = "\u20AC?" ∧
    Utf8.decode [0x61] = CodePage.decode [0x61] ∧ Utf8.encode ['a'] = CodePage.encode ['a'] :=
  ⟨(decode_encode_held.2.1 _).trans (by decide), decode_encode_held.2.2.2.1 _ (by decide),
    decode_encode_held.2.2.2.2 _ (by decide)⟩

end Encoding

end DebugAdapter.Text
