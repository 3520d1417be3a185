import Mathlib.Data.String.Basic

/-!
# The order of texts is the order of their bytes

Texts are compared character by character, and their UTF-8 bytes compare the same way (`bytes_lt`):
the code of a smaller character is smaller, and the two codes differ before the shorter one ends, so
that it does not matter what follows (`utf8EncodeChar_append_lt`).
-/

namespace StreamingTemplate.Text

/-- The bytes of a text in UTF-8. -/
def bytes (s : String) : List UInt8 := s.toUTF8.data.toList

/-- The bytes of a text are the codes of its characters, one behind the other. -/
theorem bytes_eq_flatMap (s : String) : bytes s = s.toList.flatMap String.utf8EncodeChar := by
  have hbytes : s.toUTF8 = s.toList.utf8Encode := by
    rw [String.toUTF8_eq_toByteArray, ← String.toByteArray_ofList, String.ofList_toList]
  rw [bytes, hbytes, List.utf8Encode]
  simp

/-! ## One character

A code has one to four bytes. Its first byte shows how many, and grows with their number; the
bytes of two codes of one length are the digits of the characters to the base 64, above a
constant for each byte. So the code of a smaller character is smaller at the first byte where the
two differ. -/

/-- Bytes compare as the numbers they are made of, if these fit into a byte, -/
theorem ofNat_lt_ofNat {m n : Nat} (hm : m < 256) (hn : n < 256) :
    UInt8.ofNat m < UInt8.ofNat n ↔ m < n := by
  rw [UInt8.lt_iff_toNat_lt, UInt8.toNat_ofNat_of_lt' hm, UInt8.toNat_ofNat_of_lt' hn]

theorem ofNat_eq_ofNat {m n : Nat} (hm : m < 256) (hn : n < 256) :
    UInt8.ofNat m = UInt8.ofNat n ↔ m = n := by
  rw [← UInt8.toNat_inj, UInt8.toNat_ofNat_of_lt' hm, UInt8.toNat_ofNat_of_lt' hn]

/-- **The smaller of two characters** has the smaller code, whatever follows the codes. -/
theorem utf8EncodeChar_append_lt {c d : Char} (h : c < d) (x y : List UInt8) :
    String.utf8EncodeChar c ++ x < String.utf8EncodeChar d ++ y := by
  have hlt : c.val.toNat < d.val.toNat := h
  have hd : d.val.toNat < 1114112 := by
    rcases d.valid with h | h
    · exact Nat.lt_trans h (by decide)
    · exact h.2
  simp only [String.utf8EncodeChar]
  generalize c.val.toNat = m at *
  generalize d.val.toNat = n at *
  -- no character is too large for the three bits that the first of four bytes has for it
  have hmtop : m / 262144 % 8 = m / 262144 := Nat.mod_eq_of_lt (by omega)
  have hntop : n / 262144 % 8 = n / 262144 := Nat.mod_eq_of_lt (by omega)
  -- codes of two lengths differ in their first byte, codes of one length in the first digit
  -- in which the characters do
  split_ifs <;>
    simp (disch := omega) only [List.cons_append, List.nil_append, List.cons_lt_cons_iff,
      ofNat_lt_ofNat, ofNat_eq_ofNat, hmtop, hntop] <;>
    omega

/-- Nothing comes before every code, as no code is empty. -/
theorem utf8EncodeChar_append_pos (c : Char) (x : List UInt8) :
    [] < String.utf8EncodeChar c ++ x := by
  cases hcode : String.utf8EncodeChar c with
  | nil => exact absurd hcode (by simp [String.utf8EncodeChar]; split_ifs <;> simp)
  | cons first rest => exact List.nil_lt_cons _ _

/-! ## Texts

The order of texts is lexical over characters. At the first character where they differ the codes
decide, with whatever follows behind them; up to there the bytes are equal. -/

theorem flatMap_utf8EncodeChar_lt {cs ds : List Char} (h : cs < ds) :
    cs.flatMap String.utf8EncodeChar < ds.flatMap String.utf8EncodeChar := by
  induction cs generalizing ds with
  | nil =>
    cases ds with
    | nil => exact absurd h (List.lt_irrefl _)
    | cons d ds => exact utf8EncodeChar_append_pos d _
  | cons c cs ih =>
    cases ds with
    | nil => exact absurd h (List.not_lt_nil _)
    | cons d ds =>
      rw [List.flatMap_cons, List.flatMap_cons]
      rcases List.cons_lt_cons_iff.mp h with hfirst | ⟨rfl, hrest⟩
      · exact utf8EncodeChar_append_lt hfirst _ _
      · exact List.append_left_lt (ih hrest)

/-- **The smaller of two texts** has the smaller bytes. -/
theorem bytes_lt {s t : String} (h : s < t) : bytes s < bytes t := by
  rw [bytes_eq_flatMap, bytes_eq_flatMap]
  exact flatMap_utf8EncodeChar_lt (String.lt_iff.mp h)

end StreamingTemplate.Text
