/-
  GridBench.Proofs.Text.Bytes

  Texts are compared character by character.  This is also the order of their
  UTF-8 bytes (`bytes_lt`): of two characters the first byte in which they
  differ is less for the one that comes first (`encode_lt`).
-/
import Mathlib.Data.List.Lex
import Mathlib.Data.String.Basic

namespace GridBench.Text

/-- The UTF-8 bytes of a text. -/
def bytes (s : String) : List UInt8 := s.toUTF8.data.toList

theorem bytes_eq_flatMap (s : String) : bytes s = s.toList.flatMap String.utf8EncodeChar := by
  rw [bytes, String.toUTF8, ← String.utf8Encode_toList, List.utf8Encode]
  simp

/-- Characters in increasing order have bytes in increasing order, whatever follows them. -/
theorem encode_lt {c d : Char} (h : c < d) (x y : List UInt8) :
    String.utf8EncodeChar c ++ x < String.utf8EncodeChar d ++ y := by
  have hlt : c.val.toNat < d.val.toNat := h
  have hmax : d.val.toNat < 0x110000 := by
    rcases d.valid with hlow | hhigh
    · exact Nat.lt_trans hlow (by decide)
    · exact hhigh.2
  unfold String.utf8EncodeChar
  generalize c.val.toNat = m at *
  generalize d.val.toNat = n at *
  -- The bytes are digits to the base 64 behind a mark that grows with their number.
  have hdigits (k : Nat) : k / 4096 = k / 64 / 64 ∧ k / 262144 = k / 64 / 64 / 64 := by omega
  simp only [(hdigits m).1, (hdigits m).2, (hdigits n).1, (hdigits n).2]
  split_ifs
  all_goals
    simp only [List.cons_append, List.nil_append, List.cons_lt_cons_iff, UInt8.lt_iff_toNat_lt,
      ← UInt8.toNat_inj, UInt8.toNat_ofNat']
    omega

/-- Texts in increasing order have bytes in increasing order. -/
theorem bytes_lt {s t : String} (h : s < t) : bytes s < bytes t := by
  rw [bytes_eq_flatMap, bytes_eq_flatMap]
  have hlex : s.toList.Lex (· < ·) t.toList := h
  generalize s.toList = cs at hlex ⊢
  generalize t.toList = ds at hlex ⊢
  induction hlex with
  | @nil d ds =>
    match he : String.utf8EncodeChar d with
    | [] => exact absurd he String.utf8EncodeChar_ne_nil
    | b :: bs =>
      rw [List.flatMap_cons, he]
      exact .nil
  | cons _ ih => exact List.Lex.append_left _ ih _
  | rel hlt => exact encode_lt hlt _ _

end GridBench.Text
