import Mathlib.Data.String.Basic

/-! Texts come in the order of the bytes that encode them. -/

namespace TypeGraph.Text

/-- The bytes that encode a text in UTF-8. -/
def bytes (s : String) : List UInt8 := s.toUTF8.data.toList

/-- The bytes of a text are those of its characters in turn. -/
theorem bytes_eq (s : String) : bytes s = s.toList.flatMap String.utf8EncodeChar := by
  have encoded : s.toByteArray = s.toList.utf8Encode := by
    rw [← String.toByteArray_ofList, String.ofList_toList]
  rw [bytes, String.toUTF8, encoded, List.utf8Encode, List.toList_data_toByteArray]

/-- Bytes are compared as numbers, and equal ones leave it to what follows. -/
theorem ofNat_cons_lt {m n : Nat} {rest others : List UInt8} (bound : n < 256) (ordered : m ≤ n)
    (later : m = n → rest < others) : UInt8.ofNat m :: rest < UInt8.ofNat n :: others := by
  rw [List.cons_lt_cons_iff]
  rcases Nat.lt_or_eq_of_le ordered with less | same
  · left
    rw [UInt8.lt_iff_toNat_lt, UInt8.toNat_ofNat', UInt8.toNat_ofNat']
    omega
  · exact .inr ⟨congrArg _ same, later same⟩

/-- The bytes of a smaller character come first, whatever follows. -/
theorem utf8EncodeChar_lt {c d : Char} (less : c < d) (rest others : List UInt8) :
    String.utf8EncodeChar c ++ rest < String.utf8EncodeChar d ++ others := by
  have less : c.val.toNat < d.val.toNat := less
  have bound : d.val.toNat < 0x110000 := by
    rcases d.valid with small | ⟨-, large⟩
    · omega
    · exact large
  unfold String.utf8EncodeChar
  generalize c.val.toNat = m at less
  generalize d.val.toNat = n at less bound
  have smaller {a b : Nat} {xs ys : List UInt8} (less : a < b) (bound : b < 256) :
      UInt8.ofNat a :: xs < UInt8.ofNat b :: ys :=
    ofNat_cons_lt bound (Nat.le_of_lt less) fun same => absurd same (Nat.ne_of_lt less)
  -- Larger characters have no fewer bytes, and a longer code starts with a larger byte. Codes of
  -- one length are compared digit by digit.
  have length (k : Nat) : k ≤ 127 ∨ (127 < k ∧ k ≤ 2047) ∨ (2047 < k ∧ k ≤ 65535) ∨ 65535 < k := by
    omega
  rcases length m with one | two | three | four
  · rcases length n with same | longer | longer | longer <;>
      simp (disch := omega) only [if_pos, if_neg, List.cons_append, List.nil_append]
    all_goals exact smaller (by omega) (by omega)
  · rcases length n with shorter | same | longer | longer
    · omega
    all_goals simp (disch := omega) only [if_pos, if_neg, List.cons_append, List.nil_append]
    · exact ofNat_cons_lt (by omega) (by omega) fun _ => smaller (by omega) (by omega)
    · exact smaller (by omega) (by omega)
    · exact smaller (by omega) (by omega)
  · rcases length n with shorter | shorter | same | longer
    · omega
    · omega
    all_goals simp (disch := omega) only [if_pos, if_neg, List.cons_append, List.nil_append]
    · exact ofNat_cons_lt (by omega) (by omega) fun _ => ofNat_cons_lt (by omega) (by omega)
        fun _ => smaller (by omega) (by omega)
    · exact smaller (by omega) (by omega)
  · simp (disch := omega) only [if_neg, List.cons_append, List.nil_append]
    exact ofNat_cons_lt (by omega) (by omega) fun _ => ofNat_cons_lt (by omega) (by omega)
      fun _ => ofNat_cons_lt (by omega) (by omega) fun _ => smaller (by omega) (by omega)

/-- Texts that are in order have bytes that are in order. -/
theorem bytes_lt {s t : String} (less : s < t) : bytes s < bytes t := by
  rw [bytes_eq, bytes_eq]
  have less : List.Lex (· < ·) s.toList t.toList := String.lt_iff_toList_lt.mp less
  generalize s.toList = s at less
  generalize t.toList = t at less
  induction less with
  | nil =>
    -- A text that has ended comes before any byte.
    obtain ⟨first, rest, code⟩ := List.exists_cons_of_ne_nil String.utf8EncodeChar_ne_nil
    rw [List.flatMap_cons, code]
    exact .nil
  | rel less => exact utf8EncodeChar_lt less _ _
  | cons _ ih => exact List.append_left_lt ih

end TypeGraph.Text
