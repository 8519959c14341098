import Mathlib.Tactic.SplitIfs
import ShareKeeper.Roster

/-!
# The order of texts is the order of their bytes

Texts are compared by their characters, and characters by their code points. The bytes in which texts are
encoded are in the same order (`bytes_lt_iff`). For one character this is so whatever follows it
(`utf8EncodeChar_lt`): the first byte tells how long an encoding is, and the longer one has the greater
first byte, so two encodings differ at a place that both of them have.
-/

namespace ShareKeeper.Text

/-- The bytes that encode a text. -/
def bytes (s : String) : List UInt8 := s.toUTF8.data.toList

theorem bytes_eq_flatMap (s : String) : bytes s = s.toList.flatMap String.utf8EncodeChar := by
  rw [bytes, String.toUTF8_eq_toByteArray, ← String.utf8Encode_toList, List.utf8Encode,
    List.data_toByteArray]

/-! ## Encodings of one character -/

/-- The first byte decides, or else what is behind it. -/
theorem ofNat_cons_lt {a b : Nat} (ha : a < 256) (hb : b < 256) {as bs : List UInt8} {later : Prop}
    (hlater : later → as < bs) (h : a < b ∨ a = b ∧ later) :
    UInt8.ofNat a :: as < UInt8.ofNat b :: bs := by
  rw [List.cons_lt_cons_iff, UInt8.lt_iff_toNat_lt, UInt8.toNat_ofNat_of_lt' ha,
    UInt8.toNat_ofNat_of_lt' hb]
  exact h.imp_right (And.imp (congrArg UInt8.ofNat) hlater)

/-- **The greater character has the greater encoding,** whatever follows. -/
theorem utf8EncodeChar_lt {c d : Char} (h : c < d) (as bs : List UInt8) :
    String.utf8EncodeChar c ++ as < String.utf8EncodeChar d ++ bs := by
  have hcd : c.val.toNat < d.val.toNat := h
  have hd : d.val.toNat < 1114112 := by
    have := d.valid
    omega
  unfold String.utf8EncodeChar
  generalize c.val.toNat = m at *
  generalize d.val.toNat = n at *
  -- an encoding of more bytes has the greater first byte; of two encodings of the same length the first
  -- bytes that differ decide
  by_cases hn1 : n ≤ 127
  · have hm : m ≤ 127 := by omega
    simp only [if_pos hn1, if_pos hm]
    exact ofNat_cons_lt (by omega) (by omega) False.elim (by omega)
  by_cases hm1 : m ≤ 127
  · simp only [if_neg hn1, if_pos hm1]
    split_ifs <;> exact ofNat_cons_lt (by omega) (by omega) False.elim (.inl (by omega))
  by_cases hn2 : n ≤ 2047
  · have hm : m ≤ 2047 := by omega
    simp only [if_neg hn1, if_neg hm1, if_pos hn2, if_pos hm]
    exact ofNat_cons_lt (by omega) (by omega)
      (ofNat_cons_lt (by omega) (by omega) False.elim) (by omega)
  by_cases hm2 : m ≤ 2047
  · simp only [if_neg hn1, if_neg hm1, if_neg hn2, if_pos hm2]
    split_ifs <;> exact ofNat_cons_lt (by omega) (by omega) False.elim (.inl (by omega))
  by_cases hn3 : n ≤ 65535
  · have hm : m ≤ 65535 := by omega
    simp only [if_neg hn1, if_neg hm1, if_neg hn2, if_neg hm2, if_pos hn3, if_pos hm]
    exact ofNat_cons_lt (by omega) (by omega) (ofNat_cons_lt (by omega) (by omega)
      (ofNat_cons_lt (by omega) (by omega) False.elim)) (by omega)
  by_cases hm3 : m ≤ 65535
  · simp only [if_neg hn1, if_neg hm1, if_neg hn2, if_neg hm2, if_neg hn3, if_pos hm3]
    exact ofNat_cons_lt (by omega) (by omega) False.elim (.inl (by omega))
  · simp only [if_neg hn1, if_neg hm1, if_neg hn2, if_neg hm2, if_neg hn3, if_neg hm3]
    -- six bits at a time
    have hsix (k : Nat) : k / 4096 = k / 64 / 64 ∧ k / 262144 = k / 64 / 64 / 64 :=
      ⟨(Nat.div_div_eq_div_mul k 64 64).symm, by simp only [Nat.div_div_eq_div_mul]⟩
    simp only [(hsix m).1, (hsix m).2, (hsix n).1, (hsix n).2]
    exact ofNat_cons_lt (by omega) (by omega) (ofNat_cons_lt (by omega) (by omega)
      (ofNat_cons_lt (by omega) (by omega) (ofNat_cons_lt (by omega) (by omega) False.elim)))
      (by omega)

/-! ## Encodings of texts -/

theorem flatMap_utf8EncodeChar_lt {cs ds : List Char} (h : cs < ds) :
    cs.flatMap String.utf8EncodeChar < ds.flatMap String.utf8EncodeChar := by
  induction cs generalizing ds with
  | nil =>
    cases ds with
    | nil => exact absurd h (List.lt_irrefl _)
    | cons d ds =>
      obtain ⟨b, bs, hbs⟩ := List.exists_cons_of_ne_nil (String.utf8EncodeChar_ne_nil (c := d))
      rw [List.flatMap_nil, List.flatMap_cons, hbs, List.cons_append]
      exact List.nil_lt_cons _ _
  | cons c cs ih =>
    cases ds with
    | nil => exact absurd h (List.not_lt_nil _)
    | cons d ds =>
      rw [List.flatMap_cons, List.flatMap_cons]
      obtain hcd | ⟨rfl, hrest⟩ := List.cons_lt_cons_iff.1 h
      · exact utf8EncodeChar_lt hcd _ _
      · exact List.append_left_lt (ih hrest)

/-- **Texts are in the order of their bytes.** -/
theorem bytes_lt_iff {s t : String} : bytes s < bytes t ↔ s < t := by
  have hmono {s t : String} (h : s < t) : bytes s < bytes t := by
    rw [bytes_eq_flatMap, bytes_eq_flatMap]
    exact flatMap_utf8EncodeChar_lt (String.lt_iff.1 h)
  refine ⟨fun h => ?_, hmono⟩
  by_cases hst : s < t
  · exact hst
  · by_cases heq : s = t
    · rw [heq] at h
      exact absurd h (List.lt_irrefl _)
    · exact absurd h (List.lt_asymm (hmono (key_lt_of_not_lt hst heq)))

end ShareKeeper.Text
