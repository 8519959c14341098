import ShareKeeper.Text.Integer

/-!
# The grammar of decimal integers

What is read as an integer, said without the reader: digits and their value (`IsNumeral`), perhaps a sign in
front of them (`Natural`, `Integer`), and blanks around it all (`Padded`). The readers accept these texts and
no others, up to their limits (`readNatural_eq_ok_iff`, `readInteger_eq_ok_iff`).

What a trimmed text is read as can be said of the text itself: it is what the blanks stand around, if that
neither begins nor ends with a blank (`trim_iff_padded`).
-/

namespace ShareKeeper.Text

/-! ## Blanks around a text -/

def AllBlank (cs : List Char) : Prop := ∀ c ∈ cs, isBlank c = true

/-- A text that begins and ends with something else than a blank. -/
structure IsSolid (cs : List Char) : Prop where
  nonempty : cs ≠ []
  first : ∀ c ∈ cs.head?, isBlank c = false
  last : ∀ c ∈ cs.getLast?, isBlank c = false

theorem allBlank_iff {s : String} : AllBlank s.toList ↔ isBlankText s = true := by
  rw [isBlankText, List.all_eq_true]
  rfl

theorem AllBlank.reverse {cs : List Char} (h : AllBlank cs) : AllBlank cs.reverse :=
  fun c hc => h c (List.mem_reverse.1 hc)

theorem trimEnd_eq (cs : List Char) : trimEnd cs = (trimStart cs.reverse).reverse := rfl

theorem exists_allBlank_trimStart (cs : List Char) :
    ∃ before, AllBlank before ∧ cs = before ++ trimStart cs :=
  ⟨cs.takeWhile isBlank, fun _ hc => List.all_eq_true.1 List.all_takeWhile _ hc,
    List.takeWhile_append_dropWhile.symm⟩

/-- Trimming takes away blanks and nothing else. -/
theorem exists_allBlank_trim (cs : List Char) :
    ∃ before after, AllBlank before ∧ AllBlank after ∧ cs = before ++ trim cs ++ after := by
  obtain ⟨before, hbefore, hstart⟩ := exists_allBlank_trimStart cs
  obtain ⟨after, hafter, hend⟩ := exists_allBlank_trimStart (trimStart cs).reverse
  refine ⟨before, after.reverse, hbefore, hafter.reverse, ?_⟩
  rw [List.append_assoc, trim, trimEnd_eq, ← List.reverse_append, ← hend, List.reverse_reverse]
  exact hstart

theorem trimStart_cons {c : Char} (h : isBlank c = false) (rest : List Char) :
    trimStart (c :: rest) = c :: rest :=
  List.dropWhile_cons_of_neg (by simp [h])

theorem trimStart_append {before cs : List Char} (hbefore : AllBlank before)
    (hcs : ∀ c ∈ cs.head?, isBlank c = false) : trimStart (before ++ cs) = cs := by
  rw [trimStart, List.dropWhile_append_of_pos hbefore]
  cases cs with
  | nil => rfl
  | cons c cs => exact trimStart_cons (hcs c rfl) cs

/-- All blanks around a text are trimmed away. -/
theorem trim_append {before core after : List Char} (hbefore : AllBlank before)
    (hafter : AllBlank after) (hcore : IsSolid core) : trim (before ++ core ++ after) = core := by
  have hfirst : ∀ c ∈ (core ++ after).head?, isBlank c = false := by
    obtain ⟨c, rest, rfl⟩ := List.exists_cons_of_ne_nil hcore.nonempty
    exact hcore.first
  have hlast : ∀ c ∈ core.reverse.head?, isBlank c = false := by
    rw [List.head?_reverse]
    exact hcore.last
  rw [List.append_assoc, trim, trimStart_append hbefore hfirst, trimEnd_eq, List.reverse_append,
    trimStart_append hafter.reverse hlast, List.reverse_reverse]

/-- **Trimming leaves nothing** of a text of blanks, and of no other. -/
theorem trim_eq_nil_iff {s : String} : trim s.toList = [] ↔ isBlankText s = true := by
  rw [← allBlank_iff]
  constructor
  · intro h
    obtain ⟨before, after, hbefore, hafter, heq⟩ := exists_allBlank_trim s.toList
    rw [heq, h, List.append_nil]
    exact fun c hc => (List.mem_append.1 hc).elim (hbefore c) (hafter c)
  · intro h
    have hstart : trimStart (s.toList ++ []) = [] := trimStart_append h (by simp)
    rw [List.append_nil] at hstart
    rw [trim, hstart]
    rfl

/-- A text in which blanks stand around something of a kind. -/
def Padded (kind : List Char → Prop) (s : String) : Prop :=
  ∃ before core after, AllBlank before ∧ AllBlank after ∧ s.toList = before ++ core ++ after ∧ kind core

/-- **What is left of a trimmed text is what the blanks stand around.** -/
theorem trim_iff_padded {kind : List Char → Prop} (hkind : ∀ core, kind core → IsSolid core)
    {s : String} : kind (trim s.toList) ↔ Padded kind s := by
  constructor
  · intro h
    obtain ⟨before, after, hbefore, hafter, heq⟩ := exists_allBlank_trim s.toList
    exact ⟨before, _, after, hbefore, hafter, heq, h⟩
  · rintro ⟨before, core, after, hbefore, hafter, heq, hcore⟩
    rwa [heq, trim_append hbefore hafter (hkind core hcore)]

/-! ## Digits -/

/-- ASCII digits, at least one, and the number they denote. -/
structure IsNumeral (ds : List Char) (n : Nat) : Prop where
  nonempty : ds ≠ []
  digits : ∀ c ∈ ds, c.isDigit = true
  value : Nat.ofDigitChars 10 ds 0 = n

theorem isBlank_of_isDigit {c : Char} (h : c.isDigit = true) : isBlank c = false := by
  rw [Char.isDigit_iff_toNat] at h
  have hlow : 48 ≤ c.toNat := h.1
  have hhigh : c.toNat ≤ 57 := h.2
  simp only [isBlank, Text.blankRanges, List.any_cons, List.any_nil, Bool.or_eq_false_iff,
    Bool.and_eq_false_iff, decide_eq_false_iff_not, and_true]
  omega

theorem le_ofDigitChars (ds : List Char) (value : Nat) : value ≤ Nat.ofDigitChars 10 ds value := by
  rw [Nat.ofDigitChars_eq_ofDigitChars_zero]
  have hpos : 0 < 10 ^ ds.length := Nat.pow_pos (by decide)
  exact Nat.le_trans (Nat.le_mul_of_pos_left value hpos) (Nat.le_add_right _ _)

theorem ofDigitChars_cons_eq (c : Char) (ds : List Char) (value : Nat) :
    Nat.ofDigitChars 10 (c :: ds) value = Nat.ofDigitChars 10 ds (value * 10 + digitValue c) := by
  rw [Nat.ofDigitChars_cons, Nat.mul_comm]
  rfl

/-- **Digits are read as the number they denote.** It is enough to ask at the end whether it stays within
the limit: with more digits a number never becomes smaller. -/
theorem readDigits_eq_ok_iff {limit value n : Nat} {cs : List Char} (hvalue : value ≤ limit) :
    readDigits limit value cs = .ok n ↔
      (∀ c ∈ cs, c.isDigit = true) ∧ Nat.ofDigitChars 10 cs value = n ∧ n ≤ limit := by
  induction cs generalizing value with
  | nil =>
    rw [readDigits, Except.ok.injEq, Nat.ofDigitChars_nil]
    exact ⟨fun h => ⟨by simp, h, h ▸ hvalue⟩, fun h => h.2.1⟩
  | cons c cs ih =>
    rw [readDigits, List.forall_mem_cons, ofDigitChars_cons_eq]
    by_cases hc : c.isDigit = true
    · by_cases hle : value * 10 + digitValue c ≤ limit
      · rw [if_pos hc, if_pos hle, ih hle]
        simp only [hc, true_and]
      · rw [if_pos hc, if_neg hle]
        refine iff_of_false (fun h => nomatch h) ?_
        rintro ⟨-, rfl, h⟩
        exact hle (Nat.le_trans (le_ofDigitChars cs _) h)
    · rw [if_neg hc]
      exact iff_of_false (fun h => nomatch h) fun h => hc h.1.1

theorem readMagnitude_eq_ok_iff {limit n : Nat} {cs : List Char} :
    readMagnitude limit cs = .ok n ↔ IsNumeral cs n ∧ n ≤ limit := by
  unfold readMagnitude
  split
  · next hempty =>
    refine iff_of_false (fun h => nomatch h) fun h => h.1.nonempty (List.isEmpty_iff.1 hempty)
  · next hfull =>
    rw [readDigits_eq_ok_iff (Nat.zero_le _)]
    constructor
    · rintro ⟨hdigits, hvalue, hle⟩
      exact ⟨⟨fun h => hfull (List.isEmpty_iff.2 h), hdigits, hvalue⟩, hle⟩
    · rintro ⟨⟨-, hdigits, hvalue⟩, hle⟩
      exact ⟨hdigits, hvalue, hle⟩

namespace IsNumeral

variable {ds : List Char} {n : Nat} (h : IsNumeral ds n)
include h

theorem isSolid : IsSolid ds where
  nonempty := h.nonempty
  first := fun c hc => isBlank_of_isDigit (h.digits c (List.mem_of_mem_head? hc))
  last := fun c hc => isBlank_of_isDigit (h.digits c (List.mem_of_mem_getLast? hc))

theorem exists_cons : ∃ c cs, ds = c :: cs ∧ c.isDigit = true := by
  obtain ⟨c, cs, rfl⟩ := List.exists_cons_of_ne_nil h.nonempty
  exact ⟨c, cs, rfl, h.digits c List.mem_cons_self⟩

/-- Zeros in front make no difference. -/
theorem zeros_append (count : Nat) : IsNumeral (List.replicate count '0' ++ ds) n where
  nonempty := by
    intro hnil
    exact h.nonempty (List.append_eq_nil_iff.1 hnil).2
  digits := by
    intro c hc
    rcases List.mem_append.1 hc with hzero | hc
    · rw [List.eq_of_mem_replicate hzero]
      rfl
    · exact h.digits c hc
  value := by
    rw [Nat.ofDigitChars_append, Nat.ofDigitChars_replicate_zero, Nat.mul_zero, h.value]

/-- Digits do not begin with a character that is none, such as a sign. -/
theorem not_sign {c : Char} (hc : c.isDigit = false) (cs : List Char) : ds ≠ c :: cs := by
  rintro rfl
  rw [h.digits c List.mem_cons_self] at hc
  cases hc

theorem isSolid_signed {c : Char} (hc : isBlank c = false) : IsSolid (c :: ds) where
  nonempty := List.cons_ne_nil _ _
  first := by
    rintro _ ⟨⟩
    exact hc
  last := by
    rw [List.getLast?_cons_of_ne_nil h.nonempty]
    exact h.isSolid.last

end IsNumeral

theorem isNumeral_toDigits (n : Nat) : IsNumeral (Nat.toDigits 10 n) n where
  nonempty := Nat.toDigits_ne_nil
  digits := fun _ hc => Nat.isDigit_of_mem_toDigits (by decide) (by decide) hc
  value := Nat.ofDigitChars_ten_toDigits

/-! ## Signs -/

/-- Digits, with a plus sign if need be. -/
inductive Natural : List Char → Nat → Prop
  | plain {ds : List Char} {n : Nat} (h : IsNumeral ds n) : Natural ds n
  | plus {ds : List Char} {n : Nat} (h : IsNumeral ds n) : Natural ('+' :: ds) n

/-- Digits, with a sign if need be. -/
inductive Integer : List Char → Int → Prop
  | plain {ds : List Char} {n : Nat} (h : IsNumeral ds n) : Integer ds n
  | plus {ds : List Char} {n : Nat} (h : IsNumeral ds n) : Integer ('+' :: ds) n
  | minus {ds : List Char} {n : Nat} (h : IsNumeral ds n) : Integer ('-' :: ds) (-n)

theorem Natural.isSolid {cs : List Char} {n : Nat} (h : Natural cs n) : IsSolid cs := by
  cases h with
  | plain h => exact h.isSolid
  | plus h => exact h.isSolid_signed rfl

theorem Integer.isSolid {cs : List Char} {n : Int} (h : Integer cs n) : IsSolid cs := by
  cases h with
  | plain h => exact h.isSolid
  | plus h => exact h.isSolid_signed rfl
  | minus h => exact h.isSolid_signed rfl

/-- **A natural number is read off exactly the texts that denote one within the limit.** -/
theorem readNatural_eq_ok_iff {limit n : Nat} {cs : List Char} :
    readNatural limit cs = .ok n ↔ Natural cs n ∧ n ≤ limit := by
  constructor
  · intro h
    unfold readNatural at h
    split at h
    · cases h
    · exact (readMagnitude_eq_ok_iff.1 h).imp_left .plus
    · exact (readMagnitude_eq_ok_iff.1 h).imp_left .plain
  · rintro ⟨h, hle⟩
    cases h with
    | plus h => exact readMagnitude_eq_ok_iff.2 ⟨h, hle⟩
    | plain h =>
      unfold readNatural
      split
      · exact absurd rfl h.nonempty
      · exact absurd rfl (h.not_sign rfl _)
      · exact readMagnitude_eq_ok_iff.2 ⟨h, hle⟩

theorem neg_natCast_le (m n : Nat) : -(m : Int) ≤ n := by omega

/-- A number of which something is made, such as its opposite. -/
theorem map_readMagnitude_eq_ok_iff {limit : Nat} {f : Nat → Int} {n : Int} {cs : List Char} :
    (readMagnitude limit cs).map f = .ok n ↔ ∃ m, IsNumeral cs m ∧ m ≤ limit ∧ f m = n := by
  constructor
  · intro h
    cases hread : readMagnitude limit cs with
    | error e =>
      rw [hread] at h
      cases h
    | ok m =>
      rw [hread] at h
      cases h
      obtain ⟨hnumeral, hle⟩ := readMagnitude_eq_ok_iff.1 hread
      exact ⟨m, hnumeral, hle, rfl⟩
  · rintro ⟨m, hnumeral, hle, rfl⟩
    rw [readMagnitude_eq_ok_iff.2 ⟨hnumeral, hle⟩]
    rfl

theorem readInteger_minus (below above : Nat) (cs : List Char) :
    readInteger below above ('-' :: cs) = (readMagnitude below cs).map fun m => -Int.ofNat m := by
  show Except.map _ (readMagnitude below cs >>= _) = _
  cases readMagnitude below cs <;> rfl

/-- **An integer is read off exactly the texts that denote one within the limits.** -/
theorem readInteger_eq_ok_iff {below above : Nat} {n : Int} {cs : List Char} :
    readInteger below above cs = .ok n ↔ Integer cs n ∧ -(below : Int) ≤ n ∧ n ≤ above := by
  constructor
  · intro h
    unfold readInteger at h
    split at h
    · cases h
    · obtain ⟨m, hnumeral, hle, rfl⟩ := map_readMagnitude_eq_ok_iff.1 h
      exact ⟨.plus hnumeral, neg_natCast_le below m, Int.ofNat_le.2 hle⟩
    · next cs =>
      change readInteger below above ('-' :: cs) = .ok n at h
      rw [readInteger_minus] at h
      obtain ⟨m, hnumeral, hle, rfl⟩ := map_readMagnitude_eq_ok_iff.1 h
      exact ⟨.minus hnumeral, Int.neg_le_neg (Int.ofNat_le.2 hle), neg_natCast_le m above⟩
    · obtain ⟨m, hnumeral, hle, rfl⟩ := map_readMagnitude_eq_ok_iff.1 h
      exact ⟨.plain hnumeral, neg_natCast_le below m, Int.ofNat_le.2 hle⟩
  · rintro ⟨h, hbelow, habove⟩
    cases h with
    | plus h => exact map_readMagnitude_eq_ok_iff.2 ⟨_, h, Int.ofNat_le.1 habove, rfl⟩
    | minus h =>
      rw [readInteger_minus]
      exact map_readMagnitude_eq_ok_iff.2 ⟨_, h, Int.ofNat_le.1 (Int.le_of_neg_le_neg hbelow), rfl⟩
    | plain h =>
      unfold readInteger
      split
      · exact absurd rfl h.nonempty
      · exact absurd rfl (h.not_sign rfl _)
      · exact absurd rfl (h.not_sign rfl _)
      · exact map_readMagnitude_eq_ok_iff.2 ⟨_, h, Int.ofNat_le.1 habove, rfl⟩

/-- **The decimal form of an integer denotes it.** -/
theorem integer_toString (n : Int) : Integer (toString n).toList n := by
  rw [Int.toString_eq_repr, Int.repr_eq_if]
  split
  · next h =>
    have hplain := Integer.plain (isNumeral_toDigits n.toNat)
    rwa [Int.toNat_of_nonneg h, ← Nat.toList_repr] at hplain
  · next h =>
    have hminus := Integer.minus (isNumeral_toDigits (-n).toNat)
    rw [Int.toNat_of_nonneg (by omega), Int.neg_neg, ← Nat.toList_repr] at hminus
    rw [String.toList_append]
    exact hminus

end ShareKeeper.Text
