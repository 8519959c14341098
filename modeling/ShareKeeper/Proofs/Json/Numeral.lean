import ShareKeeper.Json.Numeral

/-!
# Where a number ends

A number is read the same whatever stands behind it, as long as that cannot be part of the number
(`Ends`). Digits are gathered up to the first character that is none, and how they are divided into
those that count and those that are passed over does not depend on what that character is. From this the
same is shown for the scanners one after another, up to the whole numeral (`scan_reads`): of the text that
a scanner was given it took a piece, and it takes this piece, and finds the same number in it, at any
offset and in front of anything that ends a number.
-/

namespace ShareKeeper.Json.Numeral

open Text (digitValue)

/-! ## Ends -/

/-- What may stand behind digits. -/
def EndsDigits (left : List Char) : Prop := ∀ c ∈ left.head?, c.isDigit = false

/-- What may stand behind a number. -/
def Ends (left : List Char) : Prop :=
  ∀ c ∈ left.head?, c.isDigit = false ∧ c ≠ '.' ∧ c ≠ 'e' ∧ c ≠ 'E'

variable {left : List Char}

theorem Ends.endsDigits (h : Ends left) : EndsDigits left := fun c hc => (h c hc).1

theorem endsDigits_cons {c : Char} (h : c.isDigit = false) (rest : List Char) :
    EndsDigits (c :: rest) := by
  rintro _ ⟨⟩
  exact h

/-- The digits at the beginning of a text, and what stands behind them. -/
theorem exists_digits (cs : List Char) :
    ∃ k left, cs = k ++ left ∧ (∀ c ∈ k, c.isDigit = true) ∧ EndsDigits left := by
  induction cs with
  | nil => exact ⟨[], [], rfl, fun c hc => absurd hc List.not_mem_nil, fun c hc => by cases hc⟩
  | cons c rest ih =>
    cases hc : c.isDigit with
    | false =>
      exact ⟨[], c :: rest, rfl, fun d hd => absurd hd List.not_mem_nil, endsDigits_cons hc rest⟩
    | true =>
      obtain ⟨k, left, rfl, hk, hleft⟩ := ih
      exact ⟨c :: k, left, rfl, List.forall_mem_cons.2 ⟨hc, hk⟩, hleft⟩

/-! ## Digits -/

section Digits

variable {k : List Char} (hk : ∀ c ∈ k, c.isDigit = true)
include hk

theorem passDigits_append (hleft : EndsDigits left) (count : Nat) :
    passDigits count (k ++ left) = (count + k.length, left) := by
  induction k generalizing count with
  | nil =>
    cases left with
    | nil => rfl
    | cons c rest =>
      have hc : c.isDigit = false := hleft c rfl
      simp [passDigits, hc]
  | cons c k ih =>
    obtain ⟨hc, hk⟩ := List.forall_mem_cons.1 hk
    rw [List.cons_append, passDigits, if_pos hc, ih hk, List.length_cons, Nat.add_right_comm]
    rfl

/-- The digits that do not fit the significand are left. -/
theorem gather_append (significand count : Nat) : ∃ s n t, (∀ c ∈ t, c.isDigit = true) ∧
    ∀ left, EndsDigits left → gather significand count (k ++ left) = (s, n, t ++ left) := by
  induction k generalizing significand count with
  | nil =>
    refine ⟨significand, count, [], fun c hc => absurd hc List.not_mem_nil, fun left hleft => ?_⟩
    cases left with
    | nil => rfl
    | cons c rest =>
      have hc : c.isDigit = false := hleft c rfl
      simp [gather, hc]
  | cons c k ih =>
    obtain ⟨hc, hk'⟩ := List.forall_mem_cons.1 hk
    by_cases hfits : significand * 10 + digitValue c ≤ greatest
    · obtain ⟨s, n, t, ht, hgather⟩ := ih hk' (significand * 10 + digitValue c) (count + 1)
      refine ⟨s, n, t, ht, fun left hleft => ?_⟩
      rw [List.cons_append, gather, hc, decide_eq_true hfits, Bool.and_self, if_pos rfl]
      exact hgather left hleft
    · refine ⟨significand, count, c :: k, hk, fun left _ => ?_⟩
      rw [List.cons_append, gather, hc, decide_eq_false hfits, Bool.and_false,
        if_neg Bool.false_ne_true]

/-- The digits after the one with which an exponent went beyond all bounds are left. -/
theorem exponentDigits_append (value : Nat) :
    ∃ e t, (∀ c ∈ t, c.isDigit = true) ∧ (e.isSome = true → t = []) ∧
      ∀ offset left, EndsDigits left →
        ∃ offset', exponentDigits value offset (k ++ left) = (e, t ++ left, offset') := by
  induction k generalizing value with
  | nil =>
    refine ⟨some value, [], fun c hc => absurd hc List.not_mem_nil, fun _ => rfl,
      fun offset left hleft => ⟨offset, ?_⟩⟩
    cases left with
    | nil => rfl
    | cons c rest =>
      have hc : c.isDigit = false := hleft c rfl
      simp [exponentDigits, hc]
  | cons c k ih =>
    obtain ⟨hc, hk'⟩ := List.forall_mem_cons.1 hk
    by_cases hfits : value * 10 + digitValue c ≤ greatestExponent
    · obtain ⟨e, t, ht, hsome, hdigits⟩ := ih hk' (value * 10 + digitValue c)
      refine ⟨e, t, ht, hsome, fun offset left hleft => ?_⟩
      rw [List.cons_append, exponentDigits, if_pos hc, if_pos hfits]
      exact hdigits (offset + 1) left hleft
    · refine ⟨none, k, hk', fun h => absurd h Bool.false_ne_true, fun offset left _ => ⟨offset + 1, ?_⟩⟩
      rw [List.cons_append, exponentDigits, if_pos hc, if_neg hfits]

end Digits

/-! ## Scanners -/

/-- A piece of text is read as a number at any offset, in front of whatever ends a number. -/
def Reads (scanner : Nat → List Char → Except Fault (Scan Number)) (k : List Char) (x : Number) :
    Prop :=
  ∀ offset left, Ends left → ∃ offset', scanner offset (k ++ left) = .ok ⟨x, left, offset'⟩

variable {negative below : Bool} {significand dropped offset : Nat} {start e : Int}
  {cs : List Char} {r : Scan Number}

/-- Whether there is a double does not depend on the place. -/
theorem double_ok {x : Number} (h : double negative significand e offset = .ok x) (offset' : Nat) :
    double negative significand e offset' = .ok x := by
  unfold double at h ⊢
  cases hx : (Binary64.ofRatio false significand 1).bind (scale · e) with
  | some y =>
    rw [hx] at h
    exact h
  | none =>
    rw [hx] at h
    cases h

theorem exponentValue_reads (h : exponentValue negative significand start below offset cs = .ok r) :
    ∃ c k, c.isDigit = true ∧ cs = c :: k ++ r.rest ∧
      Reads (exponentValue negative significand start below) (c :: k) r.value := by
  cases cs with
  | nil => cases h
  | cons c rest =>
    obtain ⟨k, left, rfl, hk, hleft⟩ := exists_digits rest
    obtain ⟨e, t, ht, hsome, hdigits⟩ := exponentDigits_append hk (digitValue c)
    rw [exponentValue] at h
    by_cases hc : c.isDigit = true
    · rw [if_pos hc] at h
      obtain ⟨offset', hread⟩ := hdigits (offset + 1) left hleft
      rw [hread] at h
      cases e with
      | some e =>
        cases hsome rfl
        cases hd : double negative significand (if below then start - e else start + e) offset' with
        | error f =>
          simp only [hd] at h
          cases h
        | ok x =>
          simp only [hd] at h
          cases h
          refine ⟨c, k, hc, rfl, fun o left' hleft' => ?_⟩
          obtain ⟨o', hread'⟩ := hdigits (o + 1) left' hleft'.endsDigits
          refine ⟨o', ?_⟩
          rw [List.cons_append, exponentValue, if_pos hc, hread']
          simp only [double_ok hd o']
          rfl
      | none =>
        simp only at h
        split at h
        · cases h
        · next hzero =>
          rw [passDigits_append ht hleft] at h
          cases h
          refine ⟨c, k, hc, rfl, fun o left' hleft' => ?_⟩
          obtain ⟨o', hread'⟩ := hdigits (o + 1) left' hleft'.endsDigits
          refine ⟨o' + (0 + t.length), ?_⟩
          rw [List.cons_append, exponentValue, if_pos hc, hread']
          simp only
          rw [if_neg hzero, passDigits_append ht hleft'.endsDigits]
    · rw [if_neg hc] at h
      cases h

/-- No sign is an exponent without one. -/
theorem afterMark_of_digit {c : Char} (hc : c.isDigit = true) (rest : List Char) (offset : Nat) :
    afterMark negative significand start offset (c :: rest)
      = exponentValue negative significand start false offset (c :: rest) := by
  unfold afterMark
  split
  · next heq =>
    cases heq
    cases hc
  · next heq =>
    cases heq
    cases hc
  · rfl

theorem afterMark_reads (h : afterMark negative significand start offset cs = .ok r) :
    ∃ k, cs = k ++ r.rest ∧ Reads (afterMark negative significand start) k r.value := by
  unfold afterMark at h
  split at h
  · obtain ⟨c, k, -, rfl, hk⟩ := exponentValue_reads h
    exact ⟨'+' :: c :: k, rfl, fun o left hleft => hk (o + 1) left hleft⟩
  · obtain ⟨c, k, -, rfl, hk⟩ := exponentValue_reads h
    exact ⟨'-' :: c :: k, rfl, fun o left hleft => hk (o + 1) left hleft⟩
  · obtain ⟨c, k, hc, rfl, hk⟩ := exponentValue_reads h
    refine ⟨c :: k, rfl, fun o left hleft => ?_⟩
    rw [List.cons_append, afterMark_of_digit hc]
    exact hk o left hleft

/-- A number that is over, or goes on with an exponent. -/
theorem exponentOrEnd_reads (h : exponentOrEnd negative significand e offset cs = .ok r) :
    ∃ k, cs = k ++ r.rest ∧ Reads (exponentOrEnd negative significand e) k r.value ∧
      ∀ left, Ends left → EndsDigits (k ++ left) := by
  unfold exponentOrEnd at h
  split at h
  · obtain ⟨k, rfl, hk⟩ := afterMark_reads h
    exact ⟨'e' :: k, rfl, fun o left hleft => hk (o + 1) left hleft,
      fun left _ => endsDigits_cons rfl _⟩
  · obtain ⟨k, rfl, hk⟩ := afterMark_reads h
    exact ⟨'E' :: k, rfl, fun o left hleft => hk (o + 1) left hleft,
      fun left _ => endsDigits_cons rfl _⟩
  · cases hd : double negative significand e offset with
    | error f =>
      rw [hd] at h
      cases h
    | ok x =>
      rw [hd] at h
      cases h
      refine ⟨[], rfl, fun o left hleft => ⟨o, ?_⟩, fun left hleft => hleft.endsDigits⟩
      unfold exponentOrEnd
      rw [List.nil_append]
      split
      · exact absurd rfl (hleft _ rfl).2.2.1
      · exact absurd rfl (hleft _ rfl).2.2.2
      · rw [double_ok hd o]
        rfl

theorem afterPoint_reads (h : afterPoint negative significand e offset cs = .ok r) :
    ∃ k, cs = k ++ r.rest ∧ Reads (afterPoint negative significand e) k r.value := by
  obtain ⟨k, left, rfl, hk, hleft⟩ := exists_digits cs
  obtain ⟨s, n, t, ht, hgather⟩ := gather_append hk significand 0
  unfold afterPoint at h
  simp only [hgather left hleft, passDigits_append ht hleft] at h
  split at h
  · cases h
  · next hsome =>
    obtain ⟨k', rfl, hk', hends⟩ := exponentOrEnd_reads h
    refine ⟨k ++ k', (List.append_assoc _ _ _).symm, fun o left' hleft' => ?_⟩
    have hends' := hends left' hleft'
    obtain ⟨o', hread⟩ := hk' (o + n + (0 + t.length)) left' hleft'
    refine ⟨o', ?_⟩
    unfold afterPoint
    simp only [List.append_assoc, hgather _ hends', passDigits_append ht hends']
    rw [if_neg hsome]
    exact hread

/-- A number without a fraction and an exponent. -/
theorem afterInteger_of_ends (hleft : Ends left) (offset : Nat) :
    afterInteger negative significand dropped offset left
      = if dropped = 0 then .ok ⟨integer negative significand, left, offset⟩
        else (double negative significand dropped offset).map fun x => ⟨x, left, offset⟩ := by
  unfold afterInteger
  split
  · exact absurd rfl (hleft _ rfl).2.1
  · exact absurd rfl (hleft _ rfl).2.2.1
  · exact absurd rfl (hleft _ rfl).2.2.2
  · rfl

theorem afterInteger_reads (h : afterInteger negative significand dropped offset cs = .ok r) :
    ∃ k, cs = k ++ r.rest ∧ Reads (afterInteger negative significand dropped) k r.value ∧
      ∀ left, Ends left → EndsDigits (k ++ left) := by
  unfold afterInteger at h
  split at h
  · obtain ⟨k, rfl, hk⟩ := afterPoint_reads h
    exact ⟨'.' :: k, rfl, fun o left hleft => hk (o + 1) left hleft,
      fun left _ => endsDigits_cons rfl _⟩
  · obtain ⟨k, rfl, hk⟩ := afterMark_reads h
    exact ⟨'e' :: k, rfl, fun o left hleft => hk (o + 1) left hleft,
      fun left _ => endsDigits_cons rfl _⟩
  · obtain ⟨k, rfl, hk⟩ := afterMark_reads h
    exact ⟨'E' :: k, rfl, fun o left hleft => hk (o + 1) left hleft,
      fun left _ => endsDigits_cons rfl _⟩
  · split at h
    · next hnone =>
      cases h
      refine ⟨[], rfl, fun o left hleft => ⟨o, ?_⟩, fun left hleft => hleft.endsDigits⟩
      rw [List.nil_append, afterInteger_of_ends hleft, if_pos hnone]
    · next hsome =>
      cases hd : double negative significand dropped offset with
      | error f =>
        rw [hd] at h
        cases h
      | ok x =>
        rw [hd] at h
        cases h
        refine ⟨[], rfl, fun o left hleft => ⟨o, ?_⟩, fun left hleft => hleft.endsDigits⟩
        rw [List.nil_append, afterInteger_of_ends hleft, if_neg hsome, double_ok hd o]
        rfl

/-- A number whose integer digits begin with another one than zero. -/
theorem scan_of_digits {c : Char} {k t : List Char} {s n : Nat} (hc : c.isDigit = true) (hzero : c ≠ '0')
    (hgather : gather 0 0 (c :: k ++ left) = (s, n, t ++ left)) (ht : ∀ d ∈ t, d.isDigit = true)
    (hleft : EndsDigits left) (offset : Nat) :
    scan negative offset (c :: k ++ left)
      = afterInteger negative s t.length (offset + n + t.length) left := by
  rw [List.cons_append] at hgather ⊢
  unfold scan
  split
  · next heq => cases heq
  · next heq =>
    cases heq
    exact absurd rfl hzero
  · next heq =>
    cases heq
    simp only [hc, if_true, hgather, passDigits_append ht hleft, Nat.zero_add]

/-- **A numeral is read alike wherever it stands.** -/
theorem scan_reads (h : scan negative offset cs = .ok r) :
    ∃ k, cs = k ++ r.rest ∧ Reads (scan negative) k r.value := by
  unfold scan at h
  split at h
  · cases h
  · next rest =>
    split at h
    · cases h
    · obtain ⟨k, rfl, hk, hends⟩ := afterInteger_reads h
      refine ⟨'0' :: k, rfl, fun o left hleft => ?_⟩
      obtain ⟨o', hread⟩ := hk (o + 1) left hleft
      have hhead : ((k ++ left).head?.map Char.isDigit).getD false = false := by
        cases hc : (k ++ left).head? with
        | none => rfl
        | some c => exact hends left hleft c hc
      refine ⟨o', ?_⟩
      rw [List.cons_append, scan, hhead, if_neg Bool.false_ne_true]
      exact hread
  · next c rest hzero =>
    split at h
    · next hc =>
      obtain ⟨k, left, rfl, hk, hleft⟩ := exists_digits rest
      obtain ⟨s, n, t, ht, hgather⟩ := gather_append (List.forall_mem_cons.2 ⟨hc, hk⟩) 0 0
      simp only [← List.cons_append, hgather left hleft, passDigits_append ht hleft] at h
      obtain ⟨k', rfl, hk', hends⟩ := afterInteger_reads h
      refine ⟨c :: k ++ k', by simp, fun o left' hleft' => ?_⟩
      have hends' := hends left' hleft'
      rw [List.append_assoc, scan_of_digits hc hzero (hgather _ hends') ht hends']
      rw [Nat.zero_add] at hk'
      exact hk' _ left' hleft'
    · cases h

end ShareKeeper.Json.Numeral
