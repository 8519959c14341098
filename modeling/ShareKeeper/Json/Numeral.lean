import ShareKeeper.Json
import ShareKeeper.Json.ReadError
import ShareKeeper.Text.Integer

/-!
# Numbers in a JSON text

A numeral without fraction and exponent is an integer as long as it fits 64 bits, signed or
unsigned, and `-0` does not count as one. Every other numeral is a double. The digits are gathered
into a significand of at most 64 bits; digits after that only count towards the exponent, or for
nothing behind the point. The double is the rounded significand, multiplied or divided by the
rounded power of ten.

Each scanner takes the text and its byte offset and returns what is left of both.
-/

namespace ShareKeeper.Json.Numeral

open Text (digitValue)

/-- The largest significand, the greatest number of 64 bits. -/
def greatest : Nat := 18446744073709551615

/-- What a scanner found, and the text it left with its offset. -/
structure Scan (α : Type) where
  value : α
  rest : List Char
  offset : Nat

/-! ## Digits -/

/-- Gathers digits onto a significand as long as it stays within 64 bits; also counts them. -/
def gather (significand count : Nat) : List Char → Nat × Nat × List Char
  | [] => (significand, count, [])
  | c :: rest =>
    if c.isDigit && significand * 10 + digitValue c ≤ greatest then
      gather (significand * 10 + digitValue c) (count + 1) rest
    else (significand, count, c :: rest)

/-- Passes over digits and counts them. -/
def passDigits (count : Nat) : List Char → Nat × List Char
  | [] => (count, [])
  | c :: rest => if c.isDigit then passDigits (count + 1) rest else (count, c :: rest)

theorem gather_length (s n : Nat) (cs : List Char) : (gather s n cs).2.2.length ≤ cs.length := by
  induction cs generalizing s n with
  | nil => simp [gather]
  | cons c rest ih =>
    unfold gather
    split
    · exact Nat.le_succ_of_le (ih _ _)
    · exact Nat.le_refl _

theorem passDigits_length (n : Nat) (cs : List Char) :
    (passDigits n cs).2.length ≤ cs.length := by
  induction cs generalizing n with
  | nil => simp [passDigits]
  | cons c rest ih =>
    unfold passDigits
    split
    · exact Nat.le_succ_of_le (ih _)
    · exact Nat.le_refl _

/-! ## Doubles -/

/-- Multiplies or divides by a power of ten; the powers that are doubles end at 308. -/
def scale (x : Binary64) (e : Int) : Option Binary64 :=
  if x.isZero then some x
  else if 308 < e then none
  else if 0 ≤ e then (Binary64.powerOfTen e.natAbs).bind x.mul
  else if -308 ≤ e then (Binary64.powerOfTen e.natAbs).bind x.div
  else (Binary64.powerOfTen 308).bind fun p => (x.div p).bind fun y => scale y (e + 308)
termination_by e.natAbs
decreasing_by omega

/-- The double with the given significand and decimal exponent. -/
def double (negative : Bool) (significand : Nat) (e : Int) (offset : Nat) : Except Fault Number :=
  match (Binary64.ofRatio false significand 1).bind (scale · e) with
  | some x => .ok (.double { x with negative })
  | none => .error ⟨.numberOutOfRange, offset⟩

/-! ## Exponent -/

/-- The largest decimal exponent that is written out. -/
def greatestExponent : Nat := 2147483647

/-- Reads exponent digits; `none` means that they went beyond every exponent. -/
def exponentDigits (value offset : Nat) : List Char → Option Nat × List Char × Nat
  | [] => (some value, [], offset)
  | c :: rest =>
    if c.isDigit then
      if value * 10 + digitValue c ≤ greatestExponent then
        exponentDigits (value * 10 + digitValue c) (offset + 1) rest
      else (none, rest, offset + 1)
    else (some value, c :: rest, offset)

theorem exponentDigits_length (v o : Nat) (cs : List Char) :
    (exponentDigits v o cs).2.1.length ≤ cs.length := by
  induction cs generalizing v o with
  | nil => simp [exponentDigits]
  | cons c rest ih =>
    unfold exponentDigits
    split
    · split
      · exact Nat.le_succ_of_le (ih _ _)
      · simp
    · exact Nat.le_refl _

/-- A number from its significand and the text after the exponent mark and its sign. -/
def exponentValue (negative : Bool) (significand : Nat) (start : Int) (below : Bool) (offset : Nat) :
    List Char → Except Fault (Scan Number)
  | [] => .error ⟨.eofInValue, offset⟩
  | c :: rest =>
    if c.isDigit then
      match exponentDigits (digitValue c) (offset + 1) rest with
      | (some e, rest, offset) => do
        let e := if below then start - e else start + e
        return ⟨← double negative significand e offset, rest, offset⟩
      | (none, rest, offset) =>
        if significand ≠ 0 && !below then .error ⟨.numberOutOfRange, offset⟩
        else
          let (n, rest) := passDigits 0 rest
          .ok ⟨.double (Binary64.zero negative), rest, offset + n⟩
    else .error ⟨.invalidNumber, offset + 1⟩

/-- A number from its significand and the text after the exponent mark. -/
def afterMark (negative : Bool) (significand : Nat) (start : Int) (offset : Nat) :
    List Char → Except Fault (Scan Number)
  | '+' :: rest => exponentValue negative significand start false (offset + 1) rest
  | '-' :: rest => exponentValue negative significand start true (offset + 1) rest
  | cs => exponentValue negative significand start false offset cs

/-- A number from its significand and the text that may go on with an exponent. -/
def exponentOrEnd (negative : Bool) (significand : Nat) (e : Int) (offset : Nat) :
    List Char → Except Fault (Scan Number)
  | 'e' :: rest => afterMark negative significand e (offset + 1) rest
  | 'E' :: rest => afterMark negative significand e (offset + 1) rest
  | cs => do return ⟨← double negative significand e offset, cs, offset⟩

/-! ## Fraction and whole numeral -/

/-- A number from its significand and the text after the decimal point. -/
def afterPoint (negative : Bool) (significand : Nat) (e : Int) (offset : Nat) (cs : List Char) :
    Except Fault (Scan Number) :=
  let (value, n, rest) := gather significand 0 cs
  let (dropped, left) := passDigits 0 rest
  if n + dropped = 0 then
    .error (if cs.isEmpty then ⟨.eofInValue, offset⟩ else ⟨.invalidNumber, offset + 1⟩)
  else exponentOrEnd negative value (e - n) (offset + n + dropped) left

/-- The magnitude of the least integer of 64 bits with a sign. -/
def leastMagnitude : Nat := 9223372036854775808

/-- The integer with a sign and a magnitude, or the double that stands for it. -/
def integer (negative : Bool) (magnitude : Nat) : Number :=
  if !negative then .int magnitude
  else if magnitude = 0 || leastMagnitude < magnitude then
    .double (((Binary64.ofRatio true magnitude 1)).getD (Binary64.zero true))
  else .int (-(magnitude : Int))

/-- A number from its integer digits, of which `dropped` did not fit the significand. -/
def afterInteger (negative : Bool) (significand dropped : Nat) (offset : Nat) :
    List Char → Except Fault (Scan Number)
  | '.' :: rest => afterPoint negative significand dropped (offset + 1) rest
  | 'e' :: rest => afterMark negative significand dropped (offset + 1) rest
  | 'E' :: rest => afterMark negative significand dropped (offset + 1) rest
  | cs =>
    if dropped = 0 then .ok ⟨integer negative significand, cs, offset⟩
    else do return ⟨← double negative significand dropped offset, cs, offset⟩

/-- Reads a number whose sign has been read. A leading zero stands alone before the point. -/
def scan (negative : Bool) (offset : Nat) : List Char → Except Fault (Scan Number)
  | [] => .error ⟨.eofInValue, offset⟩
  | '0' :: rest =>
    if (rest.head?.map Char.isDigit).getD false then .error ⟨.invalidNumber, offset + 2⟩
    else afterInteger negative 0 0 (offset + 1) rest
  | c :: rest =>
    if c.isDigit then
      let (significand, n, tail) := gather 0 0 (c :: rest)
      let (dropped, left) := passDigits 0 tail
      afterInteger negative significand dropped (offset + n + dropped) left
    else .error ⟨.invalidNumber, offset + 1⟩

/-! ## Every numeral takes text -/

theorem exponentValue_length {negative below : Bool} {significand offset : Nat} {start : Int}
    {cs : List Char} {r : Scan Number}
    (h : exponentValue negative significand start below offset cs = .ok r) :
    r.rest.length < cs.length := by
  cases cs with
  | nil => cases h
  | cons c rest =>
    have hl := exponentDigits_length (digitValue c) (offset + 1) rest
    simp only [exponentValue] at h
    by_cases hc : c.isDigit = true
    · rw [if_pos hc] at h
      generalize exponentDigits (digitValue c) (offset + 1) rest = e at h hl
      obtain ⟨e, rest', offset'⟩ := e
      cases e with
      | some e =>
        simp only at h
        generalize double negative significand (if below then start - e else start + e) offset' = d at h
        cases d with
        | error f => cases h
        | ok v =>
          cases h
          exact Nat.lt_succ_of_le hl
      | none =>
        simp only at h
        split at h
        · cases h
        · cases h
          exact Nat.lt_succ_of_le (Nat.le_trans (passDigits_length 0 rest') hl)
    · rw [if_neg hc] at h
      cases h

theorem afterMark_length {negative : Bool} {significand offset : Nat} {start : Int}
    {cs : List Char} {r : Scan Number} (h : afterMark negative significand start offset cs = .ok r) :
    r.rest.length < cs.length := by
  unfold afterMark at h
  split at h
  · exact Nat.lt_succ_of_lt (exponentValue_length h)
  · exact Nat.lt_succ_of_lt (exponentValue_length h)
  · exact exponentValue_length h

theorem exponentOrEnd_length {negative : Bool} {significand offset : Nat} {e : Int}
    {cs : List Char} {r : Scan Number} (h : exponentOrEnd negative significand e offset cs = .ok r) :
    r.rest.length ≤ cs.length := by
  unfold exponentOrEnd at h
  split at h
  · exact Nat.le_of_lt (Nat.lt_succ_of_lt (afterMark_length h))
  · exact Nat.le_of_lt (Nat.lt_succ_of_lt (afterMark_length h))
  · cases hd : double negative significand e offset with
    | error f => simp [hd, bind, Except.bind] at h
    | ok v =>
      simp only [hd, bind, Except.bind, pure, Except.pure, Except.ok.injEq] at h
      subst h
      exact Nat.le_refl _

theorem afterPoint_length {negative : Bool} {significand offset : Nat} {e : Int}
    {cs : List Char} {r : Scan Number} (h : afterPoint negative significand e offset cs = .ok r) :
    r.rest.length ≤ cs.length := by
  unfold afterPoint at h
  have hg := gather_length significand 0 cs
  have hp := passDigits_length 0 (gather significand 0 cs).2.2
  simp only at h
  split at h
  · cases h
  · exact Nat.le_trans (exponentOrEnd_length h) (Nat.le_trans hp hg)

theorem afterInteger_length {negative : Bool} {significand dropped offset : Nat}
    {cs : List Char} {r : Scan Number}
    (h : afterInteger negative significand dropped offset cs = .ok r) :
    r.rest.length ≤ cs.length := by
  unfold afterInteger at h
  split at h
  · exact Nat.le_succ_of_le (afterPoint_length h)
  · exact Nat.le_of_lt (Nat.lt_succ_of_lt (afterMark_length h))
  · exact Nat.le_of_lt (Nat.lt_succ_of_lt (afterMark_length h))
  · split at h
    · simp only [Except.ok.injEq] at h
      subst h
      exact Nat.le_refl _
    · cases hd : double negative significand dropped offset with
      | error f => simp [hd, bind, Except.bind] at h
      | ok v =>
        simp only [hd, bind, Except.bind, pure, Except.pure, Except.ok.injEq] at h
        subst h
        exact Nat.le_refl _

/-- **A numeral that was read took at least one character.** -/
theorem scan_length {negative : Bool} {offset : Nat} {cs : List Char} {r : Scan Number}
    (h : scan negative offset cs = .ok r) : r.rest.length < cs.length := by
  unfold scan at h
  split at h
  · cases h
  · split at h
    · cases h
    · exact Nat.lt_succ_of_le (afterInteger_length h)
  · rename_i c rest _
    split at h
    · rename_i hd
      have hg : (gather 0 0 (c :: rest)).2.2.length ≤ rest.length := by
        have hlt : digitValue c ≤ greatest := by
          have : c.toNat ≤ 57 := by
            simp only [Char.isDigit, Bool.and_eq_true, decide_eq_true_eq] at hd
            exact hd.2
          unfold digitValue greatest
          omega
        unfold gather
        simp only [hd, Nat.zero_mul, Nat.zero_add, Bool.true_and, hlt, decide_true, if_true]
        exact gather_length _ _ _
      have hp := passDigits_length 0 (gather 0 0 (c :: rest)).2.2
      exact Nat.lt_succ_of_le (Nat.le_trans (afterInteger_length h) (Nat.le_trans hp hg))
    · cases h

end ShareKeeper.Json.Numeral
