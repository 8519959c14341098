import ShareKeeper.Power

/-!
# Finite binary numbers of 64 bits

A finite double is a sign, a mantissa below `2^53` and an exponent of two. The operations are exact
arithmetic on natural numbers followed by one rounding to the nearest double, ties to the even
mantissa; a result beyond the largest double is `none`.

## Rounding

`roundRatio` is the only place where precision is lost. It picks the exponent of the quotient's
binade (never below the least exponent, so that small quotients come out subnormal), divides there
with `nearestEven`, and carries into the next binade when the rounding reached it.
-/

namespace ShareKeeper

/-- The number `mantissa * 2^exponent`, with a sign that zero has too. -/
structure Binary64 where
  negative : Bool
  mantissa : Nat
  exponent : Int
  deriving DecidableEq, Repr, Inhabited

namespace Binary64

/-- The exponent of the subnormal numbers, the least one. -/
def leastExponent : Int := -1074

/-- The exponent of the largest binade. -/
def greatestExponent : Int := 971

/-- What mantissas stay below. -/
def mantissaLimit : Nat := 9007199254740992

/-- The mantissa with which a binade begins. -/
def firstMantissa : Nat := 4503599627370496

def zero (negative : Bool) : Binary64 := ⟨negative, 0, leastExponent⟩

def isZero (x : Binary64) : Bool := x.mantissa = 0

/-! ## Rounding a quotient -/

/-- The natural number nearest to `num / den`; of two the even one. -/
def nearestEven (num den : Nat) : Nat :=
  let q := num / den
  let r := num % den
  if 2 * r < den then q
  else if den < 2 * r then q + 1
  else if q % 2 = 0 then q else q + 1

/-- A ratio divided by `2^e`, as a ratio. -/
def scaleDown (num den : Nat) (e : Int) : Nat × Nat :=
  if e < 0 then (num * twoTo e.natAbs, den) else (num, den * twoTo e.natAbs)

/-- The mantissa and exponent nearest to `num / den`. -/
def roundRatio (num den : Nat) : Option (Nat × Int) :=
  if num = 0 then some (0, leastExponent)
  else
    let guess : Int := (Nat.log2 num : Int) - Nat.log2 den - 53
    let (n, d) := scaleDown num den guess
    let e := max leastExponent (if n / d < mantissaLimit then guess else guess + 1)
    let (n, d) := scaleDown num den e
    let m := nearestEven n d
    let (m, e) := if m = mantissaLimit then (firstMantissa, e + 1) else (m, e)
    if e ≤ greatestExponent then some (m, e) else none

/-- The double nearest to a signed ratio. -/
def ofRatio (negative : Bool) (num den : Nat) : Option Binary64 :=
  (roundRatio num den).map fun (m, e) => ⟨negative, m, e⟩

/-- The double nearest to an integer. -/
def ofInt (i : Int) : Option Binary64 := ofRatio (i < 0) i.natAbs 1

/-- The double nearest to a power of ten. -/
def powerOfTen (k : Nat) : Option Binary64 := ofRatio false (tenTo k) 1

/-! ## Exact values -/

/-- The magnitude as a ratio. -/
def ratio (x : Binary64) : Nat × Nat :=
  if x.exponent < 0 then (x.mantissa, twoTo x.exponent.natAbs)
  else (x.mantissa * twoTo x.exponent.natAbs, 1)

/-- The value as an integer count of `2^leastExponent`. -/
def units (x : Binary64) : Int :=
  let n : Int := x.mantissa * twoTo (x.exponent - leastExponent).toNat
  if x.negative then -n else n

/-- Numeric equality: the two zeros are equal. -/
def same (x y : Binary64) : Bool := (x.isZero && y.isZero) || x = y

theorem same_refl (x : Binary64) : x.same x = true := by simp [same]

theorem same_symm {x y : Binary64} (h : x.same y = true) : y.same x = true := by
  simp only [same, Bool.or_eq_true, Bool.and_eq_true, decide_eq_true_eq] at h ⊢
  exact h.elim (fun h => .inl ⟨h.2, h.1⟩) (fun h => .inr h.symm)

theorem same_trans {x y z : Binary64} (h : x.same y = true) (h' : y.same z = true) :
    x.same z = true := by
  simp only [same, Bool.or_eq_true, Bool.and_eq_true, decide_eq_true_eq] at h h' ⊢
  rcases h with h | rfl
  · rcases h' with h' | rfl
    · exact .inl ⟨h.1, h'.2⟩
    · exact .inl h
  · exact h'

/-- Numeric order. -/
def le (x y : Binary64) : Bool := x.units ≤ y.units

/-! ## Arithmetic -/

def mul (x y : Binary64) : Option Binary64 :=
  let (n, d) := x.ratio
  let (n', d') := y.ratio
  ofRatio (x.negative != y.negative) (n * n') (d * d')

/-- Quotient by a number that is not zero. -/
def div (x y : Binary64) : Option Binary64 :=
  let (n, d) := x.ratio
  let (n', d') := y.ratio
  ofRatio (x.negative != y.negative) (n * d') (d * n')

/-- The sum; one that is zero is negative only when both parts are. -/
def add (x y : Binary64) : Option Binary64 :=
  let s := x.units + y.units
  if s = 0 then some (zero (x.negative && y.negative))
  else ofRatio (s < 0) s.natAbs (twoTo leastExponent.natAbs)

/-- The greatest integer that is not above. -/
def floor (x : Binary64) : Int := Int.fdiv x.units (twoTo leastExponent.natAbs)

/-- The distance to the integer below. -/
def fraction (x : Binary64) : Binary64 :=
  ((ofInt (-x.floor)).bind x.add).getD (zero false)

/-- The integer part of the magnitude. -/
def wholePart (x : Binary64) : Nat := x.ratio.1 / x.ratio.2

end Binary64

end ShareKeeper
