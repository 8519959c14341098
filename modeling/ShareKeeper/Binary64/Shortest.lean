import ShareKeeper.Binary64

/-!
# Shortest decimal texts

The fewest decimal digits that read back as a double, and of those the ones nearest to it. For one
digit, two digits and so on, the two grid points next to the value are tested against the interval
of reals that round to the double (its ends belong to it exactly when the mantissa is even); the
first grid with a hit wins. Seventeen digits always hit.

How the digits are laid out is a `Layout`, chosen by the format that prints the number.
-/

namespace ShareKeeper.Binary64

/-- The number `0.d₁d₂… * 10^point`. -/
structure Decimal where
  digits : Nat
  point : Int
  deriving Repr, DecidableEq

/-! ## The interval of a double -/

/-- A ratio of natural numbers. -/
abbrev Ratio := Nat × Nat

def Ratio.lt (a b : Ratio) : Bool := a.1 * b.2 < b.1 * a.2

def Ratio.le (a b : Ratio) : Bool := a.1 * b.2 ≤ b.1 * a.2

/-- The natural number `quarters` times a quarter of the unit of the last place. -/
def quarterUnits (x : Binary64) (quarters : Nat) : Ratio :=
  let e := x.exponent - 2
  if e < 0 then (quarters, twoTo e.natAbs) else (quarters * twoTo e.natAbs, 1)

/-- The lower end: half a unit below, a quarter where the binade below begins. -/
def lowerEnd (x : Binary64) : Ratio :=
  if x.mantissa = firstMantissa && leastExponent < x.exponent then x.quarterUnits (4 * x.mantissa - 1)
  else x.quarterUnits (4 * x.mantissa - 2)

def upperEnd (x : Binary64) : Ratio := x.quarterUnits (4 * x.mantissa + 2)

/-- Whether a ratio rounds to the magnitude of `x`. -/
def rounds (x : Binary64) (r : Ratio) : Bool :=
  if x.mantissa % 2 = 0 then Ratio.le x.lowerEnd r && Ratio.le r x.upperEnd
  else Ratio.lt x.lowerEnd r && Ratio.lt r x.upperEnd

/-! ## Decimal grids -/

/-- The number of decimal digits. -/
def digitCount (n : Nat) : Nat := (Nat.toDigits 10 n).length

/-- How often a ratio below one has to be multiplied by ten to stay below one. -/
def leadingZeros (num den : Nat) : Nat → Nat
  | 0 => 0
  | fuel + 1 => if num * 10 < den then leadingZeros (num * 10) den fuel + 1 else 0

/-- The point of a ratio: it lies in `[10^(point-1), 10^point)`. -/
def decimalPoint (r : Ratio) : Int :=
  if r.2 ≤ r.1 then digitCount (r.1 / r.2) else -(leadingZeros r.1 r.2 400 : Int)

/-- The grid point `d * 10^k`. -/
def gridPoint (d : Nat) (k : Int) : Ratio :=
  if k < 0 then (d, tenTo k.natAbs) else (d * tenTo k.natAbs, 1)

/-- The count of `10^k` in a ratio, rounded down. -/
def gridFloor (r : Ratio) (k : Int) : Nat :=
  if k < 0 then r.1 * tenTo k.natAbs / r.2 else r.1 / (r.2 * tenTo k.natAbs)

/-- The distance of two ratios, as a ratio. -/
def distance (a b : Ratio) : Ratio :=
  let p := a.1 * b.2
  let q := b.1 * a.2
  (max p q - min p q, a.2 * b.2)

/-- Of the two grid points next to the value the one that rounds to it, the nearer of two. -/
def gridHit (x : Binary64) (k : Int) : Option Nat :=
  let below := gridFloor x.ratio k
  let above := below + 1
  match x.rounds (gridPoint below k) && below != 0, x.rounds (gridPoint above k) with
  | false, false => none
  | true, false => some below
  | false, true => some above
  | true, true =>
    let toBelow := distance x.ratio (gridPoint below k)
    let toAbove := distance x.ratio (gridPoint above k)
    if Ratio.lt toBelow toAbove then some below
    else if Ratio.lt toAbove toBelow then some above
    else if below % 2 = 0 then some below else some above

/-- Tries grids of `count` digits and more, at most `fuel` of them. -/
def searchGrids (x : Binary64) (point : Int) (count : Nat) : Nat → Decimal
  | 0 => ⟨0, 0⟩
  | fuel + 1 =>
    match x.gridHit (point - count) with
    | some d =>
      if digitCount d = count then ⟨d, point⟩ else ⟨d / 10, point + 1⟩
    | none => searchGrids x point (count + 1) fuel

/-- The shortest digits of a number that is not zero. -/
def shortest (x : Binary64) : Decimal := searchGrids x (decimalPoint x.ratio) 1 17

/-! ## Layouts -/

/-- How a format lays out digits: between the two points positionally, outside them with an
exponent. -/
structure Layout where
  least : Option Int
  greatest : Option Int
  /-- Whole numbers end in a point and a zero. -/
  showsFraction : Bool

/-- Digits around the decimal point. -/
def positional (showsFraction : Bool) (digits : List Char) (point : Int) : List Char :=
  if point ≤ 0 then '0' :: '.' :: (List.replicate point.natAbs '0' ++ digits)
  else
    let p := point.toNat
    if digits.length ≤ p then
      digits ++ List.replicate (p - digits.length) '0' ++ (if showsFraction then ['.', '0'] else [])
    else digits.take p ++ '.' :: digits.drop p

/-- One digit before the point and an exponent of ten. -/
def scientific (digits : List Char) (point : Int) : List Char :=
  let mark := 'e' :: (toString (point - 1)).toList
  match digits with
  | [] => mark
  | [d] => d :: mark
  | d :: rest => d :: '.' :: (rest ++ mark)

/-- The text of a double in a layout. -/
def Layout.render (l : Layout) (x : Binary64) : String :=
  let sign := if x.negative then ['-'] else []
  if x.isZero then String.ofList (sign ++ (if l.showsFraction then ['0', '.', '0'] else ['0']))
  else
    let d := x.shortest
    let digits := Nat.toDigits 10 d.digits
    let inside := (l.least.all (· ≤ d.point)) && (l.greatest.all (d.point ≤ ·))
    String.ofList
      (sign ++ if inside then positional l.showsFraction digits d.point else scientific digits d.point)

end ShareKeeper.Binary64
