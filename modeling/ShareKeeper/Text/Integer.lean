import ShareKeeper.Text.Blank

/-!
# Decimal integers within limits

The reading of an integer whose value has to fit a limit: an optional sign, then at least one ASCII
digit. The digits are taken from the left and the first fault met is the one reported: a character
that is no digit, or the digit that carries the value over the limit.
-/

namespace ShareKeeper.Text

/-- What is wrong with a decimal integer. -/
inductive IntegerFault where
  | empty
  | invalidDigit
  | tooLarge
  deriving DecidableEq, Repr

def IntegerFault.message : IntegerFault → String
  | .empty => "cannot parse integer from empty string"
  | .invalidDigit => "invalid digit found in string"
  | .tooLarge => "number too large to fit in target type"

/-- The value of an ASCII digit. -/
def digitValue (c : Char) : Nat := c.toNat - '0'.toNat

/-- Reads digits onto a value that must stay within the limit. -/
def readDigits (limit : Nat) : Nat → List Char → Except IntegerFault Nat
  | value, [] => .ok value
  | value, c :: rest =>
    if c.isDigit then
      if value * 10 + digitValue c ≤ limit then readDigits limit (value * 10 + digitValue c) rest
      else .error .tooLarge
    else .error .invalidDigit

/-- Digits without a sign; none at all are refused. -/
def readMagnitude (limit : Nat) (cs : List Char) : Except IntegerFault Nat :=
  if cs.isEmpty then .error .invalidDigit else readDigits limit 0 cs

/-- A natural number up to a limit, with an optional plus sign. -/
def readNatural (limit : Nat) : List Char → Except IntegerFault Nat
  | [] => .error .empty
  | '+' :: rest => readMagnitude limit rest
  | cs => readMagnitude limit cs

/-- An integer from `-below` to `above`, with an optional sign. -/
def readInteger (below above : Nat) : List Char → Except IntegerFault Int
  | [] => .error .empty
  | '+' :: rest => (readMagnitude above rest).map Int.ofNat
  | '-' :: rest => (readMagnitude below rest).map fun n => -(n : Int)
  | cs => (readMagnitude above cs).map Int.ofNat

/-- A 32-bit signed integer. -/
def readInt32 (cs : List Char) : Except IntegerFault Int := readInteger 2147483648 2147483647 cs

end ShareKeeper.Text
