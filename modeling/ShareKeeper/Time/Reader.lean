import ShareKeeper.Power
import ShareKeeper.Text.Blank
import ShareKeeper.Text.Integer
import ShareKeeper.Time.Instant

/-!
# Reading an instant

RFC 3339 with the usual liberties: a space or a small `t` may separate date and time, blanks may
stand before the parts, a year may have a sign and then any number of digits, digits of the fraction
beyond the ninth are passed over, `UTC` may stand for the zero offset, and the colon of an offset
may be missing.

The text is read from the left: each part is returned with the text after it, and the first part
that does not fit decides the fault. Whether the month has the day, and whether the instant is
representable, is asked at the end.
-/

namespace ShareKeeper.Instant

open Text (trimStart isBlank digitValue)

/-- Why a text is no instant. -/
inductive Fault where
  | outOfRange
  | impossible
  | invalid
  | tooShort
  | tooLong
  deriving DecidableEq, Repr

def Fault.message : Fault → String
  | .outOfRange => "input is out of range"
  | .impossible => "no possible date and time matching input"
  | .invalid => "input contains invalid characters"
  | .tooShort => "premature end of input"
  | .tooLong => "trailing input"

/-- The largest number that may be written. -/
def greatestNumber : Nat := 9223372036854775807

/-- Digits onto a value, at most `room` of them if that is given. -/
def digits (value : Nat) (room : Option Nat) : List Char → Except Fault (Nat × List Char)
  | [] => .ok (value, [])
  | c :: rest =>
    if room = some 0 || !c.isDigit then .ok (value, c :: rest)
    else if value * 10 + digitValue c ≤ greatestNumber then
      digits (value * 10 + digitValue c) (room.map (· - 1)) rest
    else .error .outOfRange

/-- A number of at least one digit. -/
def number (room : Option Nat) : List Char → Except Fault (Nat × List Char)
  | [] => .error .tooShort
  | c :: rest => if c.isDigit then digits 0 room (c :: rest) else .error .invalid

/-- A number of at most two digits within limits, blanks before it. -/
def field (least greatest : Nat) (cs : List Char) : Except Fault (Nat × List Char) := do
  let (n, rest) ← number (some 2) (trimStart cs)
  if least ≤ n && n ≤ greatest then return (n, rest) else .error .outOfRange

/-- The largest year that is kept, and one more than the smallest. -/
def yearLimit : Nat := 2147483648

/-- A year: with a sign any number of digits, without one at most four. -/
def year (cs : List Char) : Except Fault (Int × List Char) := do
  let (y, rest) ← match trimStart cs with
    | '-' :: rest => do
      let (n, rest) ← number none rest
      pure (-(n : Int), rest)
    | '+' :: rest => do
      let (n, rest) ← number none rest
      pure ((n : Int), rest)
    | cs => do
      let (n, rest) ← number (some 4) cs
      pure ((n : Int), rest)
  if -(yearLimit : Int) ≤ y && y < yearLimit then return (y, rest) else .error .outOfRange

/-- One given character, blanks before it. -/
def mark (c : Char) (cs : List Char) : Except Fault (Unit × List Char) :=
  match trimStart cs with
  | [] => .error .tooShort
  | d :: rest => if d = c then .ok ((), rest) else .error .invalid

/-- The separator of date and time. -/
def separator : List Char → Except Fault (Unit × List Char)
  | [] => .error .tooShort
  | c :: rest => if c = 't' || c = 'T' || c = ' ' then .ok ((), rest) else .error .invalid

/-- The nanoseconds of a fraction, zero if there is none. -/
def fraction : List Char → Except Fault (Nat × List Char)
  | '.' :: cs => do
    let (n, rest) ← number (some 9) cs
    let places := cs.length - rest.length
    return (n * tenTo (9 - places), rest.dropWhile Char.isDigit)
  | cs => .ok (0, cs)

/-- The minutes of an offset. -/
def offsetMinutes : List Char → Except Fault (Nat × List Char)
  | a :: b :: rest =>
    if a.isDigit && b.isDigit then
      if digitValue a < 6 then .ok (digitValue a * 10 + digitValue b, rest) else .error .outOfRange
    else .error .invalid
  | _ => .error .tooShort

/-- The hours and minutes of an offset, in seconds. -/
def offsetMagnitude : List Char → Except Fault (Int × List Char)
  | a :: b :: rest =>
    if a.isDigit && b.isDigit then do
      let (minutes, rest) ← offsetMinutes (rest.dropWhile fun c => c = ':' || isBlank c)
      return ((digitValue a * 10 + digitValue b) * 3600 + minutes * 60, rest)
    else .error .invalid
  | _ => .error .tooShort

/-- The offset from UTC in seconds. -/
def offset (cs : List Char) : Except Fault (Int × List Char) :=
  match cs with
  | [] => .error .tooShort
  | c :: rest =>
    if (cs.take 3).map Char.toUpper = ['U', 'T', 'C'] then .ok (0, cs.drop 3)
    else if c = 'Z' || c = 'z' then .ok (0, rest)
    else if c = '+' then offsetMagnitude rest
    else if c = '-' || c = '\u2212' then do
      let (s, rest) ← offsetMagnitude rest
      return (-s, rest)
    else .error .invalid

/-- The instant of a date, a time of day in seconds and nanoseconds, and an offset. -/
def assemble (date : Date) (time nanos : Nat) (offset : Int) : Except Fault Instant :=
  let local' := date.toDays * 86400 + time
  if !date.isValid || local' < firstSecond || lastSecond < local' then .error .outOfRange
  else if offset ≤ -86400 || 86400 ≤ offset then .error .outOfRange
  else
    match of? (local' - offset) nanos with
    | some a => .ok a
    | none => .error .impossible

/-- The instant that a text names. -/
def read (s : String) : Except Fault Instant := do
  let (year, cs) ← year s.toList
  let ((), cs) ← mark '-' cs
  let (month, cs) ← field 1 12 cs
  let ((), cs) ← mark '-' cs
  let (day, cs) ← field 1 31 cs
  let ((), cs) ← separator cs
  let (hour, cs) ← field 0 23 cs
  let ((), cs) ← mark ':' cs
  let (minute, cs) ← field 0 59 cs
  let ((), cs) ← mark ':' cs
  let (second, cs) ← field 0 60 cs
  let (nanos, cs) ← fraction cs
  let (offset, cs) ← offset (trimStart cs)
  if !(trimStart cs).isEmpty then .error .tooLong
  else if second = 60 then
    assemble ⟨year, month, day⟩ (hour * 3600 + minute * 60 + 59) (nanos + 1000000000) offset
  else assemble ⟨year, month, day⟩ (hour * 3600 + minute * 60 + second) nanos offset

end ShareKeeper.Instant
