import ShareKeeper.Time.Calendar

/-!
# Instants

A point of time in UTC with nanoseconds. The second that a leap second repeats is told apart by a
nanosecond count of `10^9` and more. A `DateTime` may have such a count after any second. Leap
seconds are at the end of a minute, and an `Instant` is a date and time that keeps to that. Years
run from -262143 to 262142.

The text is `YYYY-MM-DDTHH:MM:SS`, a fraction of three, six or nine digits if one is needed, and
`Z`. Years outside 0 to 9999 carry a sign. A leap second is written as the second after the one that
it repeats. At the end of a minute that is the sixtieth, which no other second is written as;
elsewhere it is the text of the next second.
-/

namespace ShareKeeper

/-- The seconds of the first and the last representable day. -/
def firstSecond : Int := Date.toDays ⟨-262143, 1, 1⟩ * 86400

def lastSecond : Int := Date.toDays ⟨262142, 12, 31⟩ * 86400 + 86399

/-- Seconds since 1 January 1970 and nanoseconds. -/
structure DateTime where
  seconds : Int
  nanos : Nat
  inRange : firstSecond ≤ seconds ∧ seconds ≤ lastSecond
  nanos_lt : nanos < 2000000000
  deriving DecidableEq

/-- Whether a leap second is one at the end of a minute. -/
def DateTime.Regular (m : DateTime) : Prop := m.nanos < 1000000000 ∨ m.seconds % 60 = 59

instance (m : DateTime) : Decidable m.Regular := inferInstanceAs (Decidable (_ ∨ _))

/-- A date and time without leap seconds within a minute. -/
structure Instant extends DateTime where
  regular : toDateTime.Regular

namespace Instant

theorem ext {a b : Instant} (hs : a.seconds = b.seconds) (hn : a.nanos = b.nanos) : a = b := by
  obtain ⟨⟨_, _, _, _⟩, _⟩ := a
  obtain ⟨⟨_, _, _, _⟩, _⟩ := b
  cases hs; cases hn; rfl

instance : DecidableEq Instant := fun a b =>
  if h : a.seconds = b.seconds ∧ a.nanos = b.nanos then isTrue (ext h.1 h.2)
  else isFalse (fun e => h ⟨e ▸ rfl, e ▸ rfl⟩)

/-- The instant of a second and a nanosecond count, if there is one. -/
def of? (seconds : Int) (nanos : Nat) : Option Instant :=
  if h : ((firstSecond ≤ seconds ∧ seconds ≤ lastSecond) ∧ nanos < 2000000000) ∧
      (nanos < 1000000000 ∨ seconds % 60 = 59) then
    some ⟨⟨seconds, nanos, h.1.1, h.1.2⟩, h.2⟩
  else none

/-- **Every instant is the one of its parts.** -/
theorem of?_seconds_nanos (a : Instant) : of? a.seconds a.nanos = some a :=
  dif_pos ⟨⟨a.inRange, a.nanos_lt⟩, a.regular⟩

/-- The epoch. -/
def epoch : Instant := ⟨⟨0, 0, by decide, by decide⟩, .inl (by decide)⟩

instance : Inhabited Instant := ⟨epoch⟩

end Instant

/-! ## Text -/

namespace DateTime

/-- A number with leading zeros up to a width. -/
def padded (width n : Nat) : String :=
  let digits := Nat.toDigits 10 n
  String.ofList (List.replicate (width - digits.length) '0' ++ digits)

/-- A year: four digits, and a sign outside 0 to 9999. -/
def yearText (y : Int) : String :=
  if 0 ≤ y && y ≤ 9999 then padded 4 y.toNat
  else (if y < 0 then "-" else "+") ++ padded 4 y.natAbs

/-- The fraction of a second, with as few groups of three digits as are exact. -/
def fractionText (nanos : Nat) : String :=
  if nanos = 0 then ""
  else if nanos % 1000000 = 0 then "." ++ padded 3 (nanos / 1000000)
  else if nanos % 1000 = 0 then "." ++ padded 6 (nanos / 1000)
  else "." ++ padded 9 nanos

/-- The text up to the seconds; a leap second is the one after. -/
def clockText (m : DateTime) : String :=
  let d := Date.ofDays (m.seconds / 86400)
  let t := (m.seconds % 86400).toNat
  let second := t % 60 + (if m.nanos < 1000000000 then 0 else 1)
  yearText d.year ++ "-" ++ padded 2 d.month ++ "-" ++ padded 2 d.day ++ "T" ++ padded 2 (t / 3600)
    ++ ":" ++ padded 2 (t / 60 % 60) ++ ":" ++ padded 2 second

/-- The text of a date and time. -/
def render (m : DateTime) : String :=
  m.clockText ++ fractionText (m.nanos % 1000000000) ++ "Z"

instance : ToString DateTime := ⟨render⟩

end DateTime

/-- The text of an instant. -/
def Instant.render (a : Instant) : String := a.toDateTime.render

instance : ToString Instant := ⟨Instant.render⟩

@[simp] theorem Instant.toString_eq (a : Instant) : toString a = a.render := rfl

/-! ## Whole seconds -/

/-- An instant without a fraction of a second. -/
structure Timestamp where
  instant : Instant
  whole : instant.nanos % 1000000000 = 0
  deriving DecidableEq

namespace Timestamp

theorem ext {s t : Timestamp} (h : s.instant = t.instant) : s = t := by
  cases s; cases t; cases h; rfl

/-- An instant cut to its second. -/
def ofInstant (a : Instant) : Timestamp where
  instant :=
    { seconds := a.seconds
      nanos := if a.nanos < 1000000000 then 0 else 1000000000
      inRange := a.inRange
      nanos_lt := by split <;> decide
      regular := by
        have := a.regular
        unfold DateTime.Regular at this ⊢
        dsimp only
        split <;> omega }
  whole := by dsimp only; split <;> rfl

/-- **A timestamp is the cut of its own instant.** -/
theorem ofInstant_instant (t : Timestamp) : ofInstant t.instant = t := by
  obtain ⟨⟨⟨s, n, hr, hn⟩, hm⟩, hw⟩ := t
  have h : (if n < 1000000000 then 0 else 1000000000) = n := by
    dsimp only at hw
    split <;> omega
  exact ext (Instant.ext rfl h)

def render (t : Timestamp) : String := t.instant.render

end Timestamp

end ShareKeeper
