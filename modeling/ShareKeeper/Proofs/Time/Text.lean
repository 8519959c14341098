import ShareKeeper.Proofs.Text.Integer
import ShareKeeper.Proofs.Time.Calendar
import ShareKeeper.Time.Reader

/-!
# Instants as text, there and back

The text of an instant reads back as that instant (`Instant.read_render`): years of any sign and of more
than four digits, fractions of three, six and nine digits, and leap seconds. A leap second that is not at
the end of a minute has the text of the next second, and reads back as that (`DateTime.read_render`).

The text is a sequence of numbers with a mark after each. A number that is padded to a width reads back
in front of every text at which the reading of digits stops, and so each part is read off and the rest
is left.
-/

namespace ShareKeeper

/-- A computation that goes on from a value. -/
theorem ok_bind {ε α β : Type} (a : α) (f : α → Except ε β) : (Except.ok a >>= f) = f a := rfl

namespace Instant

open DateTime (clockText fractionText padded yearText)
open Text (IsNumeral digitValue isBlank isBlank_of_isDigit isNumeral_toDigits le_ofDigitChars
  ofDigitChars_cons_eq trimStart trimStart_cons)

/-! ## Digits -/

/-- The reading of digits stops after so many of them: there is no room for more, or what follows is no
digit. -/
def Stops (room : Option Nat) (count : Nat) (rest : List Char) : Prop :=
  room = some count ∨ (∀ n ∈ room, count ≤ n) ∧ ∀ c ∈ rest.head?, c.isDigit = false

theorem Stops.tail {room : Option Nat} {count : Nat} {rest : List Char}
    (h : Stops room (count + 1) rest) : room ≠ some 0 ∧ Stops (room.map (· - 1)) count rest := by
  obtain rfl | ⟨hroom, hrest⟩ := h
  · exact ⟨by simp, .inl rfl⟩
  · refine ⟨fun h0 => ?_, .inr ⟨fun n hn => ?_, hrest⟩⟩
    · have := hroom 0 h0
      omega
    · obtain ⟨m, hm, rfl⟩ := Option.map_eq_some_iff.1 hn
      have := hroom m hm
      omega

/-- Digits are read off, as far as their value may be written. -/
theorem digits_append {ds rest : List Char} {room : Option Nat} (value : Nat)
    (hds : ∀ c ∈ ds, c.isDigit = true) (hvalue : Nat.ofDigitChars 10 ds value ≤ greatestNumber)
    (hstops : Stops room ds.length rest) :
    digits value room (ds ++ rest) = .ok (Nat.ofDigitChars 10 ds value, rest) := by
  -- on the digits, with the value so far and the room left
  induction ds generalizing value room with
  | nil =>
    cases rest with
    | nil => rfl
    | cons c rest =>
      have hstop : (room = some 0 || !c.isDigit) = true := by
        obtain rfl | ⟨-, hrest⟩ := hstops
        · rfl
        · simp [hrest c rfl]
      rw [List.nil_append, digits, if_pos hstop, Nat.ofDigitChars_nil]
  | cons c ds ih =>
    obtain ⟨hroom, hstops⟩ := hstops.tail
    have hc : c.isDigit = true := hds c List.mem_cons_self
    have hgo : ¬ (room = some 0 || !c.isDigit) = true := by simp [hroom, hc]
    rw [ofDigitChars_cons_eq] at hvalue ⊢
    have hle : value * 10 + digitValue c ≤ greatestNumber := (le_ofDigitChars ds _).trans hvalue
    rw [List.cons_append, digits, if_neg hgo, if_pos hle]
    exact ih _ (fun d hd => hds d (List.mem_cons_of_mem _ hd)) hvalue hstops

/-! ## Padded numbers -/

section Padded

variable (w n : Nat)

theorem toList_padded : (padded w n).toList
    = List.replicate (w - (Nat.toDigits 10 n).length) '0' ++ Nat.toDigits 10 n :=
  String.toList_ofList

theorem isNumeral_padded : IsNumeral (padded w n).toList n := by
  rw [toList_padded]
  exact (isNumeral_toDigits n).zeros_append _

variable {w n}

theorem length_padded (hw : 0 < w) (hn : n < 10 ^ w) : (padded w n).toList.length = w := by
  have hlen := (Nat.length_toDigits_le_iff (by decide : 1 < 10) hw).2 hn
  rw [toList_padded, List.length_append, List.length_replicate]
  omega

theorem trimStart_padded (rest : List Char) :
    trimStart ((padded w n).toList ++ rest) = (padded w n).toList ++ rest := by
  obtain ⟨c, cs, h, hc⟩ := (isNumeral_padded w n).exists_cons
  rw [h]
  exact trimStart_cons (isBlank_of_isDigit hc) _

/-- A padded number is read off in front of a text at which digits end. -/
theorem number_padded {room : Option Nat} {rest : List Char} (hn : n ≤ greatestNumber)
    (hstops : Stops room (padded w n).toList.length rest) :
    number room ((padded w n).toList ++ rest) = .ok (n, rest) := by
  have hnumeral := isNumeral_padded w n
  have hread := digits_append 0 hnumeral.digits (by rwa [hnumeral.value]) hstops
  rw [hnumeral.value] at hread
  obtain ⟨c, cs, h, hc⟩ := hnumeral.exists_cons
  rw [h] at hread ⊢
  rw [List.cons_append, number, if_pos hc]
  exact hread

/-- A number that fills its width is read off in front of any text if there is no room for more. -/
theorem number_padded_width (hw : 0 < w) (hn : n < 10 ^ w) (hgreat : n ≤ greatestNumber)
    (rest : List Char) : number (some w) ((padded w n).toList ++ rest) = .ok (n, rest) :=
  number_padded hgreat (.inl (by rw [length_padded hw hn]))

/-- A field of two digits within its limits. -/
theorem field_padded {least greatest : Nat} (hlow : least ≤ n) (hhigh : n ≤ greatest) (hn : n < 100)
    (rest : List Char) : field least greatest ((padded 2 n).toList ++ rest) = .ok (n, rest) := by
  have hread : number (some 2) ((padded 2 n).toList ++ rest) = .ok (n, rest) :=
    number_padded_width (by decide) hn (hn.le.trans (by decide)) rest
  rw [field, trimStart_padded, hread]
  show (if least ≤ n && n ≤ greatest then _ else _) = _
  rw [if_pos (by simp [hlow, hhigh])]
  rfl

end Padded

/-! ## The parts -/

/-- The digits of a year with their sign, before its limits are asked for. -/
def signedYear (cs : List Char) : Except Fault (Int × List Char) :=
  match trimStart cs with
  | '-' :: rest => do
    let (n, rest) ← number none rest
    pure (-(n : Int), rest)
  | '+' :: rest => do
    let (n, rest) ← number none rest
    pure ((n : Int), rest)
  | cs => do
    let (n, rest) ← number (some 4) cs
    pure ((n : Int), rest)

theorem year_of_signedYear {cs rest : List Char} {y : Int} (h : signedYear cs = .ok (y, rest))
    (hy : y.natAbs < yearLimit) : year cs = .ok (y, rest) := by
  have hlimit : (-(yearLimit : Int) ≤ y && y < yearLimit) = true := by
    rw [Bool.and_eq_true, decide_eq_true_eq, decide_eq_true_eq]
    omega
  have heq : year cs = signedYear cs >>= fun p =>
      if -(yearLimit : Int) ≤ p.1 && p.1 < yearLimit then pure (p.1, p.2)
      else .error .outOfRange := by
    unfold year signedYear
    generalize trimStart cs = trimmed
    split <;> simp only [bind_assoc, pure_bind]
  rw [heq, h]
  exact if_pos hlimit

/-- A year of at most six digits, in front of something that is no digit. -/
theorem year_yearText {y : Int} (hy : y.natAbs < 1000000) {rest : List Char}
    (hrest : ∀ c ∈ rest.head?, c.isDigit = false) :
    year ((yearText y).toList ++ rest) = .ok (y, rest) := by
  refine year_of_signedYear ?_ (hy.trans (by decide))
  have hsigned : number none ((padded 4 y.natAbs).toList ++ rest) = .ok (y.natAbs, rest) :=
    number_padded (hy.le.trans (by decide)) (.inr ⟨by simp, hrest⟩)
  unfold yearText
  split
  · -- four digits and no sign
    next hplain =>
    rw [Bool.and_eq_true, decide_eq_true_eq, decide_eq_true_eq] at hplain
    have hread : number (some 4) ((padded 4 y.toNat).toList ++ rest) = .ok (y.toNat, rest) :=
      number_padded_width (by decide) (by omega) (by unfold greatestNumber; omega) rest
    rw [signedYear, trimStart_padded]
    obtain ⟨c, cs, h, hc⟩ := (isNumeral_padded 4 y.toNat).exists_cons
    rw [h] at hread ⊢
    split
    · next heq =>
      cases heq
      cases hc
    · next heq =>
      cases heq
      cases hc
    · rw [hread]
      show Except.ok ((y.toNat : Int), rest) = _
      rw [Int.toNat_of_nonneg hplain.1]
  · -- a sign, after which the digits are read as far as they go
    by_cases hneg : y < 0
    · simp only [if_pos hneg, String.toList_append, String.reduceToList, List.cons_append,
        List.nil_append]
      show number none ((padded 4 y.natAbs).toList ++ rest) >>= _ = _
      rw [hsigned]
      show Except.ok (-(y.natAbs : Int), rest) = _
      rw [Int.ofNat_natAbs_of_nonpos hneg.le, Int.neg_neg]
    · simp only [if_neg hneg, String.toList_append, String.reduceToList, List.cons_append,
        List.nil_append]
      show number none ((padded 4 y.natAbs).toList ++ rest) >>= _ = _
      rw [hsigned]
      show Except.ok ((y.natAbs : Int), rest) = _
      rw [Int.natAbs_of_nonneg (not_lt.1 hneg)]

/-- A mark that is not blank. -/
theorem mark_cons {c : Char} (h : isBlank c = false) (rest : List Char) :
    mark c (c :: rest) = .ok ((), rest) := by
  rw [mark, trimStart_cons h]
  exact if_pos rfl

/-- The digits of a fraction, in front of something that is no digit. -/
theorem fraction_padded {w n : Nat} (hw : 0 < w) (hwide : w ≤ 9) (hn : n < 10 ^ w) {c : Char}
    (hc : c.isDigit = false) (rest : List Char) :
    fraction ('.' :: ((padded w n).toList ++ c :: rest)) = .ok (n * tenTo (9 - w), c :: rest) := by
  have hlen := length_padded hw hn
  have hgreat : n ≤ greatestNumber := by
    have : (10 : Nat) ^ w ≤ 10 ^ 9 := Nat.pow_le_pow_right (by decide) hwide
    unfold greatestNumber
    omega
  have hread : number (some 9) ((padded w n).toList ++ c :: rest) = .ok (n, c :: rest) :=
    number_padded hgreat (.inr ⟨fun m hm => by cases hm; rw [hlen]; exact hwide,
      fun d hd => by cases hd; exact hc⟩)
  have hplaces : ((padded w n).toList ++ c :: rest).length - (c :: rest).length = w := by
    rw [List.length_append, hlen]
    omega
  rw [fraction, hread]
  show Except.ok (n * tenTo (9 - (((padded w n).toList ++ c :: rest).length - (c :: rest).length)),
    (c :: rest).dropWhile Char.isDigit) = _
  rw [hplaces, List.dropWhile_cons_of_neg (by simp [hc])]

/-- The fraction of a second, in front of something that is neither a digit nor a point. -/
theorem fraction_fractionText {nanos : Nat} (h : nanos < 1000000000) {c : Char}
    (hc : c.isDigit = false) (hpoint : c ≠ '.') (rest : List Char) :
    fraction ((fractionText nanos).toList ++ c :: rest) = .ok (nanos, c :: rest) := by
  have hfraction : ∀ w, 0 < w → w ≤ 9 → ∀ n, n < 10 ^ w → n * tenTo (9 - w) = nanos →
      fraction (("." ++ padded w n).toList ++ c :: rest) = .ok (nanos, c :: rest) := by
    intro w hw hwide n hn hvalue
    simp only [String.toList_append, String.reduceToList, List.cons_append, List.nil_append]
    rw [← hvalue]
    exact fraction_padded hw hwide hn hc rest
  unfold fractionText
  split
  · next hzero =>
    rw [hzero]
    show fraction (c :: rest) = _
    unfold fraction
    split
    · next heq =>
      cases heq
      exact absurd rfl hpoint
    · rfl
  · split
    · next hmilli => exact hfraction 3 (by decide) (by decide) _ (by omega) (by
        show nanos / 1000000 * 1000000 = nanos
        omega)
    · split
      · next hmicro => exact hfraction 6 (by decide) (by decide) _ (by omega) (by
          show nanos / 1000 * 1000 = nanos
          omega)
      · exact hfraction 9 (by decide) (by decide) _ (by omega) (Nat.mul_one nanos)

/-! ## Texts -/

/-- The text of a date and a time of day in UTC. -/
def layout (d : Date) (hour minute second nanos : Nat) : List Char :=
  (yearText d.year).toList ++ '-' :: ((padded 2 d.month).toList ++ '-' :: ((padded 2 d.day).toList
    ++ 'T' :: ((padded 2 hour).toList ++ ':' :: ((padded 2 minute).toList
    ++ ':' :: ((padded 2 second).toList ++ ((fractionText nanos).toList ++ ['Z']))))))

/-- Reading takes a text apart as it was put together. -/
theorem read_layout {d : Date} {hour minute second nanos : Nat} (hyear : d.year.natAbs < 1000000)
    (hmonth : 1 ≤ d.month ∧ d.month ≤ 12) (hday : 1 ≤ d.day ∧ d.day ≤ 31) (hhour : hour ≤ 23)
    (hminute : minute ≤ 59) (hsecond : second ≤ 60) (hnanos : nanos < 1000000000) {s : String}
    (hs : s.toList = layout d hour minute second nanos) :
    read s = if second = 60 then assemble d (hour * 3600 + minute * 60 + 59) (nanos + 1000000000) 0
      else assemble d (hour * 3600 + minute * 60 + second) nanos 0 := by
  have hdash : ∀ rest, mark '-' ('-' :: rest) = .ok ((), rest) := mark_cons rfl
  have hcolon : ∀ rest, mark ':' (':' :: rest) = .ok ((), rest) := mark_cons rfl
  have hT : ∀ rest, separator ('T' :: rest) = .ok ((), rest) := fun _ => rfl
  have hfraction : fraction ((fractionText nanos).toList ++ ['Z']) = .ok (nanos, ['Z']) :=
    fraction_fractionText hnanos rfl (by decide) []
  have hZ : offset (trimStart ['Z']) = .ok (0, []) := rfl
  rw [read, hs, layout, year_yearText hyear (by rintro c ⟨⟩; rfl)]
  simp only [ok_bind, hdash, field_padded hmonth.1 hmonth.2 (by omega : d.month < 100),
    field_padded hday.1 hday.2 (by omega : d.day < 100), hT,
    field_padded (Nat.zero_le _) hhour (by omega : hour < 100), hcolon,
    field_padded (Nat.zero_le _) hminute (by omega : minute < 100),
    field_padded (Nat.zero_le _) hsecond (by omega : second < 100), hfraction, hZ]
  rfl

/-! ## Instants -/

/-- The year of an instant has at most six digits. -/
theorem natAbs_year_lt (a : Instant) : (Date.ofDays (a.seconds / 86400)).year.natAbs < 1000000 := by
  have hfirst : firstSecond = -8334601228800 := by decide
  have hlast : lastSecond = 8210266876799 := by decide
  have hrange := a.inRange
  have hyear := Date.year_ofDays (a.seconds / 86400)
  unfold Date.eraDays Date.epochShift at hyear
  omega

/-- The parts of an instant make up that instant. -/
theorem assemble_parts (a : Instant) {time nanos : Nat}
    (htime : (time : Int) = a.seconds % 86400) (hnanos : nanos = a.nanos) :
    assemble (Date.ofDays (a.seconds / 86400)) time nanos 0 = .ok a := by
  have hlocal : (Date.ofDays (a.seconds / 86400)).toDays * 86400 + time = a.seconds := by
    rw [Date.toDays_ofDays, htime]
    omega
  have hrange : ¬ (!(Date.ofDays (a.seconds / 86400)).isValid || a.seconds < firstSecond ||
      lastSecond < a.seconds) = true := by
    have := a.inRange
    simp only [Date.isValid_ofDays, Bool.not_true, Bool.false_or, Bool.or_eq_true, decide_eq_true_eq]
    omega
  unfold assemble
  dsimp only
  rw [hlocal, if_neg hrange, if_neg (by decide), Int.sub_zero, hnanos, of?_seconds_nanos]

/-- **The text of an instant reads back as that instant.** -/
theorem read_render (a : Instant) : read a.render = .ok a := by
  have htime : 0 ≤ a.seconds % 86400 ∧ a.seconds % 86400 < 86400 := by omega
  have hlayout : a.render.toList = layout (Date.ofDays (a.seconds / 86400))
      ((a.seconds % 86400).toNat / 3600) ((a.seconds % 86400).toNat / 60 % 60)
      ((a.seconds % 86400).toNat % 60 + if a.nanos < 1000000000 then 0 else 1)
      (a.nanos % 1000000000) := by
    simp only [render, DateTime.render, clockText, layout, String.toList_append, String.reduceToList,
      List.append_assoc, List.cons_append, List.nil_append]
  have hnanos := a.nanos_lt
  have hregular := a.regular
  unfold DateTime.Regular at hregular
  have hfraction : a.nanos % 1000000000 < 1000000000 := Nat.mod_lt _ (by decide)
  by_cases hplain : a.nanos < 1000000000
  · rw [if_pos hplain] at hlayout
    rw [read_layout (natAbs_year_lt a) (Date.month_ofDays _) (Date.day_ofDays _) (by omega)
      (by omega) (by omega) hfraction hlayout, if_neg (by omega)]
    exact assemble_parts a (by omega) (by omega)
  · -- a leap second
    rw [if_neg hplain] at hlayout
    rw [read_layout (natAbs_year_lt a) (Date.month_ofDays _) (Date.day_ofDays _) (by omega)
      (by omega) (by omega) hfraction hlayout, if_pos (by omega)]
    exact assemble_parts a (by omega) (by omega)

end Instant

/-! ## Leap seconds within a minute -/

namespace DateTime

/-- The instant that a date and time stands for in text: a leap second within a minute is the next
second. -/
def settle (m : DateTime) : Instant :=
  if h : m.Regular then ⟨m, h⟩
  else
    { seconds := m.seconds + 1
      nanos := m.nanos - 1000000000
      inRange := by
        have hlast : lastSecond % 60 = 59 := by decide
        have hrange := m.inRange
        unfold Regular at h
        constructor
        · omega
        · have : m.seconds ≠ lastSecond := fun heq => h (.inr (heq ▸ hlast))
          omega
      nanos_lt := by
        have := m.nanos_lt
        omega
      regular := by
        have := m.nanos_lt
        unfold Regular
        dsimp only
        omega }

theorem settle_of_regular {m : DateTime} (h : m.Regular) : m.settle = ⟨m, h⟩ := dif_pos h

/-- What is regular stays as it is, and nothing else does. -/
theorem toDateTime_settle_iff {m : DateTime} : m.settle.toDateTime = m ↔ m.Regular := by
  constructor
  · intro h
    rw [← h]
    exact m.settle.regular
  · intro h
    rw [settle_of_regular h]

/-- **A date and time has the text of the instant that it settles to.** -/
theorem render_settle (m : DateTime) : m.settle.render = m.render := by
  by_cases h : m.Regular
  · rw [settle_of_regular h]
    rfl
  · -- the next second is of the same minute, and its number is one more
    have hseconds : m.settle.seconds = m.seconds + 1 := by rw [settle, dif_neg h]
    have hnanos : m.settle.nanos = m.nanos - 1000000000 := by rw [settle, dif_neg h]
    have hlimit := m.nanos_lt
    unfold Regular at h
    have hday : (m.seconds + 1) / 86400 = m.seconds / 86400 := by omega
    have htime : ((m.seconds + 1) % 86400).toNat = (m.seconds % 86400).toNat + 1 := by omega
    have hminute : (m.seconds % 86400).toNat % 60 ≠ 59 := by omega
    rw [Instant.render, render, render, clockText, clockText, hseconds, hnanos, hday, htime]
    generalize (m.seconds % 86400).toNat = t at hminute
    have hhour : (t + 1) / 3600 = t / 3600 := by omega
    have hsixtieth : (t + 1) / 60 % 60 = t / 60 % 60 := by omega
    have hsecond : (t + 1) % 60 = t % 60 + 1 := by omega
    have hfraction : (m.nanos - 1000000000) % 1000000000 = m.nanos % 1000000000 := by omega
    rw [hhour, hsixtieth, hsecond, hfraction, if_pos (by omega), if_neg (by omega)]

/-- **The text of a date and time** reads back as the instant that it settles to. -/
theorem read_render (m : DateTime) : Instant.read m.render = .ok m.settle := by
  rw [← render_settle, Instant.read_render]

end DateTime

end ShareKeeper
