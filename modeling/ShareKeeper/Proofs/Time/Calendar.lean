import Mathlib.Tactic.IntervalCases
import ShareKeeper.Time.Calendar

/-!
# The calendar, there and back

A day of an era is found by its century, by the four years of the century that end with a leap year,
by the year among these, and by the day of that year, which starts in March (`Cycles`). Only the last
year of four years has a day 365, and the last one of a century only in the last century.

The date of a day count is a date of the calendar (`isValid_ofDays`) and has that day count
(`toDays_ofDays`).
-/

namespace ShareKeeper.Date

/-! ## Days of an era -/

/-- Day `n` of an era is day `t` of year `y` of four years, of `q` fours of years in century `c`. -/
structure Cycles (n c q y t : Int) : Prop where
  eq : n = 36524 * c + 1461 * q + 365 * y + t
  century : 0 ≤ c ∧ c ≤ 3
  quad : 0 ≤ q ∧ q ≤ 24
  year : 0 ≤ y ∧ y ≤ 3
  day : 0 ≤ t ∧ t ≤ 365
  leap : t = 365 → y = 3 ∧ (q = 24 → c = 3)

theorem exists_cycles {n : Int} (h0 : 0 ≤ n) (h : n < eraDays) : ∃ c q y t, Cycles n c q y t := by
  unfold eraDays at h
  -- the leap day at the end of an era would be the first day of a fifth century, and the one at the end
  -- of four years the first day of a fifth year
  obtain ⟨c, r, hn, hc, hr⟩ : ∃ c r : Int, n = 36524 * c + r ∧ (0 ≤ c ∧ c ≤ 3) ∧
      0 ≤ r ∧ r ≤ 36524 ∧ (r = 36524 → c = 3) :=
    ⟨min (n / 36524) 3, n - 36524 * min (n / 36524) 3, by omega, by omega, by omega⟩
  obtain ⟨y, t, hs, hy, ht⟩ : ∃ y t : Int, r % 1461 = 365 * y + t ∧ (0 ≤ y ∧ y ≤ 3) ∧
      0 ≤ t ∧ t ≤ 365 ∧ (t = 365 → y = 3) :=
    ⟨min (r % 1461 / 365) 3, r % 1461 - 365 * min (r % 1461 / 365) 3, by omega, by omega, by omega⟩
  exact ⟨c, r / 1461, y, t, by omega, hc, by omega, hy, by omega, by omega⟩

namespace Cycles

variable {n c q y t : Int} (h : Cycles n c q y t)
include h

theorem yearOfEra : (n - n / 1460 + n / 36524 - n / 146096) / 365 = 100 * c + 4 * q + y := by
  obtain ⟨hn, hc, hq, hy, ht, hleap⟩ := h
  have hrest : 0 ≤ 1461 * q + 365 * y + t ∧ 1461 * q + 365 * y + t ≤ 36524 := by omega
  have hlast : 1461 * q + 365 * y + t = 36524 → c = 3 := by omega
  have hcentury : n / 36524 - n / 146096 = c := by omega
  omega

theorem dayOfYear :
    n - (365 * (100 * c + 4 * q + y) + (100 * c + 4 * q + y) / 4 - (100 * c + 4 * q + y) / 100)
      = t := by
  obtain ⟨hn, hc, hq, hy, -, -⟩ := h
  omega

/-- The leap day is the last day of a year before a leap year. -/
theorem isLeapYear_of_leapDay (ht : t = 365) (era : Int) :
    isLeapYear (100 * c + 4 * q + y + era * 400 + 1) = true := by
  obtain ⟨-, hc, hq, -, -, hleap⟩ := h
  obtain ⟨rfl, hlast⟩ := hleap ht
  have hfour : (100 * c + 4 * q + 3 + era * 400 + 1) % 4 = 0 := by omega
  have hhundred : (100 * c + 4 * q + 3 + era * 400 + 1) % 100 ≠ 0 ∨
      (100 * c + 4 * q + 3 + era * 400 + 1) % 400 = 0 := by omega
  simpa [isLeapYear, hfour] using hhundred

end Cycles

/-! ## Days of a year -/

/-- Day `t` of the year that starts in March of year `y`. -/
def ofMarch (y t : Int) : Date :=
  let m := (5 * t + 2) / 153
  let month := if m < 10 then m + 3 else m - 9
  ⟨if month ≤ 2 then y + 1 else y, month.toNat, (t - (153 * m + 2) / 5 + 1).toNat⟩

/-- The day count of that day. -/
theorem toDays_ofMarch (y : Int) {t : Int} (h0 : 0 ≤ t) (h : t ≤ 365) :
    toDays (ofMarch y t)
      = y / 400 * eraDays + (y % 400 * 365 + y % 400 / 4 - y % 400 / 100 + t) - epochShift := by
  unfold toDays ofMarch eraDays epochShift
  dsimp only
  have hmonth : 0 ≤ (5 * t + 2) / 153 ∧ (5 * t + 2) / 153 ≤ 11 := by omega
  by_cases hm : (5 * t + 2) / 153 < 10
  · -- March to December
    have hlate : ¬ (5 * t + 2) / 153 + 3 ≤ 2 := by omega
    have hlate' : ¬ ((5 * t + 2) / 153 + 3).toNat ≤ 2 := by omega
    simp only [if_pos hm, if_neg hlate, if_neg hlate']
    omega
  · -- January and February, which are counted with the year before
    have hearly : (5 * t + 2) / 153 - 9 ≤ 2 := by omega
    have hearly' : ((5 * t + 2) / 153 - 9).toNat ≤ 2 := by omega
    simp only [if_neg hm, if_pos hearly, if_pos hearly']
    omega

theorem isValid_ofMarch {y t : Int} (h0 : 0 ≤ t) (h : t ≤ 365)
    (hleap : t = 365 → isLeapYear (y + 1) = true) : (ofMarch y t).isValid = true := by
  unfold isValid ofMarch
  dsimp only
  have hm : 153 * ((5 * t + 2) / 153) ≤ 5 * t + 2 ∧ 5 * t + 2 < 153 * ((5 * t + 2) / 153) + 153 := by
    omega
  generalize (5 * t + 2) / 153 = m at hm
  obtain rfl | hshort : m = 11 ∨ m < 11 := by omega
  · -- the year ends with February
    by_cases hlast : t = 365
    · simp [daysInMonth, hlast, hleap hlast]
    · simp only [daysInMonth, Int.reduceLT, ↓reduceIte, Int.reduceSub, Int.reduceLE, Int.reduceToNat,
        Bool.and_eq_true, decide_eq_true_eq]
      constructor
      · omega
      · split <;> omega
  · have hm0 : 0 ≤ m := by omega
    interval_cases m <;> simp [daysInMonth] <;> omega

theorem month_ofMarch (y : Int) {t : Int} (h0 : 0 ≤ t) (h : t ≤ 365) :
    1 ≤ (ofMarch y t).month ∧ (ofMarch y t).month ≤ 12 := by
  unfold ofMarch
  dsimp only
  split <;> omega

theorem day_ofMarch (y t : Int) :
    1 ≤ (ofMarch y t).day ∧ (ofMarch y t).day ≤ 31 := by
  unfold ofMarch
  dsimp only
  omega

/-! ## Day counts -/

/-- **The date of a day count** is the one of its place in the cycles. -/
theorem exists_ofMarch (days : Int) : ∃ c q y t,
    Cycles ((days + epochShift) % eraDays) c q y t ∧
      ofDays days = ofMarch (100 * c + 4 * q + y + (days + epochShift) / eraDays * 400) t := by
  have hlow : 0 ≤ (days + epochShift) % eraDays := Int.emod_nonneg _ (by decide)
  have hhigh : (days + epochShift) % eraDays < eraDays := Int.emod_lt_of_pos _ (by decide)
  obtain ⟨c, q, y, t, h⟩ := exists_cycles hlow hhigh
  refine ⟨c, q, y, t, h, ?_⟩
  unfold ofDays ofMarch
  dsimp only
  rw [h.yearOfEra, h.dayOfYear]

/-- **The date of a day count has that day count.** -/
theorem toDays_ofDays (days : Int) : toDays (ofDays days) = days := by
  obtain ⟨c, q, y, t, h, hdate⟩ := exists_ofMarch days
  rw [hdate, toDays_ofMarch _ h.day.1 h.day.2]
  have hday := h.dayOfYear
  obtain ⟨-, hc, hq, hy, -, -⟩ := h
  generalize hera : (days + epochShift) / eraDays = era at *
  have hyear : 0 ≤ 100 * c + 4 * q + y ∧ 100 * c + 4 * q + y < 400 := by omega
  rw [show (100 * c + 4 * q + y + era * 400) / 400 = era by omega,
    show (100 * c + 4 * q + y + era * 400) % 400 = 100 * c + 4 * q + y by omega]
  unfold eraDays at *
  omega

/-- The epoch is day zero. -/
example : ofDays 0 = ⟨1970, 1, 1⟩ := by decide

/-- **The date of a day count is in the calendar.** -/
theorem isValid_ofDays (days : Int) : (ofDays days).isValid = true := by
  obtain ⟨c, q, y, t, h, hdate⟩ := exists_ofMarch days
  rw [hdate]
  exact isValid_ofMarch h.day.1 h.day.2 fun ht => h.isLeapYear_of_leapDay ht _

theorem month_ofDays (days : Int) : 1 ≤ (ofDays days).month ∧ (ofDays days).month ≤ 12 := by
  obtain ⟨c, q, y, t, h, hdate⟩ := exists_ofMarch days
  rw [hdate]
  exact month_ofMarch _ h.day.1 h.day.2

theorem day_ofDays (days : Int) : 1 ≤ (ofDays days).day ∧ (ofDays days).day ≤ 31 := by
  obtain ⟨c, q, y, t, h, hdate⟩ := exists_ofMarch days
  rw [hdate]
  exact day_ofMarch _ _

/-- The year is one of the era, or the one after it. -/
theorem year_ofDays (days : Int) :
    (days + epochShift) / eraDays * 400 ≤ (ofDays days).year ∧
      (ofDays days).year ≤ (days + epochShift) / eraDays * 400 + 400 := by
  obtain ⟨c, q, y, t, ⟨-, hc, hq, hy, -, -⟩, hdate⟩ := exists_ofMarch days
  rw [hdate, ofMarch]
  dsimp only
  split <;> omega

end ShareKeeper.Date
