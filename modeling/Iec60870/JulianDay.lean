import Iec60870.Gregorian

/-!
# Dates from Julian day numbers

There is another sequence of divisions that leads from the number of a day to its
date. It starts 4800 years before the year 0, counts *quarters of days* and divides
twice: by the 146097 quarters that a century has on average, then by the 1461 that a
year has on average within a century. Leap days come out right by rounding: a century
or a year starts on the day in which its average start falls.

`yearOf_eq` and `dayOfYearOf_eq` say that it finds the year and the day of the year
that `Date.ofNumber` has, which divides by eras of 400 years and takes the leap days
out first. Neither is reduced to the other: the day lies between the first days of
the year that was found and of the next one, and a day is in one year only
(`year_unique`).
-/

namespace Gregorian

section Century

variable (a : ℕ)

/-- The century of a day, counted from 4800 years before the year 0. -/
def century : ℕ := (4 * a + 3) / 146097

/-- The day in its century. -/
def dayOfCentury : ℕ := a - 146097 * century a / 4

/-- A century starts on or before its days. -/
theorem centuryStart_le : 146097 * century a / 4 ≤ a := by
  unfold century
  omega

/-- And the next one after them. -/
theorem lt_centuryStart_succ : a < 146097 * (century a + 1) / 4 := by
  unfold century
  omega

theorem dayOfCentury_le : dayOfCentury a ≤ 36524 := by
  have hlt := lt_centuryStart_succ a
  unfold dayOfCentury
  omega

end Century

section Year

variable (c : ℕ)

/-- The year of a day in a century. -/
def yearOfCentury : ℕ := (4 * c + 3) / 1461

/-- The day in this year. -/
def dayOfCenturyYear : ℕ := c - 1461 * yearOfCentury c / 4

theorem centuryYearStart_le : 1461 * yearOfCentury c / 4 ≤ c := by
  unfold yearOfCentury
  omega

theorem lt_centuryYearStart_succ : c < 1461 * (yearOfCentury c + 1) / 4 := by
  unfold yearOfCentury
  omega

theorem yearOfCentury_le {c : ℕ} (h : c ≤ 36524) : yearOfCentury c ≤ 99 := by
  unfold yearOfCentury
  omega

end Year

/-- The first day of a year, from that of its century. -/
theorem yearStart_century (b d : ℕ) (h : d ≤ 99) : yearStart (100 * b + d - 4800) + 12 * 146097
      = (146097 * b / 4 : ℕ) + (1461 * d / 4 : ℕ) := by
  have hfour : (100 * b + d - 4800 : ℤ) / 4 = 25 * b + d / 4 - 1200 := by omega
  have hhundred : (100 * b + d - 4800 : ℤ) / 100 = b - 48 := by omega
  have hera : (100 * b + d - 4800 : ℤ) / 400 = b / 4 - 12 := by omega
  have hcentury : 146097 * b / 4 = 36524 * b + b / 4 := by omega
  have hyear : 1461 * d / 4 = 365 * d + d / 4 := by omega
  rw [yearStart, hfour, hhundred, hera, hcentury, hyear]
  push_cast
  omega

section OfNumber

variable {n : ℤ} {a : ℕ} (h : (a : ℤ) = n + 12 * 146097)

include h

/-- **The day is in the year that was found for it.** -/
theorem mem_julianYear :
    let y : ℤ := 100 * century a + yearOfCentury (dayOfCentury a) - 4800
    yearStart y + dayOfCenturyYear (dayOfCentury a) = n ∧ n < yearStart (y + 1) := by
  intro y
  have hy : y = 100 * century a + yearOfCentury (dayOfCentury a) - 4800 := rfl
  have hd := yearOfCentury_le (dayOfCentury_le a)
  have hcentury := centuryStart_le a
  have hyear := centuryYearStart_le (dayOfCentury a)
  have hstart := yearStart_century (century a) (yearOfCentury (dayOfCentury a)) hd
  have hday : dayOfCentury a = a - 146097 * century a / 4 := rfl
  rw [← hy] at hstart
  refine ⟨?_, ?_⟩
  · rw [dayOfCenturyYear]
    omega
  · by_cases hlast : yearOfCentury (dayOfCentury a) = 99
    · -- the next year is the first one of the next century
      have hnext := yearStart_century (century a + 1) 0 (Nat.zero_le _)
      have hsucc : y + 1 = 100 * (century a + 1 : ℕ) + (0 : ℕ) - 4800 := by omega
      have hlt := lt_centuryStart_succ a
      rw [hsucc]
      omega
    · have hnext := yearStart_century (century a) (yearOfCentury (dayOfCentury a) + 1) (by omega)
      have hsucc : y + 1 = 100 * (century a : ℤ)
          + (yearOfCentury (dayOfCentury a) + 1 : ℕ) - 4800 := by omega
      have hlt := lt_centuryYearStart_succ (dayOfCentury a)
      rw [hsucc]
      omega

/-- **The divisions by centuries and years find the year.** -/
theorem yearOf_eq : yearOf n = 100 * century a + yearOfCentury (dayOfCentury a) - 4800 := by
  obtain ⟨hstart, hend⟩ := mem_julianYear h
  have hera := yearStart_yearOf n
  have hlt := dayOfYearOf_lt n
  refine year_unique (n := n) ⟨by omega, ?_⟩ ⟨by omega, hend⟩
  rw [yearStart_succ]
  split at hlt <;> rename_i hleap
  · rw [if_pos hleap]
    omega
  · rw [if_neg hleap]
    omega

/-- **And the day of the year.** -/
theorem dayOfYearOf_eq : dayOfYearOf n = dayOfCenturyYear (dayOfCentury a) := by
  obtain ⟨hstart, -⟩ := mem_julianYear h
  have hera := yearStart_yearOf n
  rw [yearOf_eq h] at hera
  omega

end OfNumber

/-- The months after December are those of the next year, by division. -/
theorem ofMarchMonth_eq {month : ℕ} (h : month ≤ 11) :
    ofMarchMonth month = month + 3 - 12 * (month / 10) := by
  unfold ofMarchMonth
  split <;> omega

theorem ofMarchYear_eq (year : ℤ) {month : ℕ} (h : month ≤ 11) :
    ofMarchYear year month = year + (month / 10 : ℕ) := by
  unfold ofMarchYear ofMarchMonth
  split <;> split <;> omega

end Gregorian
