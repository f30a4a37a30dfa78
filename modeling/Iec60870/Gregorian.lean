import Mathlib.Data.ZMod.Basic
import Mathlib.Tactic.IntervalCases

/-!
# The Gregorian calendar

Dates of the Gregorian calendar, extended to all years, and the number of days
between them. What it means that a date is `d` days after another is said with
the successor alone: going `d` steps forward from the one leads to the other
(`StepsTo`).

To compute with dates one numbers the days, and it is best to start at the first
of March of the year 0: then the day that some years have and others do not is
the last one of its year, the months before it have fixed first days
(`monthStart`), and the years a simple formula for theirs (`yearStart`).
`Date.dayNumber` is that numbering; it goes up by one with each day and takes no
value twice, so it decides what is how many days after what (`stepsTo_iff`).

The way back, from the number to the date, is the well-known sequence of
divisions: by the 146097 days of 400 years, then by the years, which are not all
of one length, then by the months. The division by the years is done by taking
out the leap days first (`yearOfEra`). That this hits the right year
(`yearStart_yearOfEra`) is seen at the first and the last day of each year of an
era, since the number of days without leap days never goes down.
-/

namespace Gregorian

/-! ## Steps of a successor -/

section Steps

variable {α : Type} (next : α → α)

/-- **`b` is `d` steps after `a`**, or `-d` steps before it. -/
def StepsTo (d : ℤ) (a b : α) : Prop := next^[d.toNat] a = next^[(-d).toNat] b

variable {G : Type} [AddGroupWithOne G] {next} {num : α → G}

theorem num_iterate (hnext : ∀ x, num (next x) = num x + 1) (n : ℕ) (x : α) :
    num (next^[n] x) = num x + n := by
  induction n with
  | zero => simp
  | succ n ih => rw [Function.iterate_succ_apply', hnext, ih, Nat.cast_succ, add_assoc]

/-- A numbering of the steps, in a group so that it may be cyclic, decides how
many steps there are. -/
theorem stepsTo_iff (hnext : ∀ x, num (next x) = num x + 1)
    (hinj : Function.Injective num) {d : ℤ} {a b : α} :
    StepsTo next d a b ↔ num b = num a + d := by
  have hd : (d : G) = (d.toNat : G) - ((-d).toNat : G) := by
    rw [← Int.cast_natCast, ← Int.cast_natCast (-d).toNat, ← Int.cast_sub, Int.toNat_sub_toNat_neg]
  rw [StepsTo, ← hinj.eq_iff, num_iterate hnext, num_iterate hnext, hd, ← add_sub_assoc,
    eq_sub_iff_add_eq]
  exact eq_comm

end Steps

/-! ## Dates -/

/-- **A leap year**: every fourth year, but of the hundreds only every fourth. -/
def isLeap (year : ℤ) : Bool :=
  decide (year % 4 = 0 ∧ (year % 100 ≠ 0 ∨ year % 400 = 0))

/-- The number of days of a month. -/
def monthLength (year : ℤ) : ℕ → ℕ
  | 2 => if isLeap year then 29 else 28
  | 4 | 6 | 9 | 11 => 30
  | _ => 31

/-- **A date.** -/
@[ext] structure Date where
  year : ℤ
  month : ℕ
  day : ℕ
  month_mem : 1 ≤ month ∧ month ≤ 12
  day_mem : 1 ≤ day ∧ day ≤ monthLength year month
deriving DecidableEq

/-- The first of a month. -/
def Date.first (year : ℤ) (month : ℕ) (h : 1 ≤ month ∧ month ≤ 12) : Date where
  year := year
  month := month
  day := 1
  month_mem := h
  day_mem := by
    refine ⟨le_rfl, ?_⟩
    unfold monthLength
    split
    · split <;> decide
    all_goals decide

/-- **The day after**: the next one of the month, or the first of the next month,
or the first of the next year. -/
def Date.next (x : Date) : Date :=
  if hd : x.day < monthLength x.year x.month then
    { x with day := x.day + 1, day_mem := ⟨Nat.le_add_left 1 _, hd⟩ }
  else if hm : x.month < 12 then
    .first x.year (x.month + 1) ⟨Nat.le_add_left 1 _, hm⟩
  else .first (x.year + 1) 1 ⟨le_rfl, by decide⟩

/-- The days of the week. -/
inductive Weekday where
  | monday
  | tuesday
  | wednesday
  | thursday
  | friday
  | saturday
  | sunday
deriving DecidableEq, Repr

namespace Weekday

/-- Their numbers, from 1 for Monday on. -/
def number : Weekday → ℕ
  | monday => 1
  | tuesday => 2
  | wednesday => 3
  | thursday => 4
  | friday => 5
  | saturday => 6
  | sunday => 7

def next : Weekday → Weekday
  | monday => tuesday
  | tuesday => wednesday
  | wednesday => thursday
  | thursday => friday
  | friday => saturday
  | saturday => sunday
  | sunday => monday

theorem numberMod_injective : Function.Injective fun x : Weekday => (x.number : ZMod 7) := by
  intro x y h
  cases x <;> cases y <;> first | rfl | exact absurd h (by decide)

theorem number_injective : Function.Injective number :=
  fun _ _ h => numberMod_injective (congrArg Nat.cast h)

/-- The number of the day of the week, `d` days after a Thursday. -/
theorem stepsTo_thursday_iff {d : ℤ} {x : Weekday} :
    StepsTo next d thursday x ↔ (x.number : ℤ) = (d + 3) % 7 + 1 := by
  have hnext : ∀ x : Weekday, (x.next.number : ZMod 7) = x.number + 1 := by
    intro x
    cases x <;> decide
  have hnumber : 1 ≤ x.number ∧ x.number ≤ 7 := by
    cases x <;> decide
  rw [stepsTo_iff hnext numberMod_injective]
  show (x.number : ZMod 7) = (4 : ℕ) + (d : ZMod 7) ↔ _
  rw [← Int.cast_natCast, ← Int.cast_natCast 4, ← Int.cast_add, ZMod.intCast_eq_intCast_iff,
    Int.ModEq]
  push_cast
  omega

/-- Every number of days after a Thursday is one day of the week. -/
theorem exists_stepsTo_thursday (d : ℤ) : ∃ x, StepsTo next d thursday x := by
  have h : ∀ n < 7, ∃ x : Weekday, x.number = n + 1 := by
    intro n hn
    interval_cases n
    exacts [⟨monday, rfl⟩, ⟨tuesday, rfl⟩, ⟨wednesday, rfl⟩, ⟨thursday, rfl⟩,
      ⟨friday, rfl⟩, ⟨saturday, rfl⟩, ⟨sunday, rfl⟩]
  obtain ⟨x, hx⟩ := h ((d + 3) % 7).toNat (by omega)
  refine ⟨x, stepsTo_thursday_iff.mpr ?_⟩
  omega

end Weekday

/-! ## Numbering the days -/

/-- The first of March of a year, in days from that of the year 0. -/
def yearStart (year : ℤ) : ℤ := 365 * year + year / 4 - year / 100 + year / 400

/-- The first day of a month in a year that starts in March. -/
def monthStart (month : ℕ) : ℕ := (153 * month + 2) / 5

/-- The length of a year that starts in March: the leap day is the one of the
year after. -/
theorem yearStart_succ (year : ℤ) :
    yearStart (year + 1) = yearStart year + if isLeap (year + 1) then 366 else 365 := by
  unfold yearStart isLeap
  split
  · rename_i h
    have h := of_decide_eq_true h
    omega
  · rename_i h
    have h := mt decide_eq_true h
    omega

theorem yearStart_mono {y y' : ℤ} (h : y ≤ y') : yearStart y ≤ yearStart y' := by
  unfold yearStart
  omega

/-- The year of a month, if years start in March. -/
def marchYear (year : ℤ) (month : ℕ) : ℤ := if month ≤ 2 then year - 1 else year

/-- The month, counted from March. -/
def marchMonth (month : ℕ) : ℕ := if month ≤ 2 then month + 9 else month - 3

section Months

variable {month : ℕ} (hm : 1 ≤ month ∧ month ≤ 12)

include hm

/-- The months up to January have their length in every year. -/
theorem monthStart_succ (h2 : month ≠ 2) (year : ℤ) :
    monthStart (marchMonth month + 1) = monthStart (marchMonth month) + monthLength year month := by
  obtain ⟨hlo, hhi⟩ := hm
  interval_cases month
  case «2» => exact absurd rfl h2
  all_goals rfl

/-- And they end before February. -/
theorem monthStart_succ_le (h2 : month ≠ 2) : monthStart (marchMonth month + 1) ≤ 337 := by
  unfold monthStart marchMonth
  split <;> omega

end Months

/-- February ends the year. -/
theorem monthStart_february (year : ℤ) :
    monthStart (marchMonth 2) + monthLength year 2 = if isLeap year then 366 else 365 := by
  show 337 + (if isLeap year then 29 else 28) = _
  split <;> rfl

/-- A day is in one year only. -/
theorem year_unique {y y' n : ℤ} (h : yearStart y ≤ n ∧ n < yearStart (y + 1))
    (h' : yearStart y' ≤ n ∧ n < yearStart (y' + 1)) : y = y' := by
  obtain hlt | heq | hlt := lt_trichotomy y y'
  · have := yearStart_mono (Int.add_one_le_of_lt hlt)
    omega
  · exact heq
  · have := yearStart_mono (Int.add_one_le_of_lt hlt)
    omega

/-- And in one month of it. -/
theorem month_unique {m m' n : ℕ} (h : monthStart m ≤ n ∧ n < monthStart (m + 1))
    (h' : monthStart m' ≤ n ∧ n < monthStart (m' + 1)) : m = m' := by
  unfold monthStart at h h'
  omega

namespace Date

variable (x : Date)

/-- The day in a year that starts in March. -/
def dayOfYear : ℕ := monthStart (marchMonth x.month) + (x.day - 1)

/-- **The number of a day**, from the first of March of the year 0 on. -/
def dayNumber : ℤ := yearStart (marchYear x.year x.month) + x.dayOfYear

/-- **A day is in its month**, counted from March. -/
theorem dayOfYear_lt_monthStart : x.dayOfYear < monthStart (marchMonth x.month + 1) := by
  have hday := x.day_mem
  unfold dayOfYear
  by_cases h2 : x.month = 2
  · have hfeb := monthStart_february x.year
    rw [h2] at hday ⊢
    have hend : monthStart (marchMonth 2 + 1) = 367 := rfl
    split at hfeb <;> omega
  · have hsucc := monthStart_succ x.month_mem h2 x.year
    omega

/-- **A day is in its year**, counted from March. -/
theorem dayOfYear_lt :
    x.dayOfYear < if isLeap (marchYear x.year x.month + 1) then 366 else 365 := by
  have hday := x.day_mem
  by_cases h2 : x.month = 2
  · have hyear : marchYear x.year x.month + 1 = x.year := by
      rw [h2]
      exact sub_add_cancel x.year 1
    rw [hyear, ← monthStart_february]
    unfold dayOfYear
    rw [h2] at hday ⊢
    omega
  · have hend := x.dayOfYear_lt_monthStart.trans_le (monthStart_succ_le x.month_mem h2)
    split <;> omega

/-- The number of the first day of a month. -/
theorem dayNumber_first (year : ℤ) {month : ℕ} (h : 1 ≤ month ∧ month ≤ 12) :
    (first year month h).dayNumber
      = yearStart (marchYear year month) + monthStart (marchMonth month) := rfl

/-- The number goes up by one with each day. -/
theorem dayNumber_next : x.next.dayNumber = x.dayNumber + 1 := by
  have hday := x.day_mem
  unfold next
  split
  · unfold dayNumber dayOfYear
    dsimp only
    omega
  · rename_i hd
    have hlast : x.dayNumber + 1 = yearStart (marchYear x.year x.month)
        + (monthStart (marchMonth x.month) + monthLength x.year x.month : ℕ) := by
      unfold dayNumber dayOfYear
      omega
    by_cases h2 : x.month = 2
    · -- the first of March is the first day of a year
      have hyear := yearStart_succ (x.year - 1)
      rw [sub_add_cancel] at hyear
      rw [hlast, dif_pos (by omega), dayNumber_first]
      rw [h2, monthStart_february]
      show yearStart x.year + 0 = yearStart (x.year - 1) + _
      rw [add_zero, hyear]
      split <;> rfl
    · -- all other months follow one another in one year
      have hsucc := monthStart_succ x.month_mem h2 x.year
      have hmonth := x.month_mem
      rw [hlast, ← hsucc]
      split
      · rw [dayNumber_first]
        have hm : marchMonth (x.month + 1) = marchMonth x.month + 1 := by
          unfold marchMonth
          split <;> split <;> omega
        have hy : marchYear x.year (x.month + 1) = marchYear x.year x.month := by
          unfold marchYear
          split <;> split <;> omega
        rw [hm, hy]
      · have h12 : x.month = 12 := by omega
        rw [dayNumber_first, h12]
        show yearStart (x.year + 1 - 1) + _ = _
        rw [add_sub_cancel_right]
        rfl

/-- The number of a day is in its year. -/
theorem dayNumber_mem : yearStart (marchYear x.year x.month) ≤ x.dayNumber
      ∧ x.dayNumber < yearStart (marchYear x.year x.month + 1) := by
  have hlt := x.dayOfYear_lt
  unfold dayNumber
  refine ⟨by omega, ?_⟩
  rw [yearStart_succ]
  by_cases hleap : isLeap (marchYear x.year x.month + 1) = true
  · rw [if_pos hleap] at hlt ⊢
    omega
  · rw [if_neg hleap] at hlt ⊢
    omega

/-- **No two days have one number.** -/
theorem dayNumber_injective : Function.Injective dayNumber := by
  intro x y h
  have hyear : marchYear x.year x.month = marchYear y.year y.month := by
    refine year_unique x.dayNumber_mem ?_
    rw [h]
    exact y.dayNumber_mem
  have hday : x.dayOfYear = y.dayOfYear := by
    unfold dayNumber at h
    rw [hyear] at h
    omega
  have hmarch : marchMonth x.month = marchMonth y.month := by
    have hx : monthStart (marchMonth x.month) ≤ x.dayOfYear := Nat.le_add_right _ _
    have hy : monthStart (marchMonth y.month) ≤ y.dayOfYear := Nat.le_add_right _ _
    refine month_unique ⟨hx, x.dayOfYear_lt_monthStart⟩ ?_
    rw [hday]
    exact ⟨hy, y.dayOfYear_lt_monthStart⟩
  have hmonth : x.month = y.month := by
    have hx := x.month_mem
    have hy := y.month_mem
    unfold marchMonth at hmarch
    split at hmarch <;> split at hmarch <;> omega
  have hx := x.day_mem
  have hy := y.day_mem
  ext
  · unfold marchYear at hyear
    rw [hmonth] at hyear
    split at hyear <;> omega
  · exact hmonth
  · unfold dayOfYear at hday
    rw [hmarch] at hday
    omega

end Date

/-! ## From the number to the date -/

/-- The days of an era of 400 years before a day, without the leap days. -/
def plainDays (dayOfEra : ℕ) : ℕ :=
  dayOfEra - dayOfEra / 1460 + dayOfEra / 36524 - dayOfEra / 146096

/-- The year of a day in an era. -/
def yearOfEra (dayOfEra : ℕ) : ℕ := plainDays dayOfEra / 365

/-- The first day of a year in an era. -/
def eraYearStart (year : ℕ) : ℕ := 365 * year + year / 4 - year / 100 + year / 400

theorem plainDays_mono {d e : ℕ} (h : d ≤ e) : plainDays d ≤ plainDays e := by
  have hd : d / 146096 = d / 36524 / 4 := (Nat.div_div_eq_div_mul d 36524 4).symm
  have he : e / 146096 = e / 36524 / 4 := (Nat.div_div_eq_div_mul e 36524 4).symm
  have hdays : d - d / 1460 ≤ e - e / 1460 := by omega
  have hcenturies : d / 36524 ≤ e / 36524 := Nat.div_le_div_right h
  unfold plainDays
  rw [hd, he]
  omega

/-- The first day of each year has all the plain days of the years before. -/
theorem le_plainDays_start : ∀ year < 400, 365 * year ≤ plainDays (eraYearStart year) := by
  decide +kernel

/-- The last day of each year has no more than those of the year. -/
theorem plainDays_end_lt :
    ∀ year < 400, plainDays (eraYearStart (year + 1) - 1) < 365 * (year + 1) := by
  decide +kernel

/-- **The division by the years of an era** hits the right one. -/
theorem eraYearStart_yearOfEra {dayOfEra : ℕ} (h : dayOfEra < 146097) :
    yearOfEra dayOfEra < 400 ∧ eraYearStart (yearOfEra dayOfEra) ≤ dayOfEra
      ∧ dayOfEra < eraYearStart (yearOfEra dayOfEra + 1) := by
  have hyear : yearOfEra dayOfEra = plainDays dayOfEra / 365 := rfl
  have hlt : yearOfEra dayOfEra < 400 := by
    unfold yearOfEra plainDays
    omega
  generalize yearOfEra dayOfEra = year at hyear hlt ⊢
  refine ⟨hlt, ?_, ?_⟩
  · by_contra hstart
    have hpos : year ≠ 0 := by
      rintro rfl
      exact hstart (Nat.zero_le _)
    obtain ⟨before, rfl⟩ := Nat.exists_eq_succ_of_ne_zero hpos
    have hend := plainDays_end_lt before (by omega)
    have hmono := plainDays_mono (d := dayOfEra) (e := eraYearStart (before + 1) - 1) (by
      have : ¬ eraYearStart (before + 1) ≤ dayOfEra := hstart
      omega)
    omega
  · by_contra hend
    by_cases hlast : year = 399
    · rw [hlast] at hend
      exact hend h
    · have hstart := le_plainDays_start (year + 1) (by omega)
      have hmono := plainDays_mono (d := eraYearStart (year + 1)) (e := dayOfEra) (by omega)
      omega

/-- The first day of a year, from that of its era. -/
theorem yearStart_era (era : ℤ) (year : ℕ) :
    yearStart (era * 400 + year) = era * 146097 + eraYearStart year := by
  unfold yearStart eraYearStart
  omega

/-- The month of a day in a year that starts in March. -/
def monthOfYear (dayOfYear : ℕ) : ℕ := (5 * dayOfYear + 2) / 153

/-- **The division by the months** hits the right one. -/
theorem monthStart_monthOfYear (dayOfYear : ℕ) : monthStart (monthOfYear dayOfYear) ≤ dayOfYear
      ∧ dayOfYear < monthStart (monthOfYear dayOfYear + 1) := by
  unfold monthStart monthOfYear
  omega

theorem monthOfYear_le {dayOfYear : ℕ} (h : dayOfYear < 366) : monthOfYear dayOfYear ≤ 11 := by
  unfold monthOfYear
  omega

/-- A month that was counted from March. -/
def ofMarchMonth (month : ℕ) : ℕ := if month < 10 then month + 3 else month - 9

section OfMarch

variable {month : ℕ} (h : month ≤ 11)

include h

theorem ofMarchMonth_mem : 1 ≤ ofMarchMonth month ∧ ofMarchMonth month ≤ 12 := by
  unfold ofMarchMonth
  split <;> omega

theorem marchMonth_ofMarchMonth : marchMonth (ofMarchMonth month) = month := by
  unfold marchMonth ofMarchMonth
  split <;> split <;> omega

end OfMarch

/-- The year of a month that was counted from March. -/
def ofMarchYear (year : ℤ) (month : ℕ) : ℤ :=
  if ofMarchMonth month ≤ 2 then year + 1 else year

theorem marchYear_ofMarchYear (year : ℤ) (month : ℕ) :
    marchYear (ofMarchYear year month) (ofMarchMonth month) = year := by
  unfold marchYear ofMarchYear
  split
  · exact add_sub_cancel_right year 1
  · rfl

/-- A day of a month that was counted from March. -/
theorem day_le_monthLength {year : ℤ} {dayOfYear : ℕ}
    (h : dayOfYear < if isLeap (year + 1) then 366 else 365) :
    dayOfYear - monthStart (monthOfYear dayOfYear) + 1
      ≤ monthLength (ofMarchYear year (monthOfYear dayOfYear))
        (ofMarchMonth (monthOfYear dayOfYear)) := by
  have h366 : dayOfYear < 366 := by split at h <;> omega
  have hmem := monthStart_monthOfYear dayOfYear
  have hle := monthOfYear_le h366
  have hback := marchMonth_ofMarchMonth hle
  by_cases h2 : ofMarchMonth (monthOfYear dayOfYear) = 2
  · have hyear : ofMarchYear year (monthOfYear dayOfYear) = year + 1 :=
      if_pos h2.le
    have hfeb := monthStart_february (year + 1)
    rw [h2] at hback ⊢
    rw [hyear]
    rw [hback] at hfeb
    omega
  · have hsucc := monthStart_succ (ofMarchMonth_mem hle) h2
      (ofMarchYear year (monthOfYear dayOfYear))
    rw [hback] at hsucc
    omega

section OfNumber

variable (n : ℤ)

/-- The day in its era. -/
def dayOfEra : ℕ := (n % 146097).toNat

/-- Its year, if years start in March. -/
def yearOf : ℤ := n / 146097 * 400 + yearOfEra (dayOfEra n)

/-- The day in that year. -/
def dayOfYearOf : ℕ := dayOfEra n - eraYearStart (yearOfEra (dayOfEra n))

theorem dayOfEra_lt : dayOfEra n < 146097 := by
  unfold dayOfEra
  omega

/-- A day is in the year that was found for it. -/
theorem yearStart_yearOf : yearStart (yearOf n) + dayOfYearOf n = n := by
  have hera := eraYearStart_yearOfEra (dayOfEra_lt n)
  rw [yearOf, yearStart_era, dayOfYearOf]
  have hmod : (dayOfEra n : ℤ) = n % 146097 := by
    unfold dayOfEra
    omega
  omega

theorem dayOfYearOf_lt : dayOfYearOf n < if isLeap (yearOf n + 1) then 366 else 365 := by
  have hera := eraYearStart_yearOfEra (dayOfEra_lt n)
  have hnext : yearStart (yearOf n + 1)
      = n / 146097 * 146097 + eraYearStart (yearOfEra (dayOfEra n) + 1) := by
    rw [yearOf, add_assoc, ← Nat.cast_succ, yearStart_era]
  rw [yearStart_succ, yearOf, yearStart_era] at hnext
  rw [yearOf, dayOfYearOf]
  split at hnext <;> rename_i hleap
  · rw [if_pos hleap]
    omega
  · rw [if_neg hleap]
    omega

theorem dayOfYearOf_lt_leap : dayOfYearOf n < 366 := by
  have hlt := dayOfYearOf_lt n
  split at hlt <;> omega

/-- **The date with a number.** -/
def Date.ofNumber : Date where
  year := ofMarchYear (yearOf n) (monthOfYear (dayOfYearOf n))
  month := ofMarchMonth (monthOfYear (dayOfYearOf n))
  day := dayOfYearOf n - monthStart (monthOfYear (dayOfYearOf n)) + 1
  month_mem := ofMarchMonth_mem (monthOfYear_le (dayOfYearOf_lt_leap n))
  day_mem := ⟨Nat.le_add_left 1 _, day_le_monthLength (dayOfYearOf_lt n)⟩

/-- **The date with a number has this number.** -/
theorem Date.dayNumber_ofNumber : (ofNumber n).dayNumber = n := by
  have hmem := monthStart_monthOfYear (dayOfYearOf n)
  have hmonth : marchMonth (ofNumber n).month = monthOfYear (dayOfYearOf n) :=
    marchMonth_ofMarchMonth (monthOfYear_le (dayOfYearOf_lt_leap n))
  have hday : (ofNumber n).dayOfYear = dayOfYearOf n := by
    rw [dayOfYear, hmonth, ofNumber]
    dsimp only
    omega
  rw [dayNumber, hday]
  show yearStart (marchYear (ofMarchYear _ _) (ofMarchMonth _)) + _ = n
  rw [marchYear_ofMarchYear]
  exact yearStart_yearOf n

end OfNumber

/-- The first of January 1970. -/
def epoch : Date := .first 1970 1 ⟨le_rfl, by decide⟩

/-- **The date a number of days after the epoch**, and the only one. -/
theorem stepsTo_epoch_iff {d : ℤ} {x : Date} :
    StepsTo Date.next d epoch x ↔ x = .ofNumber (d + 719468) := by
  rw [stepsTo_iff Date.dayNumber_next Date.dayNumber_injective,
    ← Date.dayNumber_injective.eq_iff, Date.dayNumber_ofNumber]
  have hepoch : epoch.dayNumber = 719468 := rfl
  rw [hepoch, Int.cast_id, add_comm]

end Gregorian
