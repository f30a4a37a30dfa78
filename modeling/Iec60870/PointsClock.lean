import Iec60870.FileTransferTime
import Iec60870.JulianDay

/-!
# The two clocks

The simulated points of the test tools carry time tags as well, and these are not
made by `system_time_to_cp56`: `now_cp56` of `points.rs` reads the clock and computes
the date from the Julian day number, in unsigned integers of 64 bits throughout. The
reading of the clock is the argument of the model.

`nowCp56_eq` says that the two agree, from the epoch on, on every field of the tag.
Both are compared with the calendar of `Gregorian`, not with each other: what
`days_to_ymd` computes is `daysToYmd_ofNumber`, and what the Julian day number leads
to is `julian_ofNumber`.
-/

namespace Points

open Iec60870 FileTransfer Gregorian

/-! ## The code -/

namespace Julian

variable (days : UInt64)

/-- The Julian day number; that of the first of January 1970 is 2440588. -/
def jdn : UInt64 := days + 2440588

def a : UInt64 := jdn days + 32044

def b : UInt64 := (4 * a days + 3) / 146097

def c : UInt64 := a days - 146097 * b days / 4

def d : UInt64 := (4 * c days + 3) / 1461

def e : UInt64 := c days - 1461 * d days / 4

def m : UInt64 := (5 * e days + 2) / 153

def day : UInt8 := (e days - (153 * m days + 2) / 5 + 1).toUInt8

def month : UInt8 := (m days + 3 - 12 * (m days / 10)).toUInt8

def yearFull : UInt64 := 100 * b days + d days - 4800 + m days / 10

def year : UInt8 := (yearFull days % 100).toUInt8

def dow : UInt8 := ((jdn days + 1) % 7).toUInt8

def dayOfWeek : UInt8 := if dow days == 0 then 7 else dow days

end Julian

/-- **The time tag of the wall clock** (`now_cp56`). A clock before the epoch counts
as the epoch. -/
def nowCp56 (now : SystemTime) : Cp56Time2a :=
  let dur := now.nanos.toNat
  let totalSecs := UInt64.ofNat (dur / 10 ^ 9)
  let subsecMs := UInt16.ofNat (dur % 10 ^ 9 / 10 ^ 6)
  let days := totalSecs / 86400
  let secsOfDay := totalSecs % 86400
  let hour := (secsOfDay / 3600).toUInt8
  let minute := (secsOfDay % 3600 / 60).toUInt8
  let second := (secsOfDay % 60).toUInt8
  let milliseconds := second.toUInt16 * 1000 + subsecMs
  { milliseconds := milliseconds
    minute := minute
    hour := hour
    day := Julian.day days
    dayOfWeek := Julian.dayOfWeek days
    month := Julian.month days
    year := Julian.year days
    summerTime := false
    invalid := false
    genuine := false }

/-- **No operation on the Julian day number leaves the range of its type**, and no
cast loses anything. -/
structure Julian.InRange (days : UInt64) : Prop where
  jdn_add : (jdn days).toNat = days.toNat + 2440588
  a_add : (a days).toNat = (jdn days).toNat + 32044
  b_mul : (4 * a days).toNat = 4 * (a days).toNat
  b_add : (4 * a days + 3).toNat = (4 * a days).toNat + 3
  c_mul : (146097 * b days).toNat = 146097 * (b days).toNat
  c_sub : 146097 * b days / 4 ≤ a days
  d_mul : (4 * c days).toNat = 4 * (c days).toNat
  d_add : (4 * c days + 3).toNat = (4 * c days).toNat + 3
  e_mul : (1461 * d days).toNat = 1461 * (d days).toNat
  e_sub : 1461 * d days / 4 ≤ c days
  m_mul : (5 * e days).toNat = 5 * (e days).toNat
  m_add : (5 * e days + 2).toNat = (5 * e days).toNat + 2
  day_mul : (153 * m days).toNat = 153 * (m days).toNat
  day_add : (153 * m days + 2).toNat = (153 * m days).toNat + 2
  day_sub : (153 * m days + 2) / 5 ≤ e days
  day_add' : (e days - (153 * m days + 2) / 5 + 1).toNat
    = (e days - (153 * m days + 2) / 5).toNat + 1
  day_cast : (day days).toNat = (e days - (153 * m days + 2) / 5 + 1).toNat
  month_add : (m days + 3).toNat = (m days).toNat + 3
  month_mul : (12 * (m days / 10)).toNat = 12 * (m days / 10).toNat
  month_sub : 12 * (m days / 10) ≤ m days + 3
  month_cast : (month days).toNat = (m days + 3 - 12 * (m days / 10)).toNat
  year_mul : (100 * b days).toNat = 100 * (b days).toNat
  year_add : (100 * b days + d days).toNat = (100 * b days).toNat + (d days).toNat
  year_sub : 4800 ≤ 100 * b days + d days
  year_add' : (yearFull days).toNat = (100 * b days + d days - 4800).toNat + (m days / 10).toNat
  year_cast : (year days).toNat = (yearFull days % 100).toNat
  dow_add : (jdn days + 1).toNat = (jdn days).toNat + 1
  dow_cast : (dow days).toNat = ((jdn days + 1) % 7).toNat

/-! ## What the code computes -/

namespace Julian

section Number

variable {days : UInt64} (hdays : days.toNat ≤ 10 ^ 15)

include hdays

theorem toNat_jdn : (jdn days).toNat = days.toNat + 2440588 := by
  refine toNat_add_exact ?_
  show days.toNat + 2440588 < 2 ^ 64
  omega

theorem a_add : (a days).toNat = (jdn days).toNat + 32044 := by
  have hjdn := toNat_jdn hdays
  refine toNat_add_exact ?_
  show (jdn days).toNat + 32044 < 2 ^ 64
  omega

theorem toNat_a : (a days).toNat = days.toNat + 2472632 := by
  have hadd := a_add hdays
  have hjdn := toNat_jdn hdays
  omega

theorem dow_add : (jdn days + 1).toNat = (jdn days).toNat + 1 := by
  have hjdn := toNat_jdn hdays
  refine toNat_add_exact ?_
  show (jdn days).toNat + 1 < 2 ^ 64
  omega

end Number

section Quarters

variable {x y q : UInt64} {v : ℕ} (hx : x.toNat = v) (hv : v ≤ 10 ^ 16)

include hx hv

/-- A number of days divided by a number of quarters of days. -/
theorem quarters_div : (4 * x).toNat = 4 * x.toNat ∧ (4 * x + 3).toNat = (4 * x).toNat + 3
      ∧ ((4 * x + 3) / q).toNat = (4 * v + 3) / q.toNat := by
  obtain ⟨hmul, hadd⟩ := toNat_mul_add_exact (k := 4) (x := x) (r := 3) (by
    rw [hx]
    show 4 * v + 3 < 2 ^ 64
    omega)
  refine ⟨hmul, hadd, ?_⟩
  rw [UInt64.toNat_div, hadd, hmul, hx]
  rfl

/-- What is left of the days. -/
theorem quarters_sub (hy : y.toNat = (4 * v + 3) / q.toNat) :
    (q * y).toNat = q.toNat * y.toNat ∧ q * y / 4 ≤ x
      ∧ (x - q * y / 4).toNat = v - q.toNat * ((4 * v + 3) / q.toNat) / 4 := by
  have hle : q.toNat * ((4 * v + 3) / q.toNat) ≤ 4 * v + 3 := Nat.mul_div_le _ _
  have hmul : (q * y).toNat = q.toNat * y.toNat := by
    refine toNat_mul_exact ?_
    rw [hy]
    omega
  have hdiv : (q * y / 4).toNat = q.toNat * ((4 * v + 3) / q.toNat) / 4 := by
    rw [UInt64.toNat_div, hmul, hy]
    rfl
  have hsub : q * y / 4 ≤ x := by
    rw [UInt64.le_iff_toNat_le, hdiv, hx]
    omega
  refine ⟨hmul, hsub, ?_⟩
  rw [UInt64.toNat_sub_of_le _ _ hsub, hdiv, hx]

end Quarters

section Century

variable {days : UInt64} {day : ℕ} (ha : (a days).toNat = day) (hday : day ≤ 10 ^ 16)

include ha hday

theorem toNat_b : (b days).toNat = century day :=
  (quarters_div ha hday).2.2

theorem toNat_c : (c days).toNat = dayOfCentury day :=
  (quarters_sub (q := 146097) ha hday (toNat_b ha hday)).2.2

end Century

section Year

variable {days : UInt64} {day : ℕ} (hc : (c days).toNat = day) (hday : day ≤ 36524)

include hc hday

theorem toNat_d : (d days).toNat = yearOfCentury day :=
  (quarters_div hc (by omega)).2.2

theorem toNat_dayOfCenturyYear : (e days).toNat = dayOfCenturyYear day :=
  (quarters_sub (q := 1461) hc (by omega) (toNat_d hc hday)).2.2

end Year

section Month

variable {days : UInt64} {dayOfYear : ℕ} (he : (e days).toNat = dayOfYear) (hlt : dayOfYear < 366)

include he hlt

theorem toNat_m : (m days).toNat = monthOfYear dayOfYear :=
  (monthOfYear_ranges he hlt).2.2

theorem toNat_day : (day days).toNat = dayOfYear - monthStart (monthOfYear dayOfYear) + 1 :=
  toNat_dayOfMonth he hlt (toNat_m he hlt)

/-- The arithmetic of `month`. -/
theorem month_ranges : (m days + 3).toNat = (m days).toNat + 3
      ∧ (12 * (m days / 10)).toNat = 12 * (m days / 10).toNat
      ∧ 12 * (m days / 10) ≤ m days + 3
      ∧ (m days + 3 - 12 * (m days / 10)).toNat = ofMarchMonth (monthOfYear dayOfYear) := by
  have hm := toNat_m he hlt
  have hle := monthOfYear_le hlt
  have hdiv : (m days / 10).toNat = monthOfYear dayOfYear / 10 := by
    rw [UInt64.toNat_div, hm]
    rfl
  have hadd : (m days + 3).toNat = (m days).toNat + 3 := by
    refine toNat_add_exact ?_
    rw [hm]
    show monthOfYear dayOfYear + 3 < 2 ^ 64
    omega
  have hmul : (12 * (m days / 10)).toNat = 12 * (m days / 10).toNat := by
    refine toNat_mul_exact ?_
    rw [hdiv]
    show 12 * (monthOfYear dayOfYear / 10) < 2 ^ 64
    omega
  have hsub : 12 * (m days / 10) ≤ m days + 3 := by
    rw [UInt64.le_iff_toNat_le, hmul, hadd, hm, hdiv]
    omega
  refine ⟨hadd, hmul, hsub, ?_⟩
  rw [UInt64.toNat_sub_of_le _ _ hsub, hadd, hmul, hdiv, hm, ofMarchMonth_eq hle]

theorem toNat_month : (month days).toNat = ofMarchMonth (monthOfYear dayOfYear) := by
  have hmem := ofMarchMonth_mem (monthOfYear_le hlt)
  rw [month, UInt64.toNat_toUInt8, (month_ranges he hlt).2.2.2]
  exact Nat.mod_eq_of_lt (by omega)

end Month

section Date

variable {days : UInt64} {n : ℤ} (hn : (days.toNat : ℤ) + 719468 = n) (hdays : days.toNat ≤ 10 ^ 15)

include hn hdays

/-- **The variables of the code**, from the day counted from 4800 years before the
year 0. -/
theorem exists_day : ∃ day : ℕ, (day : ℤ) = n + 12 * 146097 ∧ (a days).toNat = day ∧ day ≤ 10 ^ 16
      ∧ (c days).toNat = dayOfCentury day := by
  have ha := toNat_a hdays
  have hle : (a days).toNat ≤ 10 ^ 16 := by omega
  exact ⟨_, by omega, rfl, hle, toNat_c rfl hle⟩

theorem toNat_e : (e days).toNat = dayOfYearOf n := by
  obtain ⟨day, hnumber, -, -, hc⟩ := exists_day hn hdays
  rw [toNat_dayOfCenturyYear hc (dayOfCentury_le _), dayOfYearOf_eq hnumber]

/-- The arithmetic of `yearFull`. -/
theorem year_ranges : (100 * b days).toNat = 100 * (b days).toNat
      ∧ (100 * b days + d days).toNat = (100 * b days).toNat + (d days).toNat
      ∧ 4800 ≤ 100 * b days + d days ∧ (yearFull days).toNat
        = (100 * b days + d days - 4800).toNat + (m days / 10).toNat
      ∧ ((yearFull days).toNat : ℤ) = (Date.ofNumber n).year := by
  obtain ⟨day, hnumber, ha, hday, hc⟩ := exists_day hn hdays
  have hb := toNat_b ha hday
  have hd := toNat_d hc (dayOfCentury_le _)
  have hyear := yearOf_eq hnumber
  have hle := monthOfYear_le (dayOfYearOf_lt_leap n)
  have hm : (m days / 10).toNat = monthOfYear (dayOfYearOf n) / 10 := by
    rw [UInt64.toNat_div, toNat_m (toNat_e hn hdays) (dayOfYearOf_lt_leap n)]
    rfl
  have hlarge : 48 ≤ century day := by
    unfold century
    omega
  have hsmall : century day ≤ 10 ^ 16 := by
    have hstart := centuryStart_le day
    omega
  have hyears := yearOfCentury_le (dayOfCentury_le day)
  generalize yearOfCentury (dayOfCentury day) = years at hd hyear hyears
  generalize century day = centuries at hb hyear hlarge hsmall
  obtain ⟨hmul, hadd⟩ := toNat_mul_add_exact (k := 100) (x := b days) (r := d days) (by
    rw [hb, hd]
    show 100 * centuries + years < 2 ^ 64
    omega)
  have hsub : 4800 ≤ 100 * b days + d days := by
    rw [UInt64.le_iff_toNat_le, hadd, hmul, hb, hd]
    show 4800 ≤ 100 * centuries + years
    omega
  have hvalue : (100 * b days + d days - 4800).toNat = 100 * centuries + years - 4800 := by
    rw [UInt64.toNat_sub_of_le _ _ hsub, hadd, hmul, hb, hd]
    rfl
  have hfull : (yearFull days).toNat
      = (100 * b days + d days - 4800).toNat + (m days / 10).toNat := by
    refine toNat_add_exact ?_
    rw [hvalue, hm]
    omega
  refine ⟨hmul, hadd, hsub, hfull, ?_⟩
  rw [hfull, hvalue, hm]
  show _ = ofMarchYear _ _
  rw [ofMarchYear_eq _ hle, hyear]
  omega

theorem toNat_year : ((year days).toNat : ℤ) = (Date.ofNumber n).year % 100 := by
  have hfull := (year_ranges hn hdays).2.2.2.2
  rw [year, UInt64.toNat_toUInt8, UInt64.toNat_mod]
  show (((yearFull days).toNat % 100 % 2 ^ 8 : ℕ) : ℤ) = _
  omega

omit hn in
theorem toNat_dow : (dow days).toNat = (days.toNat + 4) % 7 := by
  have hadd := dow_add hdays
  have hjdn := toNat_jdn hdays
  rw [dow, UInt64.toNat_toUInt8, UInt64.toNat_mod]
  show (jdn days + 1).toNat % 7 % 2 ^ 8 = _
  omega

omit hn in
/-- The Sunday is the last day of the week, and not the one before the first. -/
theorem toNat_dayOfWeek : (dayOfWeek days).toNat = (days.toNat + 3) % 7 + 1 := by
  have hdow := toNat_dow hdays
  have hzero : dow days = 0 ↔ (dow days).toNat = 0 := UInt8.toNat_inj.symm
  unfold dayOfWeek
  by_cases h : dow days = 0
  · have hsunday := hzero.mp h
    rw [if_pos (beq_iff_eq.mpr h)]
    show 7 = _
    omega
  · have hweekday := mt hzero.mpr h
    rw [if_neg fun hb => h (beq_iff_eq.mp hb)]
    omega

/-- **What the Julian day number leads to**, by the numbers of the days. -/
theorem julian_ofNumber : ((year days).toNat : ℤ) = (Date.ofNumber n).year % 100
      ∧ (month days).toNat = (Date.ofNumber n).month
      ∧ (day days).toNat = (Date.ofNumber n).day
      ∧ (dayOfWeek days).toNat = (days.toNat + 3) % 7 + 1 := by
  have he := toNat_e hn hdays
  have hlt := dayOfYearOf_lt_leap n
  exact ⟨toNat_year hn hdays, toNat_month he hlt, toNat_day he hlt, toNat_dayOfWeek hdays⟩

theorem inRange : InRange days := by
  obtain ⟨number, -, ha, hnumber, hc⟩ := exists_day hn hdays
  have hcentury := dayOfCentury_le number
  obtain ⟨b_mul, b_add, hb⟩ := quarters_div (q := 146097) ha hnumber
  obtain ⟨c_mul, c_sub, -⟩ := quarters_sub (q := 146097) (y := b days) ha hnumber hb
  obtain ⟨d_mul, d_add, hd⟩ := quarters_div (q := 1461) hc (by omega)
  obtain ⟨e_mul, e_sub, -⟩ := quarters_sub (q := 1461) (y := d days) hc (by omega) hd
  have he := toNat_e hn hdays
  have hlt := dayOfYearOf_lt_leap n
  obtain ⟨m_mul, m_add, -⟩ := monthOfYear_ranges he hlt
  have hm := toNat_m he hlt
  obtain ⟨day_mul, day_add, day_sub, day_add', day_value⟩ := dayOfMonth_ranges he hlt hm
  obtain ⟨month_add, month_mul, month_sub, month_value⟩ := month_ranges he hlt
  obtain ⟨year_mul, year_add, year_sub, year_add', -⟩ := year_ranges hn hdays
  exact {
    jdn_add := toNat_jdn hdays
    a_add := a_add hdays
    b_mul, b_add, c_mul, c_sub, d_mul, d_add, e_mul, e_sub, m_mul, m_add
    day_mul, day_add, day_sub, day_add'
    day_cast := by rw [toNat_day he hlt, day_value]
    month_add, month_mul, month_sub
    month_cast := by rw [toNat_month he hlt, month_value]
    year_mul, year_add, year_sub, year_add'
    year_cast := by
      rw [year, UInt64.toNat_toUInt8, UInt64.toNat_mod]
      show (yearFull days).toNat % 100 % 2 ^ 8 = (yearFull days).toNat % 100
      omega
    dow_add := dow_add hdays
    dow_cast := by
      rw [dow, UInt64.toNat_toUInt8, UInt64.toNat_mod]
      show (jdn days + 1).toNat % 7 % 2 ^ 8 = (jdn days + 1).toNat % 7
      omega }

end Date

end Julian

/-! ## The clocks agree -/

/-- The dates of the two clocks. -/
theorem julian_eq_daysToYmd {days : UInt64} {n : ℤ} (hn : (days.toNat : ℤ) + 719468 = n)
    (hyear : (Date.ofNumber n).year < 2 ^ 31) : Julian.InRange days
      ∧ Julian.day days = (daysToYmd days.toInt64).2.2.1
      ∧ Julian.dayOfWeek days = (daysToYmd days.toInt64).2.2.2
      ∧ Julian.month days = (daysToYmd days.toInt64).2.1
      ∧ Julian.year days = ((daysToYmd days.toInt64).1.toUInt32 % 100).toUInt8 := by
  have hpos : 0 ≤ (Date.ofNumber n).year := by
    rw [← hn]
    exact year_nonneg _
  have hbound := number_bound (n := n) ⟨by omega, hyear⟩
  have hdays : days.toNat ≤ 10 ^ 15 := by omega
  have hsigned : days.toInt64.toInt = days.toNat := toInt_toInt64 (by omega)
  obtain ⟨hy, hm, hd, hw⟩ := Julian.julian_ofNumber hn hdays
  have hn' : days.toInt64.toInt + 719468 = n := by rw [hsigned, hn]
  obtain ⟨hy', hm', hd', hw'⟩ := daysToYmd_ofNumber hn' ⟨by omega, hyear⟩
  refine ⟨Julian.inRange hn hdays, ?_⟩
  -- the arithmetic below is not to unfold the date
  generalize daysToYmd days.toInt64 = ymd at hy' hm' hd' hw' ⊢
  refine ⟨?_, ?_, ?_, ?_⟩
  · rw [← UInt8.toNat_inj, hd, hd']
  · rw [← UInt8.toNat_inj, hw]
    omega
  · rw [← UInt8.toNat_inj, hm, hm']
  · have htwo := FileTransfer.toNat_year (y := ymd.1) (by omega)
    rw [← UInt8.toNat_inj]
    omega

/-- **The two clocks agree.** For every time from the epoch on whose date has a year
of 32 bits, the wall clock of the points and the file system provider make the same
time tag of it, and nothing wraps on the way from the Julian day number. -/
theorem nowCp56_eq {t : SystemTime} (ht : 0 ≤ t.nanos) {date : Date}
    (hdate : StepsTo Date.next (t.nanos / (10 ^ 9 * 86400)) epoch date)
    (hyear : date.year < 2 ^ 31) : nowCp56 t = systemTimeToCp56 t
      ∧ Julian.InRange (UInt64.ofNat (t.nanos.toNat / 10 ^ 9) / 86400) := by
  have hbound := t.bound
  have hdays := toNat_days (n := t.nanos.toNat) (by omega)
  obtain rfl := stepsTo_epoch_iff.mp hdate
  have hn : ((UInt64.ofNat (t.nanos.toNat / 10 ^ 9) / 86400).toNat : ℤ) + 719468
      = t.nanos / (10 ^ 9 * 86400) + 719468 := by
    rw [hdays]
    omega
  obtain ⟨hrange, hd, hw, hm, hy⟩ := julian_eq_daysToYmd hn hyear
  refine ⟨?_, hrange⟩
  unfold nowCp56 systemTimeToCp56
  rw [if_neg (not_lt.mpr ht)]
  dsimp only
  rw [hd, hw, hm, hy]
  rfl

/-- The leap day of the year 2000, a second before noon. -/
theorem nowCp56_eq_leapDay :
    let t : SystemTime := ⟨951825599 * 10 ^ 9, by decide⟩
    nowCp56 t = ⟨59000, 59, 11, 29, 2, 2, 0, false, false, false⟩
      ∧ nowCp56 t = systemTimeToCp56 t := by
  intro t
  have hdate : StepsTo Date.next (t.nanos / (10 ^ 9 * 86400)) epoch
      ⟨2000, 2, 29, by decide, by decide⟩ := by
    rw [stepsTo_epoch_iff]
    decide +kernel
  exact ⟨by decide +kernel, (nowCp56_eq (by decide) hdate (by decide)).1⟩

end Points
