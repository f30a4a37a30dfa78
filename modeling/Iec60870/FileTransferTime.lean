import Iec60870.AsduElements
import Iec60870.Gregorian

/-!
# The dates of the files

The file system provider turns the time at which a file was changed into a time
tag (`system_time_to_cp56` of `file_transfer/fs.rs`), with the date computed from
the number of days since the first of January 1970 (`days_to_ymd`).

The code computes with integers of 64 bits, signed and unsigned in turn, and puts
the results into narrower ones. It is modelled with just these types, in which
everything wraps; that nothing does is part of the statement (`InRange`).
-/

namespace FileTransfer

open Iec60870 Gregorian

/-! ## The code -/

/-- The remainder that is not negative (`rem_euclid`). -/
def remEuclid (a b : Int64) : Int64 :=
  let r := a % b
  if r < 0 then r + (if b < 0 then -b else b) else r

namespace Civil

variable (days : Int64)

def z : Int64 := days + 719468

def era : Int64 := (if z days ≥ 0 then z days else z days - 146096) / 146097

def doe : UInt64 := (z days - era days * 146097).toUInt64

def yoe : UInt64 :=
  (doe days - doe days / 1460 + doe days / 36524 - doe days / 146096) / 365

/-- The year, if it starts in March. -/
def y : Int64 := (yoe days).toInt64 + era days * 400

def doy : UInt64 := doe days - (365 * yoe days + yoe days / 4 - yoe days / 100)

def mp : UInt64 := (5 * doy days + 2) / 153

def d : UInt8 := (doy days - (153 * mp days + 2) / 5 + 1).toUInt8

def m : UInt8 := (if mp days < 10 then mp days + 3 else mp days - 9).toUInt8

def dow : UInt8 := (remEuclid (days + 3) 7 + 1).toUInt64.toUInt8

end Civil

/-- **The date and the day of the week** of a number of days since the first of
January 1970 (`days_to_ymd`). -/
def daysToYmd (days : Int64) : Int32 × UInt8 × UInt8 × UInt8 :=
  let y := if Civil.m days ≤ 2 then Civil.y days + 1 else Civil.y days
  (y.toInt32, Civil.m days, Civil.d days, Civil.dow days)

/-- A time of the system (`SystemTime`), in nanoseconds since the epoch. The seconds
are an integer of 64 bits. -/
structure SystemTime where
  nanos : ℤ
  bound : -2 ^ 63 * 10 ^ 9 ≤ nanos ∧ nanos < 2 ^ 63 * 10 ^ 9

def SystemTime.unixEpoch : SystemTime := ⟨0, by decide⟩

/-- `Cp56Time2a::default` -/
def cp56Default : Cp56Time2a := ⟨0, 0, 0, 0, 0, 0, 0, false, false, false⟩

/-- **The time tag of a time** (`system_time_to_cp56`). Times before the epoch have
none. -/
def systemTimeToCp56 (t : SystemTime) : Cp56Time2a :=
  if t.nanos < 0 then cp56Default
  else
    let totalSecs := UInt64.ofNat (t.nanos.toNat / 10 ^ 9)
    let millisInSec := UInt16.ofNat (t.nanos.toNat % 10 ^ 9 / 10 ^ 6)
    let days := totalSecs / 86400
    let secsOfDay := totalSecs % 86400
    let hour := (secsOfDay / 3600).toUInt8
    let minute := (secsOfDay % 3600 / 60).toUInt8
    let second := (secsOfDay % 60).toUInt8
    let millis := second.toUInt16 * 1000 + millisInSec
    let ymd := daysToYmd days.toInt64
    { cp56Default with
      milliseconds := millis
      minute := minute
      hour := hour
      day := ymd.2.2.1
      dayOfWeek := ymd.2.2.2
      month := ymd.2.1
      year := (ymd.1.toUInt32 % 100).toUInt8 }

/-- **No operation of the code leaves the range of its type**, and no cast loses
anything. -/
structure InRange (days : Int64) : Prop where
  dow_add : (days + 3).toInt = days.toInt + 3
  dow_cast : ((Civil.dow days).toNat : ℤ) = (remEuclid (days + 3) 7).toInt + 1
  z_add : (Civil.z days).toInt = days.toInt + 719468
  era_sub : ¬ Civil.z days ≥ 0 → (Civil.z days - 146096).toInt = (Civil.z days).toInt - 146096
  era_mul : (Civil.era days * 146097).toInt = (Civil.era days).toInt * 146097
  doe_sub : (Civil.z days - Civil.era days * 146097).toInt
    = (Civil.z days).toInt - (Civil.era days * 146097).toInt
  doe_cast : ((Civil.doe days).toNat : ℤ) = (Civil.z days - Civil.era days * 146097).toInt
  yoe_sub : Civil.doe days / 1460 ≤ Civil.doe days
  yoe_add : (Civil.doe days - Civil.doe days / 1460 + Civil.doe days / 36524).toNat
    = (Civil.doe days - Civil.doe days / 1460).toNat + (Civil.doe days / 36524).toNat
  yoe_sub' : Civil.doe days / 146096
    ≤ Civil.doe days - Civil.doe days / 1460 + Civil.doe days / 36524
  y_cast : (Civil.yoe days).toInt64.toInt = (Civil.yoe days).toNat
  y_mul : (Civil.era days * 400).toInt = (Civil.era days).toInt * 400
  y_add : (Civil.y days).toInt = (Civil.yoe days).toInt64.toInt + (Civil.era days * 400).toInt
  doy_mul : (365 * Civil.yoe days).toNat = 365 * (Civil.yoe days).toNat
  doy_add : (365 * Civil.yoe days + Civil.yoe days / 4).toNat
    = (365 * Civil.yoe days).toNat + (Civil.yoe days / 4).toNat
  doy_sub : Civil.yoe days / 100 ≤ 365 * Civil.yoe days + Civil.yoe days / 4
  doy_sub' : 365 * Civil.yoe days + Civil.yoe days / 4 - Civil.yoe days / 100 ≤ Civil.doe days
  mp_mul : (5 * Civil.doy days).toNat = 5 * (Civil.doy days).toNat
  mp_add : (5 * Civil.doy days + 2).toNat = (5 * Civil.doy days).toNat + 2
  d_mul : (153 * Civil.mp days).toNat = 153 * (Civil.mp days).toNat
  d_add : (153 * Civil.mp days + 2).toNat = (153 * Civil.mp days).toNat + 2
  d_sub : (153 * Civil.mp days + 2) / 5 ≤ Civil.doy days
  d_add' : (Civil.doy days - (153 * Civil.mp days + 2) / 5 + 1).toNat
    = (Civil.doy days - (153 * Civil.mp days + 2) / 5).toNat + 1
  d_cast : (Civil.d days).toNat = (Civil.doy days - (153 * Civil.mp days + 2) / 5 + 1).toNat
  m_add : Civil.mp days < 10 → (Civil.mp days + 3).toNat = (Civil.mp days).toNat + 3
  m_sub : ¬ Civil.mp days < 10 → 9 ≤ Civil.mp days
  m_cast : (Civil.m days).toNat
    = (if Civil.mp days < 10 then Civil.mp days + 3 else Civil.mp days - 9).toNat
  year_add : Civil.m days ≤ 2 → (Civil.y days + 1).toInt = (Civil.y days).toInt + 1
  year_cast : (daysToYmd days).1.toInt
    = (if Civil.m days ≤ 2 then Civil.y days + 1 else Civil.y days).toInt

/-! ## Integers that do not wrap -/

section Exact

variable {a b : Int64}

theorem toInt_add_exact (h : -2 ^ 63 ≤ a.toInt + b.toInt ∧ a.toInt + b.toInt < 2 ^ 63) :
    (a + b).toInt = a.toInt + b.toInt := by
  rw [Int64.toInt_add]
  exact Int.bmod_eq_of_le (by omega) (by omega)

theorem toInt_sub_exact (h : -2 ^ 63 ≤ a.toInt - b.toInt ∧ a.toInt - b.toInt < 2 ^ 63) :
    (a - b).toInt = a.toInt - b.toInt := by
  rw [Int64.toInt_sub]
  exact Int.bmod_eq_of_le (by omega) (by omega)

theorem toInt_mul_exact (h : -2 ^ 63 ≤ a.toInt * b.toInt ∧ a.toInt * b.toInt < 2 ^ 63) :
    (a * b).toInt = a.toInt * b.toInt := by
  rw [Int64.toInt_mul]
  exact Int.bmod_eq_of_le (by omega) (by omega)

/-- A number that is not negative is the same with and without a sign. -/
theorem toNat_toUInt64 (h : 0 ≤ a.toInt) : (a.toUInt64.toNat : ℤ) = a.toInt := by
  have hcond : a.toInt = if 2 * a.toUInt64.toNat < 2 ^ 64 then (a.toUInt64.toNat : ℤ)
      else a.toUInt64.toNat - (2 ^ 64 : ℕ) := BitVec.toInt_eq_toNat_cond a.toBitVec
  have hlt : a.toUInt64.toNat < 2 ^ 64 := a.toBitVec.isLt
  split at hcond <;> omega

theorem toInt_toInt64 {x : UInt64} (h : x.toNat < 2 ^ 63) : x.toInt64.toInt = x.toNat := by
  have hcond : x.toInt64.toInt = if 2 * x.toNat < 2 ^ 64 then (x.toNat : ℤ)
      else x.toNat - (2 ^ 64 : ℕ) := BitVec.toInt_eq_toNat_cond x.toBitVec
  rw [hcond, if_pos (by omega)]

variable {x y : UInt64}

theorem toNat_add_exact (h : x.toNat + y.toNat < 2 ^ 64) : (x + y).toNat = x.toNat + y.toNat := by
  rw [UInt64.toNat_add, Nat.mod_eq_of_lt h]

theorem toNat_mul_exact (h : x.toNat * y.toNat < 2 ^ 64) : (x * y).toNat = x.toNat * y.toNat := by
  rw [UInt64.toNat_mul, Nat.mod_eq_of_lt h]

/-- A multiple and a sum that stay in range. -/
theorem toNat_mul_add_exact {k r : UInt64} (h : k.toNat * x.toNat + r.toNat < 2 ^ 64) :
    (k * x).toNat = k.toNat * x.toNat ∧ (k * x + r).toNat = (k * x).toNat + r.toNat := by
  have hmul : (k * x).toNat = k.toNat * x.toNat := toNat_mul_exact (by omega)
  refine ⟨hmul, toNat_add_exact ?_⟩
  rw [hmul]
  exact h

end Exact

/-! ## The division by the months -/

section Months

variable {x : UInt64} {dayOfYear : ℕ} (hx : x.toNat = dayOfYear) (hlt : dayOfYear < 366)

include hx hlt

/-- The month of a day of the year, in unsigned integers. -/
theorem monthOfYear_ranges : (5 * x).toNat = 5 * x.toNat ∧ (5 * x + 2).toNat = (5 * x).toNat + 2
      ∧ ((5 * x + 2) / 153).toNat = monthOfYear dayOfYear := by
  obtain ⟨hmul, hadd⟩ := toNat_mul_add_exact (k := 5) (x := x) (r := 2) (by
    rw [hx]
    show 5 * dayOfYear + 2 < 2 ^ 64
    omega)
  refine ⟨hmul, hadd, ?_⟩
  rw [UInt64.toNat_div, hadd, hmul, hx]
  rfl

variable {m : UInt64} (hm : m.toNat = monthOfYear dayOfYear)

include hm

/-- The day of the month. -/
theorem dayOfMonth_ranges : (153 * m).toNat = 153 * m.toNat
      ∧ (153 * m + 2).toNat = (153 * m).toNat + 2 ∧ (153 * m + 2) / 5 ≤ x
      ∧ (x - (153 * m + 2) / 5 + 1).toNat = (x - (153 * m + 2) / 5).toNat + 1
      ∧ (x - (153 * m + 2) / 5 + 1).toNat = dayOfYear - monthStart (monthOfYear dayOfYear) + 1 := by
  have hle := monthOfYear_le hlt
  have hmem := monthStart_monthOfYear dayOfYear
  obtain ⟨hmul, hadd⟩ := toNat_mul_add_exact (k := 153) (x := m) (r := 2) (by
    rw [hm]
    show 153 * monthOfYear dayOfYear + 2 < 2 ^ 64
    omega)
  have hdiv : ((153 * m + 2) / 5).toNat = monthStart (monthOfYear dayOfYear) := by
    rw [UInt64.toNat_div, hadd, hmul, hm]
    rfl
  have hsub : (153 * m + 2) / 5 ≤ x := by
    rw [UInt64.le_iff_toNat_le, hdiv, hx]
    exact hmem.1
  have hvalue := UInt64.toNat_sub_of_le _ _ hsub
  rw [hdiv, hx] at hvalue
  have hone : (x - (153 * m + 2) / 5 + 1).toNat = (x - (153 * m + 2) / 5).toNat + 1 := by
    refine toNat_add_exact ?_
    rw [hvalue]
    show dayOfYear - monthStart (monthOfYear dayOfYear) + 1 < 2 ^ 64
    omega
  refine ⟨hmul, hadd, hsub, hone, ?_⟩
  rw [hone, hvalue]

theorem toNat_dayOfMonth : (x - (153 * m + 2) / 5 + 1).toUInt8.toNat
      = dayOfYear - monthStart (monthOfYear dayOfYear) + 1 := by
  have hmem := monthStart_monthOfYear dayOfYear
  rw [UInt64.toNat_toUInt8, (dayOfMonth_ranges hx hlt hm).2.2.2.2]
  refine Nat.mod_eq_of_lt ?_
  unfold monthStart at hmem ⊢
  omega

end Months

/-! ## What the code computes -/

namespace Civil

section Values

variable {days : Int64} {n : ℤ} (hn : days.toInt + 719468 = n) (hbound : -10 ^ 15 ≤ n ∧ n ≤ 10 ^ 15)

include hn hbound

theorem toInt_z : (z days).toInt = n := by
  rw [z, toInt_add_exact]
  · exact hn
  · show -2 ^ 63 ≤ days.toInt + 719468 ∧ days.toInt + 719468 < 2 ^ 63
    omega

theorem toInt_z_sub (h : n < 0) : (z days - 146096).toInt = n - 146096 := by
  have hz := toInt_z hn hbound
  rw [toInt_sub_exact, hz]
  · rfl
  · rw [hz]
    show -2 ^ 63 ≤ n - 146096 ∧ n - 146096 < 2 ^ 63
    omega

/-- Rounding down, by rounding to zero. -/
theorem toInt_era : (era days).toInt = n / 146097 := by
  have hz := toInt_z hn hbound
  have hnonneg : z days ≥ 0 ↔ 0 ≤ n := by
    rw [← hz]
    exact Int64.le_iff_toInt_le
  rw [era, Int64.toInt_div_of_ne_right _ _ (by decide)]
  by_cases h : 0 ≤ n
  · rw [if_pos (hnonneg.mpr h), hz]
    exact Int.tdiv_eq_ediv_of_nonneg h
  · rw [if_neg (mt hnonneg.mp h), toInt_z_sub hn hbound (by omega)]
    show (n - 146096).tdiv 146097 = n / 146097
    have hneg : n - 146096 = -(146096 - n) := by omega
    rw [hneg, Int.neg_tdiv, Int.tdiv_eq_ediv_of_nonneg (by omega)]
    omega

theorem toInt_era_mul : (era days * 146097).toInt = n / 146097 * 146097 := by
  have hera := toInt_era hn hbound
  rw [toInt_mul_exact, hera]
  · rfl
  · rw [hera]
    show -2 ^ 63 ≤ n / 146097 * 146097 ∧ n / 146097 * 146097 < 2 ^ 63
    omega

theorem toInt_doe : (z days - era days * 146097).toInt = n % 146097 := by
  have hz := toInt_z hn hbound
  have hmul := toInt_era_mul hn hbound
  rw [toInt_sub_exact, hz, hmul]
  · omega
  · rw [hz, hmul]
    omega

theorem toNat_doe : (doe days).toNat = dayOfEra n := by
  have hdoe := toInt_doe hn hbound
  have hcast := toNat_toUInt64 (a := z days - era days * 146097) (by omega)
  unfold dayOfEra doe
  omega

end Values

section Era

variable {days : Int64} {n : ℤ} (hdoe : (doe days).toNat = dayOfEra n)

include hdoe

/-- The subtractions of `yoe` and its sum. -/
theorem yoe_ranges : doe days / 1460 ≤ doe days
      ∧ (doe days - doe days / 1460 + doe days / 36524).toNat
        = (doe days - doe days / 1460).toNat + (doe days / 36524).toNat
      ∧ doe days / 146096 ≤ doe days - doe days / 1460 + doe days / 36524 := by
  have hlt := dayOfEra_lt n
  have hsub : doe days / 1460 ≤ doe days := by
    rw [UInt64.le_iff_toNat_le, UInt64.toNat_div]
    exact Nat.div_le_self _ _
  have hsub' := UInt64.toNat_sub_of_le _ _ hsub
  have hdiv : (doe days / 1460).toNat = dayOfEra n / 1460 := by
    rw [UInt64.toNat_div, hdoe]
    rfl
  have hdiv' : (doe days / 36524).toNat = dayOfEra n / 36524 := by
    rw [UInt64.toNat_div, hdoe]
    rfl
  have hdiv'' : (doe days / 146096).toNat = dayOfEra n / 146096 := by
    rw [UInt64.toNat_div, hdoe]
    rfl
  have hadd := toNat_add_exact (x := doe days - doe days / 1460) (y := doe days / 36524) (by omega)
  refine ⟨hsub, hadd, ?_⟩
  rw [UInt64.le_iff_toNat_le]
  omega

theorem toNat_yoe : (yoe days).toNat = yearOfEra (dayOfEra n) := by
  obtain ⟨hsub, hadd, hsub'⟩ := yoe_ranges hdoe
  rw [yoe, UInt64.toNat_div, UInt64.toNat_sub_of_le _ _ hsub', hadd,
    UInt64.toNat_sub_of_le _ _ hsub, UInt64.toNat_div, UInt64.toNat_div, UInt64.toNat_div,
    hdoe]
  rfl

/-- The product, the sum and the subtractions of `doy`. -/
theorem doy_ranges : (365 * yoe days).toNat = 365 * (yoe days).toNat
      ∧ (365 * yoe days + yoe days / 4).toNat = (365 * yoe days).toNat + (yoe days / 4).toNat
      ∧ yoe days / 100 ≤ 365 * yoe days + yoe days / 4
      ∧ 365 * yoe days + yoe days / 4 - yoe days / 100 ≤ doe days
      ∧ (365 * yoe days + yoe days / 4 - yoe days / 100).toNat
        = eraYearStart (yearOfEra (dayOfEra n)) := by
  obtain ⟨hlt, hstart, -⟩ := eraYearStart_yearOfEra (dayOfEra_lt n)
  have hyoe := toNat_yoe hdoe
  generalize yearOfEra (dayOfEra n) = year at hlt hstart hyoe ⊢
  have hdiv : (yoe days / 4).toNat = year / 4 := by
    rw [UInt64.toNat_div, hyoe]
    rfl
  have hdiv' : (yoe days / 100).toNat = year / 100 := by
    rw [UInt64.toNat_div, hyoe]
    rfl
  have hmul : (365 * yoe days).toNat = 365 * (yoe days).toNat := by
    refine toNat_mul_exact ?_
    show 365 * (yoe days).toNat < 2 ^ 64
    omega
  have hadd := toNat_add_exact (x := 365 * yoe days) (y := yoe days / 4) (by omega)
  have hsub : yoe days / 100 ≤ 365 * yoe days + yoe days / 4 := by
    rw [UInt64.le_iff_toNat_le]
    omega
  have hvalue : (365 * yoe days + yoe days / 4 - yoe days / 100).toNat = eraYearStart year := by
    rw [UInt64.toNat_sub_of_le _ _ hsub, hadd, hmul, hyoe, hdiv, hdiv', eraYearStart]
    omega
  refine ⟨hmul, hadd, hsub, ?_, hvalue⟩
  rw [UInt64.le_iff_toNat_le, hvalue, hdoe]
  exact hstart

theorem toNat_doy : (doy days).toNat = dayOfYearOf n := by
  obtain ⟨-, -, -, hsub, hvalue⟩ := doy_ranges hdoe
  rw [doy, UInt64.toNat_sub_of_le _ _ hsub, hvalue, hdoe]
  rfl

end Era

section Year

variable {days : Int64} {dayOfYear : ℕ} (hdoy : (doy days).toNat = dayOfYear)
  (hlt : dayOfYear < 366)

include hdoy hlt

theorem toNat_mp : (mp days).toNat = monthOfYear dayOfYear :=
  (monthOfYear_ranges hdoy hlt).2.2

theorem toNat_d : (d days).toNat = dayOfYear - monthStart (monthOfYear dayOfYear) + 1 :=
  toNat_dayOfMonth hdoy hlt (toNat_mp hdoy hlt)

/-- The arithmetic of `m`. -/
theorem m_ranges : (mp days < 10 → (mp days + 3).toNat = (mp days).toNat + 3)
      ∧ (¬ mp days < 10 → 9 ≤ mp days)
      ∧ (if mp days < 10 then mp days + 3 else mp days - 9).toNat
        = ofMarchMonth (monthOfYear dayOfYear) := by
  have hmp := toNat_mp hdoy hlt
  have hle := monthOfYear_le hlt
  have hten : mp days < 10 ↔ monthOfYear dayOfYear < 10 := by
    rw [← hmp]
    exact UInt64.lt_iff_toNat_lt
  have hadd : (mp days + 3).toNat = (mp days).toNat + 3 := by
    refine toNat_add_exact ?_
    show (mp days).toNat + 3 < 2 ^ 64
    omega
  have hsub : ¬ mp days < 10 → 9 ≤ mp days := by
    intro h
    rw [UInt64.le_iff_toNat_le]
    show 9 ≤ (mp days).toNat
    rw [hten] at h
    omega
  refine ⟨fun _ => hadd, hsub, ?_⟩
  by_cases h : mp days < 10
  · rw [if_pos h, hadd, hmp, ofMarchMonth, if_pos (hten.mp h)]
  · rw [if_neg h, UInt64.toNat_sub_of_le _ _ (hsub h), hmp, ofMarchMonth, if_neg (mt hten.mpr h)]
    rfl

theorem toNat_m : (m days).toNat = ofMarchMonth (monthOfYear dayOfYear) := by
  have hvalue := (m_ranges hdoy hlt).2.2
  have hmem := ofMarchMonth_mem (monthOfYear_le hlt)
  rw [m, UInt64.toNat_toUInt8, hvalue]
  exact Nat.mod_eq_of_lt (by omega)

end Year

section Weekday

variable {days : Int64} (hbound : -2 ^ 62 ≤ days.toInt ∧ days.toInt < 2 ^ 62)

include hbound

theorem toInt_add_three : (days + 3).toInt = days.toInt + 3 := by
  refine toInt_add_exact ?_
  show -2 ^ 63 ≤ days.toInt + 3 ∧ days.toInt + 3 < 2 ^ 63
  omega

theorem toInt_remEuclid : (remEuclid (days + 3) 7).toInt = (days.toInt + 3) % 7 := by
  have hthree := toInt_add_three hbound
  have hmod : ((days + 3) % 7).toInt = (days.toInt + 3).tmod 7 := by
    rw [Int64.toInt_mod, hthree]
    rfl
  have hneg : (days + 3) % 7 < 0 ↔ (days.toInt + 3).tmod 7 < 0 := by
    rw [← hmod]
    exact Int64.lt_iff_toInt_lt
  have htmod : (days.toInt + 3).tmod 7 = (days.toInt + 3) % 7
      ∨ (days.toInt + 3).tmod 7 = (days.toInt + 3) % 7 - 7 := by
    rw [Int.tmod_eq_emod]
    split
    · exact Or.inl (sub_zero _)
    · exact Or.inr rfl
  have hseven : (if (7 : Int64) < 0 then -7 else 7 : Int64).toInt = 7 := by decide
  unfold remEuclid
  dsimp only
  by_cases h : (days + 3) % 7 < 0
  · have hlt := hneg.mp h
    rw [if_pos h, toInt_add_exact, hmod, hseven]
    · omega
    · rw [hmod, hseven]
      omega
  · have hge := mt hneg.mpr h
    rw [if_neg h, hmod]
    omega

theorem toNat_dow : ((dow days).toNat : ℤ) = (days.toInt + 3) % 7 + 1 := by
  have hrem := toInt_remEuclid hbound
  have hone : (remEuclid (days + 3) 7 + 1).toInt = (days.toInt + 3) % 7 + 1 := by
    rw [toInt_add_exact, hrem]
    · rfl
    · rw [hrem]
      show -2 ^ 63 ≤ (days.toInt + 3) % 7 + 1 ∧ (days.toInt + 3) % 7 + 1 < 2 ^ 63
      omega
  have hcast := toNat_toUInt64 (a := remEuclid (days + 3) 7 + 1) (by omega)
  rw [dow, UInt64.toNat_toUInt8]
  omega

end Weekday

end Civil

/-! ## The calendar -/

/-- A year of 32 bits is not far from the epoch. -/
theorem number_bound {n : ℤ}
    (hyear : -2 ^ 31 ≤ (Date.ofNumber n).year ∧ (Date.ofNumber n).year < 2 ^ 31) :
    -10 ^ 15 ≤ n ∧ n ≤ 10 ^ 15 := by
  have hera := (eraYearStart_yearOfEra (dayOfEra_lt n)).1
  have hmarch : yearOf n ≤ (Date.ofNumber n).year ∧ (Date.ofNumber n).year ≤ yearOf n + 1 := by
    show _ ≤ ofMarchYear _ _ ∧ ofMarchYear _ _ ≤ _
    unfold ofMarchYear
    split <;> omega
  unfold yearOf at hmarch
  omega

namespace Civil

section Calendar

variable {days : Int64} {n : ℤ} (hn : days.toInt + 719468 = n) (hbound : -10 ^ 15 ≤ n ∧ n ≤ 10 ^ 15)

include hn hbound

/-- The casts and the arithmetic of `y`. -/
theorem y_ranges : (yoe days).toInt64.toInt = (yoe days).toNat
      ∧ (era days * 400).toInt = (era days).toInt * 400
      ∧ (y days).toInt = (yoe days).toInt64.toInt + (era days * 400).toInt
      ∧ (y days).toInt = yearOf n := by
  have hyoe := toNat_yoe (toNat_doe hn hbound)
  have hera := toInt_era hn hbound
  have hlt := (eraYearStart_yearOfEra (dayOfEra_lt n)).1
  have hcast : (yoe days).toInt64.toInt = (yoe days).toNat := toInt_toInt64 (by omega)
  have hmul : (era days * 400).toInt = (era days).toInt * 400 := by
    refine toInt_mul_exact ?_
    show -2 ^ 63 ≤ (era days).toInt * 400 ∧ (era days).toInt * 400 < 2 ^ 63
    omega
  have hadd : (y days).toInt = (yoe days).toInt64.toInt + (era days * 400).toInt :=
    toInt_add_exact (by omega)
  refine ⟨hcast, hmul, hadd, ?_⟩
  rw [hadd, hcast, hmul, hyoe, hera, yearOf]
  omega

/-- The step from the year that starts in March to the year. -/
theorem year_ranges : (y days + 1).toInt = (y days).toInt + 1
      ∧ (if m days ≤ 2 then y days + 1 else y days).toInt = (Date.ofNumber n).year := by
  have hdoy := toNat_doy (toNat_doe hn hbound)
  have hm := toNat_m hdoy (dayOfYearOf_lt_leap n)
  have hy := (y_ranges hn hbound).2.2.2
  have hlt := (eraYearStart_yearOfEra (dayOfEra_lt n)).1
  have hadd : (y days + 1).toInt = (y days).toInt + 1 := by
    refine toInt_add_exact ?_
    rw [hy, yearOf]
    show -2 ^ 63 ≤ n / 146097 * 400 + yearOfEra (dayOfEra n) + 1
      ∧ n / 146097 * 400 + yearOfEra (dayOfEra n) + 1 < 2 ^ 63
    omega
  have htwo : m days ≤ 2 ↔ ofMarchMonth (monthOfYear (dayOfYearOf n)) ≤ 2 := by
    rw [← hm]
    exact UInt8.le_iff_toNat_le
  refine ⟨hadd, ?_⟩
  show _ = ofMarchYear _ _
  unfold ofMarchYear
  by_cases h : m days ≤ 2
  · rw [if_pos h, if_pos (htwo.mp h), hadd, hy]
  · rw [if_neg h, if_neg (mt htwo.mpr h), hy]

end Calendar

end Civil

section Date

variable {days : Int64} {n : ℤ} (hn : days.toInt + 719468 = n)
  (hyear : -2 ^ 31 ≤ (Date.ofNumber n).year ∧ (Date.ofNumber n).year < 2 ^ 31)

include hn hyear

theorem toInt_year : (daysToYmd days).1.toInt = (Date.ofNumber n).year := by
  have hvalue := (Civil.year_ranges hn (number_bound hyear)).2
  show (Int64.toInt32 (if Civil.m days ≤ 2 then _ else _)).toInt = _
  rw [Int64.toInt_toInt32, hvalue]
  exact Int.bmod_eq_of_le (by omega) (by omega)

theorem inRange : InRange days := by
  have hbound := number_bound hyear
  have hdoe := Civil.toNat_doe hn hbound
  have hdoy := Civil.toNat_doy hdoe
  have hlt := dayOfYearOf_lt_leap n
  have hweek : -2 ^ 62 ≤ days.toInt ∧ days.toInt < 2 ^ 62 := by omega
  obtain ⟨yoe_sub, yoe_add, yoe_sub'⟩ := Civil.yoe_ranges hdoe
  obtain ⟨doy_mul, doy_add, doy_sub, doy_sub', -⟩ := Civil.doy_ranges hdoe
  obtain ⟨mp_mul, mp_add, -⟩ := monthOfYear_ranges hdoy hlt
  have hmp := Civil.toNat_mp hdoy hlt
  obtain ⟨d_mul, d_add, d_sub, d_add', d_value⟩ := dayOfMonth_ranges hdoy hlt hmp
  obtain ⟨m_add, m_sub, m_value⟩ := Civil.m_ranges hdoy hlt
  obtain ⟨y_cast, y_mul, y_add, -⟩ := Civil.y_ranges hn hbound
  obtain ⟨year_add, year_value⟩ := Civil.year_ranges hn hbound
  exact {
    dow_add := Civil.toInt_add_three hweek
    dow_cast := by rw [Civil.toNat_dow hweek, Civil.toInt_remEuclid hweek]
    z_add := by rw [Civil.toInt_z hn hbound, hn]
    era_sub := by
      intro h
      have hz := Civil.toInt_z hn hbound
      rw [ge_iff_le, Int64.le_iff_toInt_le, hz] at h
      rw [Civil.toInt_z_sub hn hbound (not_le.mp h), hz]
    era_mul := by rw [Civil.toInt_era_mul hn hbound, Civil.toInt_era hn hbound]
    doe_sub := by
      rw [Civil.toInt_doe hn hbound, Civil.toInt_z hn hbound, Civil.toInt_era_mul hn hbound]
      omega
    doe_cast := by
      rw [hdoe, Civil.toInt_doe hn hbound, dayOfEra]
      omega
    yoe_sub, yoe_add, yoe_sub'
    y_cast, y_mul, y_add
    doy_mul, doy_add, doy_sub, doy_sub'
    mp_mul, mp_add
    d_mul, d_add, d_sub, d_add'
    d_cast := by rw [Civil.toNat_d hdoy hlt, d_value]
    m_add, m_sub
    m_cast := by rw [Civil.toNat_m hdoy hlt, m_value]
    year_add := fun _ => year_add
    year_cast := by rw [toInt_year hn hyear, year_value] }

end Date

/-- **What the code returns**, by the numbers of the days. -/
theorem daysToYmd_ofNumber {days : Int64} {n : ℤ} (hn : days.toInt + 719468 = n)
    (hyear : -2 ^ 31 ≤ (Date.ofNumber n).year ∧ (Date.ofNumber n).year < 2 ^ 31) :
    (daysToYmd days).1.toInt = (Date.ofNumber n).year
      ∧ (daysToYmd days).2.1.toNat = (Date.ofNumber n).month
      ∧ (daysToYmd days).2.2.1.toNat = (Date.ofNumber n).day
      ∧ ((daysToYmd days).2.2.2.toNat : ℤ) = (days.toInt + 3) % 7 + 1 := by
  have hbound := number_bound hyear
  have hdoy := Civil.toNat_doy (Civil.toNat_doe hn hbound)
  have hlt := dayOfYearOf_lt_leap n
  exact ⟨toInt_year hn hyear, Civil.toNat_m hdoy hlt, Civil.toNat_d hdoy hlt,
    Civil.toNat_dow (by omega)⟩

/-- **The dates are exact**: whatever the number of days, before the epoch or after
it, there is one date and one day of the week so many days from Thursday the first
of January 1970. If the year of this date is one of 32 bits, the code computes the
date and the day of the week, and nothing wraps on the way. -/
theorem daysToYmd_exact (days : Int64) : ∃ date : Date, ∃ weekday : Weekday,
      (∀ x, StepsTo Date.next days.toInt epoch x ↔ x = date)
        ∧ (∀ x, StepsTo Weekday.next days.toInt .thursday x ↔ x = weekday)
        ∧ (-2 ^ 31 ≤ date.year ∧ date.year < 2 ^ 31 →
          (daysToYmd days).1.toInt = date.year
            ∧ (daysToYmd days).2.1.toNat = date.month
            ∧ (daysToYmd days).2.2.1.toNat = date.day
            ∧ (daysToYmd days).2.2.2.toNat = weekday.number ∧ InRange days) := by
  obtain ⟨weekday, hweekday⟩ := Weekday.exists_stepsTo_thursday days.toInt
  have hnumber := Weekday.stepsTo_thursday_iff.mp hweekday
  refine ⟨.ofNumber (days.toInt + 719468), weekday, fun x => stepsTo_epoch_iff, ?_, ?_⟩
  · intro x
    rw [Weekday.stepsTo_thursday_iff, ← hnumber, Nat.cast_inj, Weekday.number_injective.eq_iff]
  · intro hyear
    obtain ⟨hy, hm, hd, hdow⟩ := daysToYmd_ofNumber rfl hyear
    rw [← hnumber, Nat.cast_inj] at hdow
    exact ⟨hy, hm, hd, hdow, inRange rfl hyear⟩

/-- The day before the epoch. -/
theorem daysToYmd_exact_eve :
    (daysToYmd (-1)).1.toInt = 1969 ∧ (daysToYmd (-1)).2.1.toNat = 12
      ∧ (daysToYmd (-1)).2.2.1.toNat = 31 ∧ (daysToYmd (-1)).2.2.2.toNat = 3
      ∧ InRange (-1) := by
  obtain ⟨date, weekday, hdate, hweekday, hexact⟩ := daysToYmd_exact (-1)
  have hlast : (⟨1969, 12, 31, by decide, by decide⟩ : Date) = date := (hdate _).mp rfl
  have hwednesday : Weekday.wednesday = weekday := (hweekday _).mp rfl
  rw [← hlast, ← hwednesday] at hexact
  exact hexact ⟨by decide, by decide⟩

/-! ## The time tags -/

section Tag

variable {secs : UInt64} {millis : UInt16}

/-- The second of the minute and the milliseconds of the second, in one number. -/
theorem toNat_millis (h : millis.toNat < 1000) :
    ((secs % 86400 % 60).toUInt8.toUInt16 * 1000 + millis).toNat
      = secs.toNat % 60 * 1000 + millis.toNat := by
  have hsecond : (secs % 86400 % 60).toUInt8.toUInt16.toNat = secs.toNat % 60 := by
    rw [UInt8.toNat_toUInt16, UInt64.toNat_toUInt8, UInt64.toNat_mod, UInt64.toNat_mod]
    show secs.toNat % 86400 % 60 % 2 ^ 8 = _
    omega
  rw [UInt16.toNat_add, UInt16.toNat_mul, hsecond]
  show (secs.toNat % 60 * 1000 % 2 ^ 16 + millis.toNat) % 2 ^ 16 = _
  omega

/-- The last two digits of a year. -/
theorem toNat_year {y : Int32} (h : 0 ≤ y.toInt) :
    ((y.toUInt32 % 100).toUInt8.toNat : ℤ) = y.toInt % 100 := by
  have hcast : (y.toUInt32.toNat : ℤ) = y.toInt := by
    have hcond : y.toInt = if 2 * y.toUInt32.toNat < 2 ^ 32 then (y.toUInt32.toNat : ℤ)
        else y.toUInt32.toNat - (2 ^ 32 : ℕ) := BitVec.toInt_eq_toNat_cond y.toBitVec
    have hlt : y.toUInt32.toNat < 2 ^ 32 := y.toBitVec.isLt
    split at hcond <;> omega
  rw [UInt32.toNat_toUInt8, UInt32.toNat_mod]
  show ((y.toUInt32.toNat % 100 % 2 ^ 8 : ℕ) : ℤ) = _
  omega

end Tag

/-- The number of the days since the epoch. -/
theorem toNat_days {n : ℕ} (h : n < 2 ^ 63 * 10 ^ 9) :
    (UInt64.ofNat (n / 10 ^ 9) / 86400).toNat = n / (10 ^ 9 * 86400) := by
  have hsecs : (UInt64.ofNat (n / 10 ^ 9)).toNat = n / 10 ^ 9 :=
    UInt64.toNat_ofNat_of_lt' (by show _ < 2 ^ 64; omega)
  rw [UInt64.toNat_div, hsecs]
  exact Nat.div_div_eq_div_mul ..

/-- They fit a signed integer. -/
theorem toInt_days {n : ℕ} (h : n < 2 ^ 63 * 10 ^ 9) :
    (UInt64.ofNat (n / 10 ^ 9) / 86400).toInt64.toInt = (n / (10 ^ 9 * 86400) : ℕ) := by
  rw [toInt_toInt64, toNat_days h]
  rw [toNat_days h]
  omega

/-- The years since the epoch are not negative. -/
theorem year_nonneg (days : ℕ) : 0 ≤ (Date.ofNumber (days + 719468)).year := by
  show 0 ≤ ofMarchYear _ _
  unfold ofMarchYear yearOf
  split <;> omega

/-- **The time tag is that of the time**, in coordinated universal time, with two
digits of the year, and nothing wraps on the way from the number of the days. -/
theorem systemTimeToCp56_exact {t : SystemTime} {n : ℕ} (hn : t.nanos = n) {date : Date}
    (hdate : StepsTo Date.next (n / (10 ^ 9 * 86400) : ℕ) epoch date)
    (hyear : date.year < 2 ^ 31) :
    ((systemTimeToCp56 t).year.toNat : ℤ) = date.year % 100
      ∧ (systemTimeToCp56 t).month.toNat = date.month
      ∧ (systemTimeToCp56 t).day.toNat = date.day
      ∧ (systemTimeToCp56 t).hour.toNat = n / (10 ^ 9 * 3600) % 24
      ∧ (systemTimeToCp56 t).minute.toNat = n / (10 ^ 9 * 60) % 60
      ∧ (systemTimeToCp56 t).milliseconds.toNat = n / 10 ^ 6 % 60000
      ∧ InRange (UInt64.ofNat (n / 10 ^ 9) / 86400).toInt64 := by
  have hbound := t.bound
  have hsecs : (UInt64.ofNat (n / 10 ^ 9)).toNat = n / 10 ^ 9 :=
    UInt64.toNat_ofNat_of_lt' (by show _ < 2 ^ 64; omega)
  have hmillis : (UInt16.ofNat (n % 10 ^ 9 / 10 ^ 6)).toNat = n % 10 ^ 9 / 10 ^ 6 :=
    UInt16.toNat_ofNat_of_lt' (by show _ < 2 ^ 16; omega)
  have hdays := toInt_days (n := n) (by omega)
  obtain rfl := stepsTo_epoch_iff.mp hdate
  have hpos := year_nonneg (n / (10 ^ 9 * 86400))
  have hnumber := congrArg (· + 719468) hdays
  have hrange := inRange hnumber ⟨by omega, hyear⟩
  obtain ⟨hy, hm, hd, -⟩ := daysToYmd_ofNumber hnumber ⟨by omega, hyear⟩
  have hnot : ¬ t.nanos < 0 := by omega
  rw [systemTimeToCp56, if_neg hnot, hn, Int.toNat_natCast]
  dsimp only
  generalize UInt64.ofNat (n / 10 ^ 9) = secs at hsecs hrange hy hm hd ⊢
  refine ⟨?_, hm, hd, ?_, ?_, ?_, hrange⟩
  · rw [toNat_year (hy ▸ hpos), hy]
  · rw [UInt64.toNat_toUInt8, UInt64.toNat_div, UInt64.toNat_mod, hsecs]
    show n / 10 ^ 9 % 86400 / 3600 % 2 ^ 8 = _
    rw [← Nat.div_div_eq_div_mul]
    omega
  · rw [UInt64.toNat_toUInt8, UInt64.toNat_div, UInt64.toNat_mod, UInt64.toNat_mod, hsecs]
    show n / 10 ^ 9 % 86400 % 3600 / 60 % 2 ^ 8 = _
    rw [← Nat.div_div_eq_div_mul]
    omega
  · rw [toNat_millis (by omega), hsecs, hmillis]
    omega

/-- Noon of the leap day of the year 2024. -/
theorem systemTimeToCp56_exact_noon :
    let t : SystemTime := ⟨1709208000 * 10 ^ 9, by decide⟩
    ((systemTimeToCp56 t).year.toNat : ℤ) = 24 ∧ (systemTimeToCp56 t).month.toNat = 2
      ∧ (systemTimeToCp56 t).day.toNat = 29 ∧ (systemTimeToCp56 t).hour.toNat = 12 := by
  intro t
  have hdate : StepsTo Date.next (1709208000 * 10 ^ 9 / (10 ^ 9 * 86400) : ℕ) epoch
      ⟨2024, 2, 29, by decide, by decide⟩ := by
    rw [stepsTo_epoch_iff]
    decide +kernel
  obtain ⟨hyear, hmonth, hday, hhour, -⟩ := systemTimeToCp56_exact (t := t) rfl hdate (by decide)
  exact ⟨hyear, hmonth, hday, hhour.trans (by norm_num)⟩

end FileTransfer
