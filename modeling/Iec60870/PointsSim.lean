import Mathlib.Data.Int.ModEq
import Iec60870.Points

/-!
# The simulator steps

Every tick of a simulated point computes its next value from its schedule
(`advance_value` of `server.rs`; `advance` of `sim.rs` is the same function). Some of
the operations on the way are not defined everywhere: the sum of two `i32` can leave
their range, a remainder by zero does not exist, nor does one that does not fit, and
`f32::clamp` asserts that its bounds are in order. The model says which of these
panics a step ends in (`Panic`).

All operands but the current value come from the schedule. `SimSchedule.Safe` is what
they have to satisfy, and `advanceValue_isOk_iff` says that a step returns exactly
then.

The variant of the next value is the business of the schedule too: a toggle makes a
single point of every value. `SimSchedule.makes` says which variant comes out, and a
schedule `fits` the variants that it keeps.
-/

open Iec60870 Deadband

namespace Points

variable {F32 F64 : Type}

/-! ## Operations that can panic -/

/-- Why a step panics. -/
inductive Panic where
  /-- A sum is not in the range of `i32`. -/
  | addOverflow
  /-- A remainder by zero. -/
  | remByZero
  /-- The remainder of `i32::MIN` by `-1`. -/
  | remOverflow
  /-- The bounds of a clamp are not in order. -/
  | clampBounds
deriving DecidableEq, Repr

/-- The number is an `i32`. -/
def InI32 (n : ℤ) : Prop := -2 ^ 31 ≤ n ∧ n < 2 ^ 31

instance (n : ℤ) : Decidable (InI32 n) := inferInstanceAs (Decidable (_ ∧ _))

/-- The sum of two `i32`. -/
def addI32 (a b : Int32) : Except Panic Int32 :=
  if InI32 (a.toInt + b.toInt) then .ok (Int32.ofInt (a.toInt + b.toInt))
  else .error .addOverflow

/-- The least nonnegative remainder (`i32::rem_euclid`). -/
def remEuclid (a b : Int32) : Except Panic Int32 :=
  if b = 0 then .error .remByZero
  else if a = Int32.minValue ∧ b = -1 then .error .remOverflow
  else .ok (Int32.ofInt (a.toInt % b.toInt))

/-- A number brought between two bounds (`f32::clamp`). -/
def clampF32 (fp : PointArith F32 F64) (x min max : F32) : Except Panic F32 :=
  if fp.le32 min max then .ok (fp.clamp32 x min max) else .error .clampBounds

/-! ## One step -/

/-- The number that a random walk goes on from. -/
def walkFrom (fp : PointArith F32 F64) (current : Option (PointValue F32)) : F32 :=
  match current with
  | some (.normalized f) => f
  | some (.float f) => f
  | _ => fp.zero32

/-- The number that a step up goes on from. -/
def stepFrom (current : Option (PointValue F32)) : Int32 :=
  match current with
  | some (.scaled s) => s.toInt32
  | _ => 0

/-- The sample of a sinusoid. The factor of the phase is `2.0 * PI`. -/
def sineAt (fp : PointArith F32 F64) (intervalMs periodMs : UInt64) (amplitude offset : F32)
    (elapsedTicks : UInt64) : F32 :=
  let ticksPerPeriod := max periodMs 1 / max intervalMs 1
  let phase :=
    if ticksPerPeriod = 0 then fp.zero
    else fp.div (fp.castU64 (elapsedTicks % ticksPerPeriod)) (fp.castU64 ticksPerPeriod)
  let turn := fp.mul (fp.ofBits64 0x4000000000000000) (fp.ofBits64 0x400921FB54442D18)
  fp.castF64 (fp.add (fp.mul (fp.ofF32 amplitude) (fp.sin (fp.mul turn phase))) (fp.ofF32 offset))

/-- **The next value of a point** (`advance_value`), if its schedule has one. `heads` is
the coin of the random walk. -/
def advanceValue (fp : PointArith F32 F64) (heads : Bool) (schedule : SimSchedule F32)
    (current : Option (PointValue F32)) (elapsedTicks : UInt64) :
    Except Panic (Option (PointValue F32)) :=
  match schedule with
  | .none => return none
  | .toggle _ _ =>
    let on := match current with
      | some (.single b) => !b
      | _ => true
    return some (.single on)
  | .rotate _ =>
    let next := match current with
      | some (.double .off) => .on
      | some (.double .on) => .off
      | _ => .off
    return some (.double next)
  | .randomWalk _ step min max => do
    let delta := if heads then step else fp.neg32 step
    let newVal ← clampF32 fp (fp.add32 (walkFrom fp current) delta) min max
    return match current with
      | some (.normalized _) => some (.normalized newVal)
      | _ => some (.float newVal)
  | .stepUp _ step wrapAt => do
    let sum ← addI32 (stepFrom current) step
    let newVal ← remEuclid sum wrapAt
    return some (.scaled (saturate16 newVal))
  | .sine intervalMs periodMs amplitude offset =>
    let val := sineAt fp intervalMs periodMs amplitude offset elapsedTicks
    match current with
    | some (.normalized _) => do
      let val ← clampF32 fp val fp.negOne32 fp.one32
      return some (.normalized val)
    | _ => return some (.float val)

/-! ## The variant of the next value -/

/-- The variant of the value that a step makes of one. -/
def SimSchedule.makes : SimSchedule F32 → ValueKind → ValueKind
  | .none, k => k
  | .toggle _ _, _ => .single
  | .rotate _, _ => .double
  | .randomWalk _ _ _ _, .normalized | .sine _ _ _ _, .normalized => .normalized
  | .randomWalk _ _ _ _, _ | .sine _ _ _ _, _ => .float
  | .stepUp _ _ _, _ => .scaled

/-- **A schedule fits the values of a variant**: its steps keep it. -/
def SimSchedule.fits : SimSchedule F32 → ValueKind → Bool
  | .none, _ => true
  | .toggle _ _, k => k == .single
  | .rotate _, k => k == .double
  | .randomWalk _ _ _ _, k | .sine _ _ _ _, k => k == .normalized || k == .float
  | .stepUp _ _ _, k => k == .scaled

/-- A schedule keeps the variants that it fits, and no others. -/
theorem SimSchedule.makes_eq_iff (schedule : SimSchedule F32) (k : ValueKind) :
    schedule.makes k = k ↔ schedule.fits k = true := by
  cases schedule <;> cases k <;> simp [makes, fits]

/-! ## When a step returns -/

/-- **A schedule that a step can be made of**, from the current value: the bounds of a
random walk are in order, and a step up neither leaves the range of `i32` nor wraps at
zero, nor divides the least `i32` by `-1`. -/
def SimSchedule.Safe (fp : PointArith F32 F64) (schedule : SimSchedule F32)
    (current : Option (PointValue F32)) : Prop :=
  match schedule with
  | .randomWalk _ _ min max => fp.le32 min max = true
  | .stepUp _ step wrapAt =>
    InI32 ((stepFrom current).toInt + step.toInt) ∧ wrapAt ≠ 0
      ∧ ¬ ((stepFrom current).toInt + step.toInt = -2 ^ 31 ∧ wrapAt = -1)
  | _ => True

instance (fp : PointArith F32 F64) (schedule : SimSchedule F32)
    (current : Option (PointValue F32)) : Decidable (schedule.Safe fp current) :=
  match schedule with
  | .randomWalk .. => inferInstanceAs (Decidable (_ = _))
  | .stepUp .. => inferInstanceAs (Decidable (_ ∧ _))
  | .none | .toggle .. | .rotate .. | .sine .. => isTrue trivial

section Partial

variable {a b : Int32}

theorem addI32_of_in (h : InI32 (a.toInt + b.toInt)) :
    addI32 a b = .ok (Int32.ofInt (a.toInt + b.toInt)) :=
  if_pos h

/-- An `i32` is the least one if its value is. -/
theorem ofInt_eq_minValue_iff {n : ℤ} (h : InI32 n) :
    Int32.ofInt n = Int32.minValue ↔ n = -2 ^ 31 := by
  rw [← Int32.toInt_inj, Int32.toInt_ofInt_of_le h.1 h.2]
  rfl

/-- A remainder by anything but zero, of anything but the least `i32` by `-1`. -/
theorem remEuclid_of_ne (hb : b ≠ 0) (h : ¬ (a = Int32.minValue ∧ b = -1)) :
    remEuclid a b = .ok (Int32.ofInt (a.toInt % b.toInt)) := by
  rw [remEuclid, if_neg hb, if_neg h]

theorem clampF32_of_le {fp : PointArith F32 F64} {min max : F32}
    (h : fp.le32 min max = true) (x : F32) :
    clampF32 fp x min max = .ok (fp.clamp32 x min max) :=
  if_pos h

end Partial

variable {fp : PointArith F32 F64} {heads : Bool} {current : Option (PointValue F32)}
  {elapsedTicks : UInt64}

section StepUp

variable {step wrapAt : Int32} (interval : UInt64)

/-- A step up, if nothing in it panics. -/
theorem advanceValue_stepUp_of_safe (heads : Bool) (elapsedTicks : UInt64)
    (h : (SimSchedule.stepUp interval step wrapAt).Safe fp current) :
    advanceValue fp heads (.stepUp interval step wrapAt) current elapsedTicks
      = .ok (some (.scaled (saturate16 (Int32.ofInt
          (((stepFrom current).toInt + step.toInt) % wrapAt.toInt))))) := by
  obtain ⟨hsum, hzero, hmin⟩ := h
  unfold advanceValue
  dsimp only
  rw [addI32_of_in hsum]
  show (do let newVal ← remEuclid _ wrapAt; _) = _
  rw [remEuclid_of_ne hzero (by rwa [ofInt_eq_minValue_iff hsum]),
    Int32.toInt_ofInt_of_le hsum.1 hsum.2]
  rfl

/-- A step up returns only if nothing in it panics. -/
theorem safe_of_advanceValue_stepUp {next : Option (PointValue F32)}
    (h : advanceValue fp heads (.stepUp interval step wrapAt) current elapsedTicks = .ok next) :
    (SimSchedule.stepUp interval step wrapAt).Safe fp current := by
  unfold advanceValue at h
  dsimp only at h
  by_cases hsum : InI32 ((stepFrom current).toInt + step.toInt)
  · rw [addI32_of_in hsum] at h
    refine ⟨hsum, ?_, ?_⟩
    · rintro rfl
      cases h
    · rintro ⟨hmin, rfl⟩
      rw [hmin] at h
      cases h
  · rw [addI32, if_neg hsum] at h
    cases h

end StepUp

/-- A step returns only if the schedule is safe. -/
theorem safe_of_advanceValue {schedule : SimSchedule F32} {next : Option (PointValue F32)}
    (h : advanceValue fp heads schedule current elapsedTicks = .ok next) :
    schedule.Safe fp current := by
  cases schedule with
  | randomWalk interval step min max =>
    show fp.le32 min max = true
    by_contra hbounds
    unfold advanceValue at h
    dsimp only at h
    rw [clampF32, if_neg hbounds] at h
    cases h
  | stepUp interval step wrapAt => exact safe_of_advanceValue_stepUp interval h
  | _ => trivial

/-- **A safe schedule makes a step**: a schedule without steps leaves the value as it
is, and every other one makes a value of the variant that is in its nature. -/
theorem advanceValue_of_safe {schedule : SimSchedule F32} (h : schedule.Safe fp current) :
    advanceValue fp heads schedule current elapsedTicks = .ok none ∧ schedule = .none
      ∨ ∃ next, advanceValue fp heads schedule current elapsedTicks = .ok (some next)
        ∧ ∀ value, current = some value → next.kind = schedule.makes value.kind := by
  cases schedule with
  | none => exact Or.inl ⟨rfl, rfl⟩
  | toggle | rotate => exact Or.inr ⟨_, rfl, fun value hvalue => rfl⟩
  | randomWalk interval step min max =>
    refine Or.inr ?_
    unfold advanceValue
    dsimp only
    rw [clampF32_of_le h]
    cases current with
    | none => exact ⟨_, rfl, fun value hvalue => by cases hvalue⟩
    | some value => cases value <;> exact ⟨_, rfl, by rintro _ ⟨⟩; rfl⟩
  | stepUp interval step wrapAt =>
    exact Or.inr ⟨_, advanceValue_stepUp_of_safe interval heads elapsedTicks h,
      fun value hvalue => rfl⟩
  | sine interval period amplitude offset =>
    refine Or.inr ?_
    unfold advanceValue
    dsimp only
    rw [PointArith.negOne32, PointArith.one32, clampF32_of_le fp.negOne_le_one]
    cases current with
    | none => exact ⟨_, rfl, fun value hvalue => by cases hvalue⟩
    | some value => cases value <;> exact ⟨_, rfl, by rintro _ ⟨⟩; rfl⟩

/-- **A step returns if and only if the schedule is safe** from the current value. -/
theorem advanceValue_isOk_iff {schedule : SimSchedule F32} :
    (∃ next, advanceValue fp heads schedule current elapsedTicks = .ok next)
      ↔ schedule.Safe fp current := by
  constructor
  · rintro ⟨next, h⟩
    exact safe_of_advanceValue h
  · intro h
    obtain ⟨hnone, -⟩ | ⟨next, hnext, -⟩ := advanceValue_of_safe h
    · exact ⟨none, hnone⟩
    · exact ⟨some next, hnext⟩

/-- A remainder that `i16` has room for is not changed by the way there. -/
theorem toInt_saturate16 {n : ℤ} (h0 : 0 ≤ n) (h : n < 2 ^ 15) :
    (saturate16 (Int32.ofInt n)).toInt = n := by
  have hn : (Int32.ofInt n).toInt = n := Int32.toInt_ofInt_of_le (by omega) (by omega)
  rw [saturate16, hn, min_eq_left (by omega), max_eq_right (by omega)]
  exact Int16.toInt_ofInt_of_le (by omega) h

/-- **A step up wraps**: it is congruent to the sum, and below the number it wraps
at. -/
theorem advanceValue_stepUp_wraps {interval : UInt64} {step wrapAt : Int32}
    (h : (SimSchedule.stepUp interval step wrapAt).Safe fp current)
    (hpos : 1 ≤ wrapAt.toInt) (hwrap : wrapAt.toInt ≤ 32767) : ∃ r : Int16,
      advanceValue fp heads (.stepUp interval step wrapAt) current elapsedTicks
          = .ok (some (.scaled r)) ∧ 0 ≤ r.toInt ∧ r.toInt < wrapAt.toInt
        ∧ r.toInt ≡ (stepFrom current).toInt + step.toInt [ZMOD wrapAt.toInt] := by
  have hstep := advanceValue_stepUp_of_safe interval heads elapsedTicks h
  generalize (stepFrom current).toInt + step.toInt = sum at hstep ⊢
  have hnonneg : 0 ≤ sum % wrapAt.toInt := Int.emod_nonneg sum (by omega)
  have hlt : sum % wrapAt.toInt < wrapAt.toInt := Int.emod_lt_of_pos sum (by omega)
  have hr := toInt_saturate16 hnonneg (by omega)
  refine ⟨_, hstep, ?_⟩
  rw [hr]
  exact ⟨hnonneg, hlt, Int.mod_modEq sum wrapAt.toInt⟩

end Points
