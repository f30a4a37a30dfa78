import Mathlib.Algebra.Order.Field.Rat
import Iec60870.AsduElements
import Iec60870.Machine

/-!
# The deadband evaluator

A controlled station reports a measured value when it has moved far enough
from the value it reported last (`deadband.rs`). `DeadbandTracker` keeps the
last reported sample of each information object, its baseline, and decides for
each new sample whether it is to be reported.

What counts as far is computed with floating point numbers. The tracker does
little with them, and what holds of its baselines does not depend on how they
are rounded: `FloatArith` lists the operations on `f32` and `f64` that it uses,
and the model is written over any such arithmetic. Only the bound on the
distance between a value and its baseline speaks of numbers. For scaled values,
which are 16-bit integers, it needs the arithmetic to be exact on these and on
comparisons (`FloatArith.ExactOnScaled`), which binary64 is. `ExtRat` is an
arithmetic that is exact everywhere.

`deadband_guarantee` is about whole histories: however many samples have been
suppressed, the baseline is the last reported one, and the value is within the
deadband of it.
-/

open Machine Iec60870

namespace Deadband

/-! ## Floating point arithmetic -/

/-- **The operations of the evaluator on `f32` and `f64`.** -/
structure FloatArith (F32 F64 : Type) where
  /-- `==` on `f32`. -/
  beq32 : F32 → F32 → Bool
  /-- `f64::from` an `f32`. -/
  ofF32 : F32 → F64
  /-- `f64::from` an `i16`. -/
  ofI16 : Int16 → F64
  zero : F64
  hundred : F64
  isNan : F64 → Bool
  isFinite : F64 → Bool
  sub : F64 → F64 → F64
  abs : F64 → F64
  mul : F64 → F64 → F64
  div : F64 → F64 → F64
  max : F64 → F64 → F64
  /-- `≥` on `f64`. -/
  ge : F64 → F64 → Bool
  /-- `>` on `f64`. -/
  gt : F64 → F64 → Bool

variable {F32 F64 : Type}

/-- **An arithmetic is exact on scaled values**: differences of 16-bit integers
are, and so is the comparison of finite numbers, whose values `value` gives. -/
structure FloatArith.ExactOnScaled (fp : FloatArith F32 F64) (value : F64 → ℚ) :
    Prop where
  finite : ∀ v, fp.isFinite (fp.ofI16 v) = true
  number : ∀ v, fp.isNan (fp.ofI16 v) = false
  finite_dist : ∀ v w, fp.isFinite (fp.abs (fp.sub (fp.ofI16 w) (fp.ofI16 v))) = true
  dist : ∀ v w, value (fp.abs (fp.sub (fp.ofI16 w) (fp.ofI16 v))) = |(w.toInt : ℚ) - (v.toInt : ℚ)|
  ge : ∀ x y, fp.isFinite x = true → fp.isFinite y = true → (fp.ge x y = true ↔ value y ≤ value x)

/-! ## Values and policies -/

/-- What changes count as a change of a point (`DeadbandPolicy`). -/
inductive DeadbandPolicy (F32 F64 : Type) where
  | none
  | absolute (delta : F64)
  | percent (pct : F32) (floor : F64)
deriving DecidableEq, Repr

/-- A monitored value (`MonitoredValue`). -/
inductive MonitoredValue (F32 : Type) where
  | single (on : Bool)
  | double (point : DoublePoint)
  | normalized (x : F32)
  | scaled (v : Int16)
  | float (x : F32)
deriving DecidableEq, Repr

/-- The kinds of monitored values (`ValueKind`). -/
inductive ValueKind where
  | single
  | double
  | normalized
  | scaled
  | float
deriving DecidableEq, Repr

namespace MonitoredValue

/-- The kind of a value. -/
def kind : MonitoredValue F32 → ValueKind
  | single _ => .single
  | double _ => .double
  | normalized _ => .normalized
  | scaled _ => .scaled
  | float _ => .float

/-- The magnitude of a value, zero for points. -/
def magnitude (fp : FloatArith F32 F64) : MonitoredValue F32 → F64
  | single _ | double _ => fp.zero
  | normalized x | float x => fp.abs (fp.ofF32 x)
  | scaled v => fp.abs (fp.ofI16 v)

/-- The derived `==`, by which a NaN differs from itself. -/
def beq (fp : FloatArith F32 F64) : MonitoredValue F32 → MonitoredValue F32 → Bool
  | single a, single b => a == b
  | double a, double b => a == b
  | normalized x, normalized y => fp.beq32 x y
  | scaled v, scaled w => v == w
  | float x, float y => fp.beq32 x y
  | _, _ => false

end MonitoredValue

/-- The comparison of numbers, the tail of `threshold_crossed`. -/
def numberCrossed (fp : FloatArith F32 F64) (a b magnitude : F64)
    (policy : DeadbandPolicy F32 F64) : Bool :=
  if fp.isNan a != fp.isNan b then true
  else if fp.isFinite a != fp.isFinite b then true
  else if fp.isNan a && fp.isNan b then false
  else
    let dist := fp.abs (fp.sub b a)
    match policy with
    | .none => fp.gt dist fp.zero
    | .absolute delta => fp.ge dist delta
    | .percent pct floor =>
      fp.ge dist (fp.mul (fp.div (fp.ofF32 pct) fp.hundred) (fp.max magnitude floor))

/-- **Whether `new` is far enough from `old`.** The caller has established that
they are of one kind; the arm that the source marks unreachable does not
exist. -/
def thresholdCrossed (fp : FloatArith F32 F64) (old new : MonitoredValue F32)
    (h : old.kind = new.kind) (policy : DeadbandPolicy F32 F64) : Bool :=
  match old, new, h with
  | .single a, .single b, _ => a != b
  | .double a, .double b, _ => a != b
  | .normalized x, .normalized y, _ =>
    numberCrossed fp (fp.ofF32 x) (fp.ofF32 y) (MonitoredValue.magnitude fp (.normalized x)) policy
  | .float x, .float y, _ =>
    numberCrossed fp (fp.ofF32 x) (fp.ofF32 y) (MonitoredValue.magnitude fp (.float x)) policy
  | .scaled v, .scaled w, _ =>
    numberCrossed fp (fp.ofI16 v) (fp.ofI16 w) (MonitoredValue.magnitude fp (.scaled v)) policy

/-! ## The tracker -/

/-- The outcome of an evaluation (`EmitDecision`). -/
inductive EmitDecision where
  | emit
  | suppress
deriving DecidableEq, Repr

/-- The error of the tracker (`DeadbandError`). -/
inductive DeadbandError where
  | kindMismatch (ioa : Ioa) (expected actual : ValueKind)
deriving DecidableEq, Repr

/-- A reported sample (`Baseline`). -/
structure Baseline (F32 : Type) where
  value : MonitoredValue F32
  quality : Qds
deriving DecidableEq, Repr

/-- **The tracker**: policies and last reported samples, by object. -/
structure DeadbandTracker (F32 F64 : Type) where
  policies : Ioa → Option (DeadbandPolicy F32 F64)
  baselines : Ioa → Option (Baseline F32)

namespace DeadbandTracker

/-- An empty tracker. -/
def new : DeadbandTracker F32 F64 := ⟨fun _ => none, fun _ => none⟩

/-- Set the policy of an object. -/
def setPolicy (t : DeadbandTracker F32 F64) (ioa : Ioa)
    (policy : DeadbandPolicy F32 F64) : DeadbandTracker F32 F64 :=
  { t with policies := Function.update t.policies ioa (some policy) }

/-- The policy of an object. -/
def policy (t : DeadbandTracker F32 F64) (ioa : Ioa) : DeadbandPolicy F32 F64 :=
  (t.policies ioa).getD .none

/-- Take the policy of an object away, and return it. -/
def removePolicy (t : DeadbandTracker F32 F64) (ioa : Ioa) :
    DeadbandTracker F32 F64 × Option (DeadbandPolicy F32 F64) :=
  ({ t with policies := Function.update t.policies ioa none }, t.policies ioa)

/-- Forget the baseline of an object. -/
def forget (t : DeadbandTracker F32 F64) (ioa : Ioa) : DeadbandTracker F32 F64 :=
  { t with baselines := Function.update t.baselines ioa none }

/-- Forget all baselines. -/
def clear (t : DeadbandTracker F32 F64) : DeadbandTracker F32 F64 :=
  { t with baselines := fun _ => none }

/-- Replace the baseline of an object. -/
def insert (t : DeadbandTracker F32 F64) (ioa : Ioa) (sample : Baseline F32) :
    DeadbandTracker F32 F64 :=
  { t with baselines := Function.update t.baselines ioa (some sample) }

/-- **Note a sample that was reported by other means.** -/
def observe (t : DeadbandTracker F32 F64) (ioa : Ioa) (value : MonitoredValue F32)
    (quality : Qds) : DeadbandTracker F32 F64 × Except DeadbandError Unit :=
  match t.baselines ioa with
  | some baseline =>
    if baseline.value.kind ≠ value.kind then
      (t, .error (.kindMismatch ioa baseline.value.kind value.kind))
    else (t.insert ioa ⟨value, quality⟩, .ok ())
  | none => (t.insert ioa ⟨value, quality⟩, .ok ())

/-- **Decide whether a sample is to be reported.** -/
def evaluate (fp : FloatArith F32 F64) (t : DeadbandTracker F32 F64) (ioa : Ioa)
    (value : MonitoredValue F32) (quality : Qds) :
    DeadbandTracker F32 F64 × Except DeadbandError EmitDecision :=
  match t.baselines ioa with
  | none => (t.insert ioa ⟨value, quality⟩, .ok .emit)
  | some baseline =>
    -- the kind before the quality: a sample of the wrong kind is never reported
    if h : baseline.value.kind = value.kind then
      if baseline.quality ≠ quality then (t.insert ioa ⟨value, quality⟩, .ok .emit)
      else
        match t.policy ioa with
        | .none =>
          if baseline.value.beq fp value then (t, .ok .suppress)
          else (t.insert ioa ⟨value, quality⟩, .ok .emit)
        | policy =>
          if thresholdCrossed fp baseline.value value h policy then
            (t.insert ioa ⟨value, quality⟩, .ok .emit)
          else (t, .ok .suppress)
    else (t, .error (.kindMismatch ioa baseline.value.kind value.kind))

end DeadbandTracker

/-! ## Histories -/

/-- The operations of the tracker. -/
inductive Op (F32 F64 : Type) where
  | setPolicy (ioa : Ioa) (policy : DeadbandPolicy F32 F64)
  | policy (ioa : Ioa)
  | removePolicy (ioa : Ioa)
  | observe (ioa : Ioa) (value : MonitoredValue F32) (quality : Qds)
  | evaluate (ioa : Ioa) (value : MonitoredValue F32) (quality : Qds)
  | forget (ioa : Ioa)
  | clear
deriving DecidableEq, Repr

/-- What an operation returns. -/
inductive Response (F32 F64 : Type) where
  | done
  | policy (current : DeadbandPolicy F32 F64)
  | removed (previous : Option (DeadbandPolicy F32 F64))
  | observed (result : Except DeadbandError Unit)
  | evaluated (result : Except DeadbandError EmitDecision)
deriving DecidableEq

/-- One operation on the tracker. -/
def DeadbandTracker.step (fp : FloatArith F32 F64) (t : DeadbandTracker F32 F64) :
    Op F32 F64 → DeadbandTracker F32 F64 × List (Response F32 F64)
  | .setPolicy ioa policy => (t.setPolicy ioa policy, [.done])
  | .policy ioa => (t, [.policy (t.policy ioa)])
  | .removePolicy ioa => ((t.removePolicy ioa).1, [.removed (t.removePolicy ioa).2])
  | .observe ioa value quality =>
    ((t.observe ioa value quality).1, [.observed (t.observe ioa value quality).2])
  | .evaluate ioa value quality =>
    ((t.evaluate fp ioa value quality).1, [.evaluated (t.evaluate fp ioa value quality).2])
  | .forget ioa => (t.forget ioa, [.done])
  | .clear => (t.clear, [.done])

/-- A call of the tracker. -/
abbrev Call (F32 F64 : Type) :=
  Machine.Call (DeadbandTracker F32 F64) (Op F32 F64) (Response F32 F64)

/-- **The sample that a call reports**, and its object: an observed one without an
error, or an evaluated one that is to be emitted. -/
def reported (k : Call F32 F64) : Option (Ioa × Baseline F32) :=
  match k.input, k.actions with
  | .observe ioa value quality, [.observed (.ok ())] => some (ioa, ⟨value, quality⟩)
  | .evaluate ioa value quality, [.evaluated (.ok .emit)] => some (ioa, ⟨value, quality⟩)
  | _, _ => none

/-- An operation forgets the baseline of an object. -/
def Op.forgets (ioa : Ioa) : Op F32 F64 → Bool
  | .forget ioa' => ioa' == ioa
  | .clear => true
  | _ => false

/-- What a call changes in the last report of an object. -/
def note (ioa : Ioa) (last : Option (Baseline F32)) (k : Call F32 F64) :
    Option (Baseline F32) :=
  if k.input.forgets ioa then none
  else
    match reported k with
    | some (ioa', sample) => if ioa' = ioa then some sample else last
    | none => last

/-- **The sample of an object that was reported last**, since it was last
forgotten. -/
def lastReported (h : List (Call F32 F64)) (ioa : Ioa) : Option (Baseline F32) :=
  h.foldl (note ioa) none

/-- An operation failed, or the sample was suppressed. -/
def Response.refuses : Response F32 F64 → Bool
  | .observed (.error _) => true
  | .evaluated (.error _) => true
  | .evaluated (.ok .suppress) => true
  | _ => false

theorem lastReported_snoc (h : List (Call F32 F64)) (k : Call F32 F64) (ioa : Ioa) :
    lastReported (h ++ [k]) ioa = note ioa (lastReported h ioa) k := by
  rw [lastReported, List.foldl_append]
  rfl

/-! ## What an operation does -/

section Outcomes

variable (fp : FloatArith F32 F64) (t : DeadbandTracker F32 F64) (ioa : Ioa)
  (value : MonitoredValue F32) (quality : Qds)

/-- **The outcomes of an observation.** -/
inductive Observation : DeadbandTracker F32 F64 × Except DeadbandError Unit → Prop
  | noted : Observation (t.insert ioa ⟨value, quality⟩, .ok ())
  | mismatch (baseline : Baseline F32) (hb : t.baselines ioa = some baseline)
      (hk : baseline.value.kind ≠ value.kind) :
      Observation (t, .error (.kindMismatch ioa baseline.value.kind value.kind))

/-- **The outcomes of an evaluation**, with what is known on each. -/
inductive Evaluation : DeadbandTracker F32 F64 × Except DeadbandError EmitDecision → Prop
  | emit : Evaluation (t.insert ioa ⟨value, quality⟩, .ok .emit)
  | suppress (baseline : Baseline F32) (hb : t.baselines ioa = some baseline)
      (hq : baseline.quality = quality) (hk : baseline.value.kind = value.kind)
      (hsame : t.policy ioa = .none → baseline.value.beq fp value = true)
      (hnear : t.policy ioa ≠ .none →
        thresholdCrossed fp baseline.value value hk (t.policy ioa) = false) :
      Evaluation (t, .ok .suppress)
  | mismatch (baseline : Baseline F32) (hb : t.baselines ioa = some baseline)
      (hk : baseline.value.kind ≠ value.kind) :
      Evaluation (t, .error (.kindMismatch ioa baseline.value.kind value.kind))

theorem observation_observe : Observation t ioa value quality (t.observe ioa value quality) := by
  unfold DeadbandTracker.observe
  cases hb : t.baselines ioa with
  | none => exact .noted
  | some baseline =>
    dsimp only
    by_cases hk : baseline.value.kind ≠ value.kind
    · rw [if_pos hk]
      exact .mismatch baseline hb hk
    · rw [if_neg hk]
      exact .noted

theorem evaluation_evaluate :
    Evaluation fp t ioa value quality (t.evaluate fp ioa value quality) := by
  unfold DeadbandTracker.evaluate
  cases hb : t.baselines ioa with
  | none => exact .emit
  | some baseline =>
    dsimp only
    by_cases hk : baseline.value.kind = value.kind
    · rw [dif_pos hk]
      by_cases hq : baseline.quality = quality
      · rw [if_neg (not_not_intro hq)]
        have hnear : ∀ policy, t.policy ioa = policy → policy ≠ .none →
            Evaluation fp t ioa value quality
              (if thresholdCrossed fp baseline.value value hk policy then
                (t.insert ioa ⟨value, quality⟩, .ok .emit) else (t, .ok .suppress)) := by
          rintro policy rfl hne
          by_cases hcross : thresholdCrossed fp baseline.value value hk (t.policy ioa) = true
          · rw [if_pos hcross]
            exact .emit
          · rw [if_neg hcross]
            exact .suppress baseline hb hq hk (fun hp => absurd hp hne)
              fun _ => Bool.eq_false_iff.mpr hcross
        cases hp : t.policy ioa with
        | none =>
          dsimp only
          by_cases hsame : baseline.value.beq fp value = true
          · rw [if_pos hsame]
            exact .suppress baseline hb hq hk (fun _ => hsame) fun hne => absurd hp hne
          · rw [if_neg hsame]
            exact .emit
        | absolute | percent => exact hnear _ hp (by simp)
      · rw [if_pos hq]
        exact .emit
    · rw [dif_neg hk]
      exact .mismatch baseline hb hk

end Outcomes

namespace DeadbandTracker

variable {fp : FloatArith F32 F64} {t : DeadbandTracker F32 F64} {value : F64 → ℚ}
  {delta : F64} {v w : Int16}

/-- **What is not reported leaves the tracker as it is.** -/
theorem step_of_refuses {op : Op F32 F64} (h : ∃ a ∈ (t.step fp op).2, a.refuses = true) :
    (t.step fp op).1 = t := by
  obtain ⟨a, ha, href⟩ := h
  cases op with
  | observe ioa value quality =>
    have hobs := observation_observe t ioa value quality
    unfold step at ha ⊢
    dsimp only at ha ⊢
    generalize t.observe ioa value quality = outcome at hobs ha ⊢
    cases hobs with
    | noted =>
      rw [List.mem_singleton.mp ha] at href
      cases href
    | mismatch baseline hb hk => rfl
  | evaluate ioa value quality =>
    have heval := evaluation_evaluate fp t ioa value quality
    unfold step at ha ⊢
    dsimp only at ha ⊢
    generalize t.evaluate fp ioa value quality = outcome at heval ha ⊢
    cases heval with
    | emit =>
      rw [List.mem_singleton.mp ha] at href
      cases href
    | suppress | mismatch => rfl
  | _ =>
    rw [List.mem_singleton.mp ha] at href
    cases href

/-- **A call notes in the baselines what it reports.** -/
theorem baselines_step (op : Op F32 F64) (ioa : Ioa) : (t.step fp op).1.baselines ioa
      = note ioa (t.baselines ioa) (call (step fp) t op) := by
  have hinsert : ∀ (ioa' : Ioa) (sample : Baseline F32), (t.insert ioa' sample).baselines ioa
        = if ioa' = ioa then some sample else t.baselines ioa := by
    intro ioa' sample
    show Function.update t.baselines ioa' (some sample) ioa = _
    by_cases hioa : ioa' = ioa
    · rw [if_pos hioa, hioa, Function.update_self]
    · rw [if_neg hioa, Function.update_of_ne (Ne.symm hioa)]
  cases op with
  | setPolicy | policy | removePolicy | clear => rfl
  | forget ioa' =>
    show Function.update t.baselines ioa' none ioa
      = if (ioa' == ioa) = true then none else t.baselines ioa
    by_cases hioa : ioa' = ioa
    · rw [if_pos (beq_iff_eq.mpr hioa), hioa, Function.update_self]
    · rw [if_neg fun h => hioa (beq_iff_eq.mp h), Function.update_of_ne (Ne.symm hioa)]
  | observe ioa' value quality =>
    have hobs := observation_observe t ioa' value quality
    unfold note reported call step
    dsimp only
    generalize t.observe ioa' value quality = outcome at hobs ⊢
    cases hobs with
    | noted => exact hinsert ioa' ⟨value, quality⟩
    | mismatch baseline hb hk => rfl
  | evaluate ioa' value quality =>
    have heval := evaluation_evaluate fp t ioa' value quality
    unfold note reported call step
    dsimp only
    generalize t.evaluate fp ioa' value quality = outcome at heval ⊢
    cases heval with
    | emit => exact hinsert ioa' ⟨value, quality⟩
    | suppress | mismatch => rfl

/-- **The baselines of a run are its last reports.** -/
theorem baselines_of_run {h : List (Call F32 F64)} (r : Run (step fp) new h t) (ioa : Ioa) :
    t.baselines ioa = lastReported h ioa := by
  induction r with
  | nil => rfl
  | @snoc g d r op ih => rw [baselines_step, lastReported_snoc, ih]

/-! ## Scaled values -/

/-- **Scaled values cross an absolute threshold if they are that far apart.** -/
theorem crossed_scaled_iff (hexact : fp.ExactOnScaled value) (hdelta : fp.isFinite delta = true)
    (hk : (MonitoredValue.scaled v : MonitoredValue F32).kind = (MonitoredValue.scaled w).kind) :
    thresholdCrossed fp (.scaled v) (.scaled w) hk (.absolute delta) = true
      ↔ value delta ≤ |(w.toInt : ℚ) - (v.toInt : ℚ)| := by
  rw [← hexact.dist, ← hexact.ge _ _ (hexact.finite_dist v w) hdelta]
  simp [thresholdCrossed, numberCrossed, hexact.number, hexact.finite]

/-- Scaled values that do not cross an absolute threshold are closer than it. -/
theorem abs_sub_lt_of_not_crossed (hexact : fp.ExactOnScaled value)
    (hdelta : fp.isFinite delta = true)
    {hk : (MonitoredValue.scaled v : MonitoredValue F32).kind = (MonitoredValue.scaled w).kind}
    (h : thresholdCrossed fp (.scaled v) (.scaled w) hk (.absolute delta) = false) :
    |(w.toInt : ℚ) - (v.toInt : ℚ)| < value delta := by
  rw [← not_le, ← crossed_scaled_iff hexact hdelta hk, h]
  exact Bool.false_ne_true

/-- **An evaluated scaled value is within the deadband of its baseline**, which has
its quality. -/
theorem near_of_evaluate (hexact : fp.ExactOnScaled value) {ioa : Ioa}
    (hpolicy : t.policies ioa = some (.absolute delta))
    (hfinite : fp.isFinite delta = true) (hpos : 0 < value delta)
    {quality : Qds} {decision : EmitDecision}
    (hok : (t.evaluate fp ioa (.scaled v) quality).2 = .ok decision) :
    ∃ b : Int16, (t.evaluate fp ioa (.scaled v) quality).1.baselines ioa = some ⟨.scaled b, quality⟩
      ∧ |(v.toInt : ℚ) - (b.toInt : ℚ)| < value delta := by
  have heval := evaluation_evaluate fp t ioa (.scaled v) quality
  generalize t.evaluate fp ioa (.scaled v) quality = outcome at heval hok ⊢
  cases heval with
  | emit =>
    refine ⟨v, Function.update_self ioa _ _, ?_⟩
    rw [sub_self, abs_zero]
    exact hpos
  | suppress baseline hb hq hk hsame hnear =>
    obtain ⟨old, oldQuality⟩ := baseline
    obtain rfl : oldQuality = quality := hq
    have hp : t.policy ioa = .absolute delta := by
      rw [DeadbandTracker.policy, hpolicy]
      rfl
    have hquiet := hnear (by rw [hp]; simp)
    -- of one kind: the baseline is a scaled value too
    cases old with
    | scaled b =>
      rw [hp] at hquiet
      exact ⟨b, hb, abs_sub_lt_of_not_crossed hexact hfinite hquiet⟩
    | _ => cases hk
  | mismatch baseline hb hk => cases hok

end DeadbandTracker

/-- **The deadband guarantee.** After every history of operations: the baseline of
an object is the sample of it that was reported last; an operation that fails or
suppresses changes nothing; and a scaled value that is evaluated under an absolute
deadband, with an arithmetic that is exact on scaled values, has a baseline of its
own quality that is closer to it than the deadband. -/
theorem deadband_guarantee {fp : FloatArith F32 F64} {h : List (Call F32 F64)}
    {t : DeadbandTracker F32 F64} (r : Run (DeadbandTracker.step fp) .new h t) :
    (∀ ioa, t.baselines ioa = lastReported h ioa)
      ∧ (∀ op, (∃ a ∈ (t.step fp op).2, a.refuses = true) → (t.step fp op).1 = t)
      ∧ ∀ value : F64 → ℚ, fp.ExactOnScaled value → ∀ ioa delta,
        t.policies ioa = some (.absolute delta) → fp.isFinite delta = true →
        0 < value delta → ∀ v quality decision,
        (t.step fp (.evaluate ioa (.scaled v) quality)).2 = [.evaluated (.ok decision)] →
        ∃ b : Int16, (t.step fp (.evaluate ioa (.scaled v) quality)).1.baselines ioa
            = some ⟨.scaled b, quality⟩
          ∧ |(v.toInt : ℚ) - (b.toInt : ℚ)| < value delta := by
  refine ⟨DeadbandTracker.baselines_of_run r, fun op => DeadbandTracker.step_of_refuses, ?_⟩
  intro value hexact ioa delta hpolicy hfinite hpos v quality decision hok
  have hresult : (t.evaluate fp ioa (.scaled v) quality).2 = .ok decision :=
    Response.evaluated.inj (List.singleton_inj.mp hok)
  exact DeadbandTracker.near_of_evaluate hexact hpolicy hfinite hpos hresult

/-! ## Exact arithmetic

The rationals with the special values of a floating point format. Finite numbers
are not rounded; there is one zero. -/

/-- A number of unlimited precision, or a special value. -/
inductive ExtRat where
  | nan
  | inf (negative : Bool)
  | fin (q : ℚ)
deriving DecidableEq, Repr

namespace ExtRat

def isNan : ExtRat → Bool
  | nan => true
  | inf _ | fin _ => false

def isFinite : ExtRat → Bool
  | fin _ => true
  | nan | inf _ => false

def sub : ExtRat → ExtRat → ExtRat
  | fin a, fin b => fin (a - b)
  | inf s, fin _ => inf s
  | fin _, inf s => inf (!s)
  | inf s, inf s' => if s = s' then nan else inf s
  | nan, _ | _, nan => nan

def abs : ExtRat → ExtRat
  | nan => nan
  | inf _ => inf false
  | fin q => fin |q|

def mul : ExtRat → ExtRat → ExtRat
  | fin a, fin b => fin (a * b)
  | inf s, fin q | fin q, inf s => if q = 0 then nan else inf (s ^^ decide (q < 0))
  | inf s, inf s' => inf (s ^^ s')
  | nan, _ | _, nan => nan

def div : ExtRat → ExtRat → ExtRat
  | fin a, fin b =>
    if b = 0 then (if a = 0 then nan else inf (decide (a < 0))) else fin (a / b)
  | inf s, fin q => inf (s ^^ decide (q < 0))
  | fin _, inf _ => fin 0
  | inf _, inf _ | nan, _ | _, nan => nan

/-- A NaN compares with nothing. -/
def ge : ExtRat → ExtRat → Bool
  | nan, _ | _, nan => false
  | fin a, fin b => decide (b ≤ a)
  | inf false, _ => true
  | _, inf true => true
  | inf true, _ => false
  | _, inf false => false

/-- The greater of two numbers, and the number if one is a NaN. -/
def max (x y : ExtRat) : ExtRat :=
  if x.isNan then y else if y.isNan then x else if x.ge y then x else y

/-- **Floating point arithmetic without rounding.** -/
def arith : FloatArith ExtRat ExtRat where
  beq32 x y := x.ge y && y.ge x
  ofF32 := id
  ofI16 v := fin v.toInt
  zero := fin 0
  hundred := fin 100
  isNan := isNan
  isFinite := isFinite
  sub := sub
  abs := abs
  mul := mul
  div := div
  max := max
  ge := ge
  gt x y := x.ge y && !y.ge x

/-- The value of a finite number. -/
def value : ExtRat → ℚ
  | fin q => q
  | nan | inf _ => 0

/-- It is exact on scaled values. -/
theorem exactOnScaled : arith.ExactOnScaled value where
  finite _ := rfl
  number _ := rfl
  finite_dist _ _ := rfl
  dist _ _ := rfl
  ge x y hx hy := by
    cases x with
    | fin a =>
      cases y with
      | fin b => exact decide_eq_true_iff
      | _ => cases hy
    | _ => cases hx

end ExtRat

/-- A drift in small steps: two of three samples are suppressed, and the third, whose
distance to the baseline is the deadband, is reported. -/
theorem deadband_guarantee_drift :
    let quality : Qds := ⟨false, ⟨false, false, false, false⟩⟩
    let sample (v : Int16) : Op ExtRat ExtRat := .evaluate ⟨1⟩ (.scaled v) quality
    let e := exec (DeadbandTracker.step ExtRat.arith) .new
      [.setPolicy ⟨1⟩ (.absolute (.fin (5 / 2))), sample 10, sample 11, sample 12]
    (e.2.step ExtRat.arith (sample 12)).2 = [.evaluated (.ok .suppress)]
      ∧ (e.2.step ExtRat.arith (sample 13)).2 = [.evaluated (.ok .emit)]
      ∧ e.2.baselines ⟨1⟩ = lastReported e.1 ⟨1⟩
      ∧ ∃ b : Int16, (e.2.step ExtRat.arith (sample 12)).1.baselines ⟨1⟩
            = some ⟨.scaled b, quality⟩
          ∧ |((12 : Int16).toInt : ℚ) - (b.toInt : ℚ)| < 5 / 2 := by
  intro quality sample e
  have hquiet : (e.2.step ExtRat.arith (sample 12)).2 = [.evaluated (.ok .suppress)] := by
    decide +kernel
  obtain ⟨hbase, -, hnear⟩ := deadband_guarantee (run_exec (DeadbandTracker.step ExtRat.arith)
    .new [.setPolicy ⟨1⟩ (.absolute (.fin (5 / 2))), sample 10, sample 11, sample 12])
  exact ⟨hquiet, by decide +kernel, hbase ⟨1⟩,
    hnear ExtRat.value ExtRat.exactOnScaled ⟨1⟩ (.fin (5 / 2)) (by decide +kernel) rfl
      (by decide +kernel) 12 quality .suppress hquiet⟩

end Deadband
