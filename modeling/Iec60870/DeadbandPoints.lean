import Iec60870.Deadband
import Iec60870.Unwinding

/-!
# The points of a deadband evaluator are independent

One `DeadbandTracker` serves all objects of a station. What it holds of an object,
the object's policy and its baseline, is the object's `point`; an operation names
the object it is about, but for `clear`, which is about all of them.

An operation reads and writes the point of the object that it names, and no other
(`unwinds_step`). So whatever is done to other objects, and however it is
interleaved, an object is treated as by a tracker of its own: `points_independent`.
-/

open Machine Iec60870

namespace Deadband

variable {F32 F64 : Type}

/-- The object that an operation names. -/
def Op.ioa? : Op F32 F64 → Option Ioa
  | .setPolicy ioa _ | .policy ioa | .removePolicy ioa => some ioa
  | .observe ioa _ _ | .evaluate ioa _ _ => some ioa
  | .forget ioa => some ioa
  | .clear => none

/-- An operation is about an object: it names it, or it names none. -/
def Op.concerns (ioa : Ioa) (op : Op F32 F64) : Bool :=
  op.ioa?.all (· == ioa)

namespace DeadbandTracker

variable (fp : FloatArith F32 F64)

/-- **What the tracker holds of an object**: its policy and its baseline. -/
def point (ioa : Ioa) (t : DeadbandTracker F32 F64) :
    Option (DeadbandPolicy F32 F64) × Option (Baseline F32) :=
  (t.policies ioa, t.baselines ioa)

section Update

variable {t : DeadbandTracker F32 F64} {ioa other : Ioa}

theorem point_setPolicy (policy : DeadbandPolicy F32 F64) :
    (t.setPolicy ioa policy).point ioa = (some policy, t.baselines ioa) :=
  congrArg (·, t.baselines ioa) (Function.update_self ioa _ _)

theorem point_removePolicy : (t.removePolicy ioa).1.point ioa = (none, t.baselines ioa) :=
  congrArg (·, t.baselines ioa) (Function.update_self ioa _ _)

theorem point_forget : (t.forget ioa).point ioa = (t.policies ioa, none) :=
  congrArg (t.policies ioa, ·) (Function.update_self ioa _ _)

theorem point_insert (sample : Baseline F32) :
    (t.insert ioa sample).point ioa = (t.policies ioa, some sample) :=
  congrArg (t.policies ioa, ·) (Function.update_self ioa _ _)

theorem point_insert_of_ne (h : other ≠ ioa) (sample : Baseline F32) :
    (t.insert other sample).point ioa = t.point ioa :=
  congrArg (t.policies ioa, ·) (Function.update_of_ne h.symm _ _)

end Update

/-- **An operation leaves the points of other objects as they are.** -/
theorem point_step_of_not_concerns {ioa : Ioa} (t : DeadbandTracker F32 F64)
    (op : Op F32 F64) (h : op.concerns ioa = false) :
    (t.step fp op).1.point ioa = t.point ioa := by
  have hne : ∀ other, op.ioa? = some other → other ≠ ioa := by
    rintro other hop rfl
    rw [Op.concerns, hop, Option.all_some, beq_self_eq_true] at h
    cases h
  cases op with
  | setPolicy other | removePolicy other =>
    exact congrArg (·, t.baselines ioa) (Function.update_of_ne (hne other rfl).symm _ _)
  | policy other => rfl
  | forget other =>
    exact congrArg (t.policies ioa, ·) (Function.update_of_ne (hne other rfl).symm _ _)
  | clear => cases h
  | observe other value quality =>
    have hobs := observation_observe t other value quality
    unfold step
    dsimp only
    generalize t.observe other value quality = outcome at hobs ⊢
    cases hobs with
    | noted => exact point_insert_of_ne (hne other rfl) _
    | mismatch baseline hb hk => rfl
  | evaluate other value quality =>
    have heval := evaluation_evaluate fp t other value quality
    unfold step
    dsimp only
    generalize t.evaluate fp other value quality = outcome at heval ⊢
    cases heval with
    | emit => exact point_insert_of_ne (hne other rfl) _
    | suppress | mismatch => rfl

/-- Two outcomes are the same as far as an object is concerned. -/
def Same {β : Type} (ioa : Ioa) (x y : DeadbandTracker F32 F64 × β) : Prop :=
  x.1.point ioa = y.1.point ioa ∧ x.2 = y.2

/-- A case distinction has the same outcome if its cases have. -/
theorem Same.ite {β : Type} {ioa : Ioa} {p : Prop} [Decidable p]
    {x y x' y' : DeadbandTracker F32 F64 × β} (h : Same ioa x y) (h' : Same ioa x' y') :
    Same ioa (if p then x else x') (if p then y else y') := by
  by_cases hp : p
  · rw [if_pos hp, if_pos hp]
    exact h
  · rw [if_neg hp, if_neg hp]
    exact h'

/-- Answers that are the same are the same in what is made of them. -/
theorem Same.map {β γ : Type} {ioa : Ioa} {x y : DeadbandTracker F32 F64 × β}
    (h : Same ioa x y) (f : β → γ) : Same ioa (x.1, f x.2) (y.1, f y.2) :=
  ⟨h.1, congrArg f h.2⟩

section Agree

variable {ioa : Ioa} {t u : DeadbandTracker F32 F64} (h : t.point ioa = u.point ioa)
include h

theorem policies_of_point : t.policies ioa = u.policies ioa :=
  congrArg Prod.fst h

theorem baselines_of_point : t.baselines ioa = u.baselines ioa :=
  congrArg Prod.snd h

theorem policy_of_point : t.policy ioa = u.policy ioa :=
  congrArg (·.getD .none) (policies_of_point h)

/-- Trackers that agree on an object agree after a new baseline of it. -/
theorem same_insert {β : Type} (sample : Baseline F32) (answer : β) :
    Same ioa (t.insert ioa sample, answer) (u.insert ioa sample, answer) := by
  refine ⟨?_, rfl⟩
  dsimp only
  rw [point_insert, point_insert, policies_of_point h]

/-- **An observation reads and writes the point of its object.** -/
theorem same_observe (value : MonitoredValue F32) (quality : Qds) :
    Same ioa (t.observe ioa value quality) (u.observe ioa value quality) := by
  unfold observe
  rw [baselines_of_point h]
  cases u.baselines ioa with
  | none => exact same_insert h _ _
  | some baseline => exact .ite ⟨h, rfl⟩ (same_insert h _ _)

/-- **An evaluation reads and writes the point of its object.** -/
theorem same_evaluate (value : MonitoredValue F32) (quality : Qds) :
    Same ioa (t.evaluate fp ioa value quality) (u.evaluate fp ioa value quality) := by
  unfold evaluate
  rw [baselines_of_point h, policy_of_point h]
  cases u.baselines ioa with
  | none => exact same_insert h _ _
  | some baseline =>
    dsimp only
    by_cases hk : baseline.value.kind = value.kind
    · rw [dif_pos hk, dif_pos hk]
      refine .ite (same_insert h _ _) ?_
      cases u.policy ioa with
      | none => exact .ite ⟨h, rfl⟩ (same_insert h _ _)
      | absolute | percent => exact .ite (same_insert h _ _) ⟨h, rfl⟩
    · rw [dif_neg hk, dif_neg hk]
      exact ⟨h, rfl⟩

/-- Trackers that agree on an object agree on what its removed policy was. -/
theorem same_removePolicy : Same ioa (t.removePolicy ioa) (u.removePolicy ioa) := by
  refine ⟨?_, policies_of_point h⟩
  rw [point_removePolicy, point_removePolicy, baselines_of_point h]

/-- **An operation on an object reads and writes its point.** -/
theorem same_step (op : Op F32 F64) (hop : op.concerns ioa = true) :
    Same ioa (t.step fp op) (u.step fp op) := by
  have hioa : ∀ other, op.ioa? = some other → other = ioa := by
    intro other hother
    rw [Op.concerns, hother, Option.all_some] at hop
    exact beq_iff_eq.mp hop
  cases op with
  | clear =>
    refine ⟨?_, rfl⟩
    show (t.policies ioa, none) = (u.policies ioa, none)
    rw [policies_of_point h]
  | setPolicy other policy =>
    obtain rfl := hioa other rfl
    refine ⟨?_, rfl⟩
    show (t.setPolicy other policy).point other = (u.setPolicy other policy).point other
    rw [point_setPolicy, point_setPolicy, baselines_of_point h]
  | policy other =>
    obtain rfl := hioa other rfl
    refine ⟨h, ?_⟩
    show [Response.policy (t.policy other)] = [Response.policy (u.policy other)]
    rw [policy_of_point h]
  | removePolicy other =>
    obtain rfl := hioa other rfl
    exact (same_removePolicy h).map fun previous => [Response.removed previous]
  | forget other =>
    obtain rfl := hioa other rfl
    refine ⟨?_, rfl⟩
    show (t.forget other).point other = (u.forget other).point other
    rw [point_forget, point_forget, policies_of_point h]
  | observe other value quality =>
    obtain rfl := hioa other rfl
    exact (same_observe h value quality).map fun result => [Response.observed result]
  | evaluate other value quality =>
    obtain rfl := hioa other rfl
    exact (same_evaluate fp h value quality).map fun result => [Response.evaluated result]

end Agree

/-- The operations on other objects have no influence on an object. -/
theorem unwinds_step (ioa : Ioa) : Unwinds (step fp) (Op.concerns ioa) (point ioa) where
  frame := point_step_of_not_concerns fp
  agree _ _ op hop h := same_step fp h op hop

/-- **Points do not influence each other.** For every sequence of operations and
every object: with the operations that name other objects deleted, the operations
on the object return what they returned, and its policy and its baseline end up the
same. -/
theorem points_independent (t : DeadbandTracker F32 F64) (ops : List (Op F32 F64))
    (ioa : Ioa) : visible (Op.concerns ioa) (exec (step fp) t ops).1
        = (exec (step fp) t (ops.filter (Op.concerns ioa))).1.map Call.answered
      ∧ (exec (step fp) t ops).2.policies ioa
        = (exec (step fp) t (ops.filter (Op.concerns ioa))).2.policies ioa
      ∧ (exec (step fp) t ops).2.baselines ioa
        = (exec (step fp) t (ops.filter (Op.concerns ioa))).2.baselines ioa := by
  obtain ⟨hanswers, hpoint⟩ := (unwinds_step fp ioa).exec_filter t ops
  exact ⟨hanswers, policies_of_point hpoint, baselines_of_point hpoint⟩

end DeadbandTracker

end Deadband
