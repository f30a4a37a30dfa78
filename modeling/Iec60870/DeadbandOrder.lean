import Iec60870.Deadband
import Iec60870.Sampling

/-!
# A wider deadband reports no more

Scaled values that are evaluated one after the other under an absolute deadband are
sampled: the tracker reports the first value, and then each value that is at least
the deadband away from the one reported last. `follows_walk` says that the
reported positions are those of the sampler of `Sampling`, over the rational values
of the samples; the tracker's arithmetic only has to be exact on scaled values.

For values that do not decrease, a wider deadband then reports none sooner
(`wider_deadband`), in particular no more of them.
-/

open Machine Iec60870 Sampling

namespace Deadband

variable {F32 F64 : Type}

/-- A response reports the evaluated sample. -/
def Response.emits : Response F32 F64 → Bool
  | .evaluated (.ok .emit) => true
  | _ => false

/-- The positions of the calls that report the evaluated sample. -/
def emissions (h : List (Call F32 F64)) : List ℕ :=
  h.findIdxs fun k => k.actions.any Response.emits

theorem emissions_concat (h : List (Call F32 F64)) (k : Call F32 F64) : emissions (h ++ [k])
      = emissions h ++ if k.actions.any Response.emits then [h.length] else [] := by
  rw [emissions, List.findIdxs_append, List.findIdxs_singleton, Nat.zero_add]
  rfl

namespace DeadbandTracker

/-- A fresh tracker with an absolute deadband for one object. -/
def withDelta (ioa : Ioa) (delta : F64) : DeadbandTracker F32 F64 :=
  new.setPolicy ioa (.absolute delta)

/-- The run that evaluates scaled values of one quality, for one object, on a fresh
tracker with an absolute deadband. -/
def walk (fp : FloatArith F32 F64) (ioa : Ioa) (quality : Qds) (values : List Int16)
    (delta : F64) : List (Call F32 F64) × DeadbandTracker F32 F64 :=
  exec (step fp) (withDelta ioa delta) (values.map fun v => .evaluate ioa (.scaled v) quality)

/-- **Which of the values are reported**: their positions. -/
def emitted (fp : FloatArith F32 F64) (ioa : Ioa) (quality : Qds) (values : List Int16)
    (delta : F64) : List ℕ :=
  emissions (walk fp ioa quality values delta).1

/-- The number that a scaled value stands for. -/
def number (v : Int16) : ℚ := v.toInt

section Sampled

variable {fp : FloatArith F32 F64} {value : F64 → ℚ} {ioa : Ioa} {quality : Qds}
  {delta : F64}

/-- **A tracker and a sampler agree**: the baseline of the object is the value kept
last. -/
structure Follows (ioa : Ioa) (quality : Qds) (delta : F64) (t : DeadbandTracker F32 F64)
    (last : Option ℚ) : Prop where
  policy : t.policies ioa = some (.absolute delta)
  baseline : ∃ kept : Option Int16,
    t.baselines ioa = kept.map (fun v => ⟨.scaled v, quality⟩) ∧ last = kept.map number

/-- **What an evaluation does with a scaled value**: it reports it if it is the
deadband away from the value kept last. -/
theorem Follows.evaluate {t : DeadbandTracker F32 F64} {last : Option ℚ}
    (h : Follows ioa quality delta t last) (hexact : fp.ExactOnScaled value)
    (hdelta : fp.isFinite delta = true) (v : Int16) :
    t.evaluate fp ioa (.scaled v) quality = if Far (value delta) last (number v) then
          (t.insert ioa ⟨.scaled v, quality⟩, .ok .emit)
        else (t, .ok .suppress) := by
  obtain ⟨kept, hbase, rfl⟩ := h.baseline
  have hpolicy : t.policy ioa = .absolute delta := by
    rw [DeadbandTracker.policy, h.policy, Option.getD_some]
  unfold DeadbandTracker.evaluate
  rw [hbase, hpolicy]
  cases kept with
  | none => exact (if_pos (far_none _ _)).symm
  | some b =>
    have hk : (.scaled b : MonitoredValue F32).kind = (.scaled v : MonitoredValue F32).kind :=
      rfl
    have hiff : thresholdCrossed fp (.scaled b) (.scaled v) hk (.absolute delta) = true
        ↔ Far (value delta) (some (number b)) (number v) := by
      rw [crossed_scaled_iff hexact hdelta hk, far_some]
      rfl
    dsimp only [Option.map_some]
    rw [dif_pos hk, if_neg (not_not_intro rfl)]
    exact if_congr hiff rfl rfl

/-- **A step of the tracker is a step of the sampler.** -/
theorem Follows.step {t : DeadbandTracker F32 F64} {s : Sampler ℚ}
    (h : Follows ioa quality delta t s.last) (hexact : fp.ExactOnScaled value)
    (hdelta : fp.isFinite delta = true) (v : Int16) :
    let next := t.step fp (.evaluate ioa (.scaled v) quality)
    Follows ioa quality delta next.1 (s.take (value delta) (number v)).last
      ∧ (s.take (value delta) (number v)).kept
        = s.kept ++ if next.2.any Response.emits then [s.seen] else [] := by
  intro next
  have heval := h.evaluate hexact hdelta v
  have hnext : next = ((t.evaluate fp ioa (.scaled v) quality).1,
      [.evaluated (t.evaluate fp ioa (.scaled v) quality).2]) := rfl
  rw [hnext, heval, Sampler.take]
  by_cases hfar : Far (value delta) s.last (number v)
  · rw [if_pos hfar, if_pos hfar]
    exact ⟨⟨h.policy, some v, Function.update_self ioa _ _, rfl⟩, rfl⟩
  · rw [if_neg hfar, if_neg hfar]
    exact ⟨h, (List.append_nil _).symm⟩

/-- **The tracker and the sampler agree after each value.** -/
theorem follows_walk (hexact : fp.ExactOnScaled value) (hdelta : fp.isFinite delta = true)
    (values : List Int16) :
    Follows ioa quality delta (walk fp ioa quality values delta).2
        (sample (value delta) (values.map number)).last
      ∧ (walk fp ioa quality values delta).1.length
        = (sample (value delta) (values.map number)).seen
      ∧ emitted fp ioa quality values delta = (sample (value delta) (values.map number)).kept := by
  induction values using List.reverseRecOn with
  | nil => exact ⟨⟨Function.update_self ioa _ _, none, rfl, rfl⟩, rfl, rfl⟩
  | append_singleton values v ih =>
    obtain ⟨hfollows, hseen, hkept⟩ := ih
    obtain ⟨hnext, hemits⟩ := hfollows.step hexact hdelta v
    rw [emitted, walk, List.map_append, List.map_singleton, List.map_append,
      List.map_singleton, exec_concat, sample_concat]
    refine ⟨hnext, ?_, ?_⟩
    · rw [Sampler.seen_take, List.length_append, List.length_singleton, ← hseen]
      rfl
    · rw [emissions_concat, hemits, ← hkept, ← hseen]
      rfl

end Sampled

/-- **A wider deadband reports no more, and nothing sooner.** For values that do not
decrease, evaluated with one quality on a fresh tracker, and two finite deadbands:
there are at most as many emissions with the wider one, and its `i`-th emission does
not come before the `i`-th with the narrower one. -/
theorem wider_deadband {fp : FloatArith F32 F64} {value : F64 → ℚ}
    (hexact : fp.ExactOnScaled value) (ioa : Ioa) (quality : Qds) {values : List Int16}
    (hvalues : values.Pairwise (· ≤ ·)) {d₁ d₂ : F64} (hd₁ : fp.isFinite d₁ = true)
    (hd₂ : fp.isFinite d₂ = true) (hle : value d₁ ≤ value d₂) :
    (emitted fp ioa quality values d₂).length ≤ (emitted fp ioa quality values d₁).length
      ∧ ∀ i n : ℕ, (emitted fp ioa quality values d₂)[i]? = some n →
        ∃ m, (emitted fp ioa quality values d₁)[i]? = some m ∧ m ≤ n := by
  have hnumbers : (values.map number).Pairwise (· ≤ ·) := by
    refine hvalues.map number ?_
    intro v w hvw
    show (v.toInt : ℚ) ≤ (w.toInt : ℚ)
    exact_mod_cast Int16.le_iff_toInt_le.mp hvw
  have hnoSooner := sample_noSooner hle hnumbers
  rw [← (follows_walk hexact hd₁ values).2.2, ← (follows_walk hexact hd₂ values).2.2]
    at hnoSooner
  exact ⟨hnoSooner.length_le, hnoSooner⟩

/-- A walk in steps of two: with a deadband of three every second value is reported,
with one of four and a half every third. -/
theorem wider_deadband_stairs :
    let quality : Qds := ⟨false, ⟨false, false, false, false⟩⟩
    let emitted := emitted ExtRat.arith ⟨1⟩ quality [0, 2, 4, 6, 8, 10, 12]
    emitted (.fin 3) = [0, 2, 4, 6] ∧ emitted (.fin (9 / 2)) = [0, 3, 6]
      ∧ ∀ i n : ℕ, (emitted (.fin (9 / 2)))[i]? = some n →
        ∃ m, (emitted (.fin 3))[i]? = some m ∧ m ≤ n := by
  intro quality emitted
  exact ⟨by decide +kernel, by decide +kernel,
    (wider_deadband ExtRat.exactOnScaled ⟨1⟩ quality (by decide) rfl rfl
      (by decide +kernel)).2⟩

end DeadbandTracker

end Deadband
