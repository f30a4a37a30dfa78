import Mathlib.Algebra.Order.Group.Abs
import Mathlib.Algebra.Order.Group.Int
import Mathlib.Data.List.Induction

/-!
# Sampling a signal at a distance

A *sampler* thins out a signal: it keeps a value if it is at least a gap away from
the value it kept last, and the first one in any case. `sample gap xs` runs it over
a signal and collects the positions of the values that it keeps.

What a larger gap does to the kept positions is not obvious, since the two samplers
measure from different values as soon as one of them has kept a value that the other
has not. For a signal that does not decrease it is what one expects, and in a strong
form (`sample_noSooner`): for each `i`, the `i`-th value kept with the larger gap does
not come before the `i`-th kept with the smaller one. While both have kept equally
many values, the one with the larger gap measures from a later, hence no smaller
value, and that is the invariant (`Behind`) that a step preserves.

For a signal that goes up and down it fails: of `0, 4, 7, 1`, the gap 4 keeps two
values and the gap 5 three.
-/

namespace Sampling

/-! ## Sequences of positions -/

/-- **The `i`-th position of `late` is not before the `i`-th of `early`**, which
there is. -/
def NoSooner (late early : List ℕ) : Prop :=
  ∀ i n : ℕ, late[i]? = some n → ∃ m, early[i]? = some m ∧ m ≤ n

namespace NoSooner

variable {late early : List ℕ} {n : ℕ}

/-- There are no more of the later ones. -/
theorem length_le (h : NoSooner late early) : late.length ≤ early.length := by
  by_contra hlt
  obtain ⟨m, hm, -⟩ := h early.length _ (List.getElem?_eq_getElem (not_le.mp hlt))
  rw [List.getElem?_eq_none le_rfl] at hm
  cases hm

/-- One position more of the early ones. -/
theorem concat_early (h : NoSooner late early) (n : ℕ) : NoSooner late (early ++ [n]) := by
  intro i k hk
  obtain ⟨m, hm, hle⟩ := h i k hk
  refine ⟨m, ?_, hle⟩
  rw [List.getElem?_append_left (List.getElem?_eq_some_iff.mp hm).1]
  exact hm

/-- One position more of the late ones, when it is the turn of a late one. -/
theorem concat_late (h : NoSooner late early) (hlen : late.length < early.length)
    (hn : ∀ m ∈ early, m ≤ n) : NoSooner (late ++ [n]) early := by
  intro i k hk
  obtain hi | hi := lt_or_ge i late.length
  · rw [List.getElem?_append_left hi] at hk
    exact h i k hk
  · rw [List.getElem?_append_right hi, List.getElem?_singleton] at hk
    obtain ⟨hzero, hlast⟩ := Option.ite_none_right_eq_some.mp hk
    obtain rfl := Option.some.inj hlast
    have hlt : i < early.length := by omega
    exact ⟨early[i], List.getElem?_eq_getElem hlt, hn _ (List.getElem_mem hlt)⟩

end NoSooner

/-! ## Samplers -/

/-- The state of a sampler. -/
structure Sampler (K : Type) where
  /-- The value kept last. -/
  last : Option K
  /-- The positions of the values kept. -/
  kept : List ℕ
  /-- How many values there were. -/
  seen : ℕ

section Sampler

variable {K : Type} [AddCommGroup K] [LinearOrder K]

/-- A value is a gap away from the one kept last. -/
def Far (gap : K) (last : Option K) (v : K) : Prop :=
  ∀ b ∈ last, gap ≤ |v - b|

instance (gap : K) (last : Option K) (v : K) : Decidable (Far gap last v) :=
  inferInstanceAs (Decidable (∀ b ∈ last, gap ≤ |v - b|))

@[simp] theorem far_none (gap v : K) : Far gap none v :=
  fun b hb => by cases hb

@[simp] theorem far_some (gap b v : K) : Far gap (some b) v ↔ gap ≤ |v - b| := by
  constructor
  · intro h
    exact h b rfl
  · intro h c hc
    rw [← Option.mem_some.mp hc]
    exact h

/-- One value more. -/
def Sampler.take (gap : K) (s : Sampler K) (v : K) : Sampler K :=
  if Far gap s.last v then ⟨some v, s.kept ++ [s.seen], s.seen + 1⟩
  else { s with seen := s.seen + 1 }

@[simp] theorem Sampler.seen_take (gap : K) (s : Sampler K) (v : K) :
    (s.take gap v).seen = s.seen + 1 := by
  unfold Sampler.take
  split <;> rfl

/-- **The values of a signal that are a gap apart.** -/
def sample (gap : K) (xs : List K) : Sampler K :=
  xs.foldl (Sampler.take gap) ⟨none, [], 0⟩

theorem sample_concat (gap : K) (xs : List K) (v : K) :
    sample gap (xs ++ [v]) = (sample gap xs).take gap v := by
  rw [sample, List.foldl_append]
  rfl

/-- What a sampler holds comes from the signal. -/
structure Sampler.Sound (xs : List K) (s : Sampler K) : Prop where
  last_mem : ∀ b ∈ s.last, b ∈ xs
  kept_lt : ∀ m ∈ s.kept, m < s.seen

theorem sound_sample (gap : K) (xs : List K) : (sample gap xs).Sound xs := by
  induction xs using List.reverseRecOn with
  | nil =>
    refine ⟨?_, fun m hm => absurd hm List.not_mem_nil⟩
    intro b hb
    cases hb
  | append_singleton xs v ih =>
    rw [sample_concat, Sampler.take]
    by_cases hfar : Far gap (sample gap xs).last v
    · rw [if_pos hfar]
      refine ⟨?_, ?_⟩
      · intro b hb
        cases hb
        exact List.mem_append_right _ (List.mem_singleton_self v)
      · intro m hm
        obtain hm | hm := List.mem_append.mp hm
        · exact (ih.kept_lt m hm).trans (Nat.lt_succ_self _)
        · rw [List.mem_singleton.mp hm]
          exact Nat.lt_succ_self _
    · rw [if_neg hfar]
      exact ⟨fun b hb => List.mem_append_left _ (ih.last_mem b hb),
        fun m hm => (ih.kept_lt m hm).trans (Nat.lt_succ_self _)⟩

/-! ## Two gaps -/

/-- **A sampler is behind another**: it has not kept more, and when it has kept as
many, it measures from a value that is no smaller. -/
structure Behind (late early : Sampler K) : Prop where
  seen : late.seen = early.seen
  noSooner : NoSooner late.kept early.kept
  ahead : late.kept.length = early.kept.length → ∀ b ∈ early.last, ∃ c ∈ late.last, b ≤ c

variable [IsOrderedAddMonoid K] {small large : K} {late early : Sampler K} {v : K}

/-- Above both values, what is far with the large gap from the larger one is far with
the small gap from the smaller one. -/
theorem far_of_far (hgap : small ≤ large) {last last' : Option K}
    (hlast : ∀ b ∈ last, ∃ c ∈ last', b ≤ c) (hv : ∀ c ∈ last', c ≤ v)
    (hfar : Far large last' v) : Far small last v := by
  intro b hb
  obtain ⟨c, hc, hbc⟩ := hlast b hb
  calc small ≤ large := hgap
    _ ≤ |v - c| := hfar c hc
    _ = v - c := abs_of_nonneg (sub_nonneg.mpr (hv c hc))
    _ ≤ v - b := sub_le_sub_left hbc v
    _ ≤ |v - b| := le_abs_self _

/-- **The sampler with the larger gap stays behind**, as long as the signal does not
decrease. -/
theorem Behind.take (h : Behind late early) (hgap : small ≤ large)
    (hlate : ∀ c ∈ late.last, c ≤ v) (hearly : ∀ b ∈ early.last, b ≤ v)
    (hkept : ∀ m ∈ early.kept, m < early.seen) :
    Behind (late.take large v) (early.take small v) := by
  have hle : ∀ m ∈ early.kept, m ≤ late.seen := by
    intro m hm
    rw [h.seen]
    exact (hkept m hm).le
  have hseen : late.seen + 1 = early.seen + 1 := congrArg (· + 1) h.seen
  have hlen := h.noSooner.length_le
  unfold Sampler.take
  by_cases hfar : Far large late.last v
  · rw [if_pos hfar]
    by_cases hfar' : Far small early.last v
    · rw [if_pos hfar']
      refine ⟨hseen, ?_, fun _ b hb => ⟨v, rfl, (Option.mem_some.mp hb).ge⟩⟩
      refine (h.noSooner.concat_early early.seen).concat_late ?_ ?_
      · rw [List.length_append]
        exact Nat.lt_succ_of_le hlen
      · intro m hm
        obtain hm | hm := List.mem_append.mp hm
        · exact hle m hm
        · rw [List.mem_singleton.mp hm, h.seen]
    · -- only the late one keeps the value: it had kept fewer, since it would not have
      -- been ahead otherwise
      rw [if_neg hfar']
      have hne : late.kept.length ≠ early.kept.length :=
        fun heq => hfar' (far_of_far hgap (h.ahead heq) hlate hfar)
      exact ⟨hseen, h.noSooner.concat_late (lt_of_le_of_ne hlen hne) hle,
        fun _ b hb => ⟨v, rfl, hearly b hb⟩⟩
  · rw [if_neg hfar]
    by_cases hfar' : Far small early.last v
    · rw [if_pos hfar']
      refine ⟨hseen, h.noSooner.concat_early _, fun heq => ?_⟩
      have hlonger : late.kept.length = early.kept.length + 1 := by
        rw [heq, List.length_append, List.length_singleton]
      omega
    · rw [if_neg hfar']
      exact ⟨hseen, h.noSooner, h.ahead⟩

theorem behind_sample (hgap : small ≤ large) {xs : List K} (hxs : xs.Pairwise (· ≤ ·)) :
    Behind (sample large xs) (sample small xs) := by
  induction xs using List.reverseRecOn with
  | nil =>
    refine ⟨rfl, ?_, ?_⟩
    · intro i n hn
      cases hn
    · intro _ b hb
      cases hb
  | append_singleton xs v ih =>
    obtain ⟨hprev, -, hv⟩ := List.pairwise_append.mp hxs
    have hle : ∀ gap, ∀ b ∈ (sample gap xs).last, b ≤ v := fun gap b hb =>
      hv b ((sound_sample gap xs).last_mem b hb) v (List.mem_singleton_self v)
    rw [sample_concat, sample_concat]
    exact (ih hprev).take hgap (hle large) (hle small) (sound_sample small xs).kept_lt

/-- **A larger gap keeps no value sooner**, of a signal that does not decrease. -/
theorem sample_noSooner (hgap : small ≤ large) {xs : List K} (hxs : xs.Pairwise (· ≤ ·)) :
    NoSooner (sample large xs).kept (sample small xs).kept :=
  (behind_sample hgap hxs).noSooner

example : (sample (4 : ℤ) [0, 4, 7, 1]).kept = [0, 1]
    ∧ (sample (5 : ℤ) [0, 4, 7, 1]).kept = [0, 2, 3] := by
  decide

end Sampler

end Sampling
