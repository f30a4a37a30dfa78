import Mathlib.Data.List.Basic
import Mathlib.Data.Nat.ModEq

/-!
# Windows of sequence numbers counted modulo `M`

A sliding-window protocol counts its frames `0, 1, 2, …` and puts the count
modulo `M` on the wire. `Window M f l` says that `l` is a stretch of such
numbers starting at the count `f`: it holds the residues of `f`, `f + 1`,
and so on. A cumulative acknowledgement carries the residue of the next
count its sender expects, and the receiver of it drops numbers from the
front of its window while they lie *behind* the acknowledgement, which it
decides from the cyclic distance alone: `Behind M H s r` holds when `r` is
ahead of `s` by at least one and at most `H`.

An acknowledgement of a count `a` that is not behind the window's start
never drops a number whose count is `a` or beyond (`exists_drop_le`),
however wide the window is – the cyclic test may give up early, it never
overshoots. And when `a` lies in the window, exactly the numbers before `a`
are dropped as long as there are at most `H` of them (`dropWhile_behind`);
if there are more, nothing is dropped at all (`dropWhile_behind_far`).
-/

namespace Cyclic

/-- How far `r` is ahead of `s`, modulo `M`. -/
def distance (M s r : ℕ) : ℕ := (r + M - s) % M

/-- The number `s` lies behind the acknowledgement `r`, as far as a cyclic
comparison with the half-range `H` can tell. -/
def Behind (M H s r : ℕ) : Prop := distance M s r ≠ 0 ∧ distance M s r ≤ H

instance (M H s r : ℕ) : Decidable (Behind M H s r) :=
  inferInstanceAs (Decidable (_ ∧ _))

/-- **A stretch of consecutive counts**, by their residues: `f`, `f + 1`,
and so on. -/
def Window (M : ℕ) : ℕ → List ℕ → Prop
  | _, [] => True
  | f, x :: l => x = f % M ∧ Window M (f + 1) l

@[simp] theorem window_nil (M f : ℕ) : Window M f [] := trivial

@[simp] theorem window_cons (M f x : ℕ) (l : List ℕ) :
    Window M f (x :: l) ↔ x = f % M ∧ Window M (f + 1) l := Iff.rfl

/-- A window is a window followed by the window of the counts after it. -/
theorem window_append (M f : ℕ) (l₁ l₂ : List ℕ) :
    Window M f (l₁ ++ l₂) ↔ Window M f l₁ ∧ Window M (f + l₁.length) l₂ := by
  induction l₁ generalizing f with
  | nil => simp
  | cons x l₁ ih =>
    rw [List.cons_append, window_cons, window_cons, ih, List.length_cons,
      and_assoc, show f + 1 + l₁.length = f + (l₁.length + 1) from by omega]

variable {M f : ℕ} {l : List ℕ} {a : ℕ} {H : ℕ}

/-- Dropping the first `n` numbers of a window advances its start. -/
theorem Window.drop (h : Window M f l) {n : ℕ}
    (hn : n ≤ l.length) : Window M (f + n) (l.drop n) := by
  have ht := (window_append M f (l.take n) (l.drop n)).mp (by rwa [List.take_append_drop])
  rw [List.length_take, Nat.min_eq_left hn] at ht
  exact ht.2

/-- A window is determined by its start and its length. -/
theorem Window.eq_of_length {l₁ l₂ : List ℕ} (h₁ : Window M f l₁)
    (h₂ : Window M f l₂) (hl : l₁.length = l₂.length) : l₁ = l₂ := by
  induction l₁ generalizing f l₂ with
  | nil => exact (List.length_eq_zero_iff.mp hl.symm).symm
  | cons x l₁ ih =>
    cases l₂ with
    | nil => exact absurd hl (Nat.succ_ne_zero _)
    | cons y l₂ =>
      rw [h₁.1, h₂.1, ih h₁.2 h₂.2 (Nat.succ.inj hl)]

/-- The residue of the `i`-th number of a window. -/
theorem Window.getElem? (h : Window M f l) {i x : ℕ} (hx : l[i]? = some x) : x = (f + i) % M := by
  induction l generalizing f i with
  | nil => simp at hx
  | cons y l ih =>
    cases i with
    | zero =>
      rw [List.getElem?_cons_zero, Option.some.injEq] at hx
      rw [← hx, Nat.add_zero]
      exact h.1
    | succ i =>
      rw [List.getElem?_cons_succ] at hx
      rw [ih h.2 hx, show f + 1 + i = f + (i + 1) from by omega]

/-- The cyclic distance between two counts is their difference modulo
`M`. -/
theorem distance_mod (hM : 0 < M) (hfa : f ≤ a) : distance M (f % M) (a % M) = (a - f) % M := by
  unfold distance
  have hf : f % M < M := Nat.mod_lt f hM
  have key : a % M + M - f % M ≡ a - f [MOD M] := by
    refine Nat.ModEq.add_right_cancel' (f % M) ?_
    have h₁ : a % M + M - f % M + f % M = a % M + M := by omega
    have h₂ : a - f + f % M ≡ a - f + f [MOD M] :=
      (Nat.mod_modEq f M).add_left _
    rw [h₁, Nat.sub_add_cancel hfa] at *
    exact ((Nat.add_modEq_right).trans (Nat.mod_modEq a M)).trans h₂.symm
  exact key

/-- The distance leads from one number to the other. -/
theorem add_distance {M s r : ℕ} (hs : s < M) (hr : r < M) : (s + distance M s r) % M = r := by
  unfold distance
  rw [Nat.add_mod_mod, show s + (r + M - s) = r + M from by omega, Nat.add_mod_right,
    Nat.mod_eq_of_lt hr]

/-- Only a count strictly before `a` is behind an acknowledgement of `a`. -/
theorem Behind.lt (hM : 0 < M) (hfa : f ≤ a) (hb : Behind M H (f % M) (a % M)) : f < a := by
  rcases Nat.eq_or_lt_of_le hfa with rfl | hlt
  · refine absurd ?_ hb.1
    rw [distance_mod hM le_rfl, Nat.sub_self, Nat.zero_mod]
  · exact hlt

/-- Within the half-range, every count strictly before `a` is behind an
acknowledgement of `a`. -/
theorem behind_of_lt (hH : H < M) (hfa : f < a) (had : a - f ≤ H) : Behind M H (f % M) (a % M) := by
  have hM : 0 < M := by omega
  have hd : distance M (f % M) (a % M) = a - f := by
    rw [distance_mod hM hfa.le, Nat.mod_eq_of_lt (by omega)]
  exact ⟨by rw [hd]; omega, by rw [hd]; exact had⟩

section Drop

variable {β : Type} (key : β → ℕ) {M H f a : ℕ} {l : List β}

/-- **A cumulative acknowledgement never overshoots.** Dropping the numbers
behind an acknowledgement of `a` from a window that starts at or before `a`
drops no count from `a` on. -/
theorem exists_drop_le (hM : 0 < M) (hw : Window M f (l.map key)) (hfa : f ≤ a) : ∃ n ≤ l.length,
      l.dropWhile (fun b => decide (Behind M H (key b) (a % M))) = l.drop n ∧ f + n ≤ a := by
  induction l generalizing f with
  | nil => exact ⟨0, le_rfl, rfl, hfa⟩
  | cons b l ih =>
    rw [List.map_cons, window_cons] at hw
    rw [List.dropWhile_cons]
    split
    · rename_i hb
      rw [hw.1, decide_eq_true_eq] at hb
      obtain ⟨n, hn, hd, hle⟩ := ih hw.2 (hb.lt hM hfa)
      exact ⟨n + 1, by simpa using hn, by simpa using hd, by omega⟩
    · exact ⟨0, Nat.zero_le _, rfl, hfa⟩

/-- **A cumulative acknowledgement drops exactly what it covers**, as long as
that is within the half-range. -/
theorem dropWhile_behind (hH : H < M)
    (hw : Window M f (l.map key)) (hfa : f ≤ a) (hal : a ≤ f + l.length)
    (had : a - f ≤ H) :
    l.dropWhile (fun b => decide (Behind M H (key b) (a % M))) = l.drop (a - f) := by
  induction l generalizing f with
  | nil => simp
  | cons b l ih =>
    rw [List.map_cons, window_cons] at hw
    rw [List.length_cons] at hal
    rw [List.dropWhile_cons]
    rcases Nat.eq_or_lt_of_le hfa with rfl | hlt
    · rw [if_neg, Nat.sub_self, List.drop_zero]
      intro hb
      rw [hw.1, decide_eq_true_eq] at hb
      exact absurd (hb.lt (by omega) le_rfl) (lt_irrefl _)
    · rw [if_pos (decide_eq_true (hw.1 ▸ behind_of_lt hH hlt (by omega))),
        ih hw.2 hlt (by omega) (by omega),
        show a - f = (a - (f + 1)) + 1 from by omega, List.drop_succ_cons]

/-- An acknowledgement beyond the half-range drops nothing. -/
theorem dropWhile_behind_far (hw : Window M f (l.map key)) (hfar : H < a - f) (hM : a - f < M) :
    l.dropWhile (fun b => decide (Behind M H (key b) (a % M))) = l := by
  cases l with
  | nil => rfl
  | cons b l =>
    rw [List.map_cons, window_cons] at hw
    refine List.dropWhile_cons_of_neg ?_
    rw [hw.1, decide_eq_true_eq]
    intro hb
    have hd : distance M (f % M) (a % M) = a - f := by
      rw [distance_mod (by omega) (by omega), Nat.mod_eq_of_lt hM]
    exact absurd hb.2 (by omega)

/-- The numbers of a window from the `n`-th on are those whose distance from
its start is at least `n`. -/
theorem filter_distance (n : ℕ) (j : ℕ)
    (hw : Window M (f + j) (l.map key)) (hlen : j + l.length ≤ M) :
    l.filter (fun b => decide (n ≤ distance M (f % M) (key b))) = l.drop (n - j) := by
  induction l generalizing j with
  | nil => simp
  | cons b l ih =>
    rw [List.map_cons, window_cons] at hw
    rw [List.length_cons] at hlen
    have hd : distance M (f % M) (key b) = j := by
      rw [hw.1, distance_mod (by omega) (Nat.le_add_right f j),
        Nat.add_sub_cancel_left, Nat.mod_eq_of_lt (by omega)]
    have hrest := ih (j + 1) hw.2 (by omega)
    rw [List.filter_cons, hd, hrest]
    by_cases hn : n ≤ j
    · rw [if_pos (decide_eq_true hn), Nat.sub_eq_zero_of_le hn,
        Nat.sub_eq_zero_of_le (by omega), List.drop_zero, List.drop_zero]
    · rw [if_neg (by simpa using hn), show n - j = (n - (j + 1)) + 1 from by omega,
        List.drop_succ_cons]

end Drop

end Cyclic
