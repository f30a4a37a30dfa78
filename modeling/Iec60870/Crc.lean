import Mathlib.Algebra.CharP.Two
import Mathlib.Algebra.Field.ZMod
import Mathlib.Algebra.Polynomial.Div

/-!
# Cyclic redundancy checks

A cyclic redundancy check is the remainder of a polynomial division over the
field with two elements. The message is read as a polynomial, multiplied by
`X ^ w` and divided by a generator of degree `w`; the remainder is the check.

`serial` is the division as a shift register does it, one bit of the message at
a time, in the *reflected* form: the register holds its coefficients backwards,
the one of `X ^ (w - 1)` in bit 0, so that dividing shifts to the right, and the
generator is given without its leading term and backwards as well. `toPoly_serial`
says that the register ends with the remainder.

Software takes several bits at a time. A step of the register is linear in
exclusive or (`shift_xor`), and what stands above the bits that are shifted out
is only moved (`shift_iterate_of_low`); so `n` steps from `c` with the bits of
`x` are a shift of `c` by `n` and one row of a table of `2 ^ n` entries
(`foldl_bitStep_bits`).

Nothing here depends on a width or on a generator.
-/

namespace Crc

open Polynomial

variable {w : ℕ}

/-! ## The register -/

/-- A word, if a bit is set. -/
def gate (bit : Bool) (x : BitVec w) : BitVec w := if bit then x else 0

/-- One step of the register, without a bit of the message. -/
def shift (generator c : BitVec w) : BitVec w :=
  (c >>> 1) ^^^ gate (c.getLsbD 0) generator

/-- **One step of the register** with a bit of the message. -/
def bitStep (generator c : BitVec w) (bit : Bool) : BitVec w :=
  (c >>> 1) ^^^ gate (c.getLsbD 0 ^^ bit) generator

/-- **The check of a message**, bit by bit. -/
def serial (generator : BitVec w) (message : List Bool) : BitVec w :=
  message.foldl (bitStep generator) 0

/-- The bits of a word, from the least significant one on. -/
def bits {n : ℕ} (x : BitVec n) : List Bool := (List.range n).map x.getLsbD

theorem gate_xor (a b : Bool) (x : BitVec w) : gate (a ^^ b) x = gate a x ^^^ gate b x := by
  cases a <;> cases b <;> simp [gate]

theorem getLsbD_gate (bit : Bool) (x : BitVec w) (i : ℕ) :
    (gate bit x).getLsbD i = (bit && x.getLsbD i) := by
  cases bit <;> simp [gate]

/-! ## Several bits at a time -/

section Table

variable (generator : BitVec w)

/-- A step is linear. -/
theorem shift_xor (a b : BitVec w) :
    shift generator (a ^^^ b) = shift generator a ^^^ shift generator b := by
  unfold shift
  rw [BitVec.getLsbD_xor, gate_xor, BitVec.ushiftRight_xor_distrib]
  ac_rfl

theorem shift_iterate_xor (n : ℕ) (a b : BitVec w) : (shift generator)^[n] (a ^^^ b)
      = (shift generator)^[n] a ^^^ (shift generator)^[n] b := by
  induction n with
  | zero => rfl
  | succ n ih =>
    rw [Function.iterate_succ_apply', ih, shift_xor, Function.iterate_succ_apply',
      Function.iterate_succ_apply']

/-- A word whose low bits are clear is only moved. -/
theorem shift_iterate_of_low {n : ℕ} {y : BitVec w} (h : ∀ i < n, y.getLsbD i = false) :
    (shift generator)^[n] y = y >>> n := by
  induction n with
  | zero => exact (BitVec.ushiftRight_zero y).symm
  | succ n ih =>
    have hlow : (y >>> n).getLsbD 0 = false := by
      rw [BitVec.getLsbD_ushiftRight]
      exact h n (Nat.lt_succ_self n)
    rw [Function.iterate_succ_apply', ih fun i hi => h i (Nat.lt_succ_of_lt hi), shift, hlow,
      BitVec.shiftRight_add]
    exact BitVec.xor_zero

/-- **Steps of the register**: its upper part is moved, and the steps of its lower
part are added. -/
theorem shift_iterate_eq (n : ℕ) (y : BitVec w) : (shift generator)^[n] y
      = (y >>> n) ^^^ (shift generator)^[n] ((y.setWidth n).setWidth w) := by
  have hlow : (y.setWidth n).setWidth w >>> n = 0#w := by
    ext i hi
    simp
  have hclear : ∀ i < n, (y ^^^ (y.setWidth n).setWidth w).getLsbD i = false := by
    intro i hi
    rw [BitVec.getLsbD_xor, BitVec.getLsbD_setWidth, BitVec.getLsbD_setWidth]
    by_cases hw : i < w
    · simp [hi, hw]
    · simp [hw, BitVec.getLsbD_of_ge y i (Nat.le_of_not_lt hw)]
  calc (shift generator)^[n] y = (shift generator)^[n] ((y ^^^ (y.setWidth n).setWidth w)
          ^^^ (y.setWidth n).setWidth w) := by
        rw [BitVec.xor_assoc, BitVec.xor_self, BitVec.xor_zero]
    _ = (y >>> n) ^^^ (shift generator)^[n] ((y.setWidth n).setWidth w) := by
        rw [shift_iterate_xor, shift_iterate_of_low generator hclear,
          BitVec.ushiftRight_xor_distrib, hlow, BitVec.xor_zero]

/-- A bit of the message can be added to the register before the step. -/
theorem bitStep_eq (hw : 0 < w) (c : BitVec w) (bit : Bool) :
    bitStep generator c bit = shift generator (c ^^^ gate bit 1#w) := by
  have hone : (gate bit 1#w) >>> 1 = 0#w := by
    cases bit <;> ext i hi <;> simp [gate]
  rw [shift, BitVec.ushiftRight_xor_distrib, hone, BitVec.xor_zero, BitVec.getLsbD_xor,
    getLsbD_gate]
  simp [bitStep, hw]

/-- The bit of a message that comes after `n` others stands in place `n`. -/
theorem shift_iterate_gate {n : ℕ} (hn : n < w) (bit : Bool) :
    (shift generator)^[n] (gate bit (BitVec.twoPow w n)) = gate bit 1#w := by
  rw [shift_iterate_of_low]
  · apply BitVec.eq_of_getLsbD_eq
    intro i hi
    rw [BitVec.getLsbD_ushiftRight, getLsbD_gate, getLsbD_gate, BitVec.getLsbD_twoPow,
      BitVec.getLsbD_one]
    congr 1
    by_cases h : i = 0
    · simp [h, hn, Nat.zero_lt_of_lt hn]
    · simp [h]
  · intro i hi
    rw [getLsbD_gate, BitVec.getLsbD_twoPow]
    simp [hi.ne']

/-- **Several bits of the message** can be added to the register before the
steps. -/
theorem foldl_bitStep_bits {n : ℕ} (hn : n ≤ w) (x : BitVec n) (c : BitVec w) :
    (bits x).foldl (bitStep generator) c = (shift generator)^[n] (c ^^^ x.setWidth w) := by
  induction n with
  | zero =>
    have hx : x.setWidth w = 0#w := by
      ext i hi
      simp
    rw [hx, BitVec.xor_zero]
    rfl
  | succ n ih =>
    -- the last bit is the most significant one
    have hbits : bits x = bits (x.setWidth n) ++ [x.getLsbD n] := by
      rw [bits, List.range_succ, List.map_append, bits]
      congr 1
      refine List.map_congr_left fun i hi => ?_
      rw [BitVec.getLsbD_setWidth, decide_eq_true (List.mem_range.mp hi), Bool.true_and]
    have hword : x.setWidth w
        = (x.setWidth n).setWidth w ^^^ gate (x.getLsbD n) (BitVec.twoPow w n) := by
      apply BitVec.eq_of_getLsbD_eq
      intro i hi
      rw [BitVec.getLsbD_xor, getLsbD_gate, BitVec.getLsbD_twoPow, BitVec.getLsbD_setWidth,
        BitVec.getLsbD_setWidth, BitVec.getLsbD_setWidth]
      obtain hlt | rfl | hgt := lt_trichotomy i n
      · simp [hi, hlt, hlt.ne']
      · simp [hi]
      · simp [hgt.ne, Nat.not_lt_of_gt hgt, BitVec.getLsbD_of_ge x i hgt]
    rw [hbits, List.foldl_append, ih (Nat.le_of_succ_le hn), List.foldl_cons, List.foldl_nil,
      bitStep_eq generator (Nat.zero_lt_of_lt hn), ← shift_iterate_gate generator hn,
      ← shift_iterate_xor, BitVec.xor_assoc, ← hword, Function.iterate_succ_apply']

/-- **A row of the table for each group of bits**: feeding the bits of a word is a
shift of the register and one look-up. -/
theorem foldl_bitStep_table {n : ℕ} (hn : n ≤ w) (x : BitVec n) (c : BitVec w) :
    (bits x).foldl (bitStep generator) c
      = (c >>> n) ^^^ (shift generator)^[n] ((c.setWidth n ^^^ x).setWidth w) := by
  have hx : x.setWidth w >>> n = 0#w := by
    ext i hi
    simp
  have hback : (x.setWidth w).setWidth n = x := by
    rw [BitVec.setWidth_setWidth_of_le _ hn, BitVec.setWidth_eq]
  rw [foldl_bitStep_bits generator hn, shift_iterate_eq, BitVec.ushiftRight_xor_distrib, hx,
    BitVec.xor_zero, BitVec.setWidth_xor, hback]

end Table

/-! ## Polynomials -/

/-- **The polynomial in a register**, whose coefficients stand backwards. -/
noncomputable def toPoly (c : BitVec w) : (ZMod 2)[X] :=
  ∑ i ∈ Finset.range w, if c.getLsbD i then X ^ (w - 1 - i) else 0

/-- The polynomial of a message: its first bit is the leading coefficient. -/
noncomputable def message : List Bool → (ZMod 2)[X]
  | [] => 0
  | bit :: rest => (if bit then X ^ rest.length else 0) + message rest

/-- The polynomial of a generator, with its leading term. -/
noncomputable def modulus (generator : BitVec w) : (ZMod 2)[X] := X ^ w + toPoly generator

section Polynomials

variable (generator : BitVec w)

theorem toPoly_zero : toPoly 0#w = 0 := by
  simp [toPoly]

theorem ite_xor (a b : Bool) (p : (ZMod 2)[X]) :
    (if a ^^ b then p else 0) = (if a then p else 0) + if b then p else 0 := by
  cases a <;> cases b <;> simp [CharTwo.add_self_eq_zero]

theorem toPoly_xor (a b : BitVec w) : toPoly (a ^^^ b) = toPoly a + toPoly b := by
  unfold toPoly
  rw [← Finset.sum_add_distrib]
  refine Finset.sum_congr rfl fun i _ => ?_
  rw [BitVec.getLsbD_xor, ite_xor]

theorem toPoly_gate (bit : Bool) (x : BitVec w) :
    toPoly (gate bit x) = if bit then toPoly x else 0 := by
  cases bit with
  | true => rfl
  | false => exact toPoly_zero

/-- Moving the register to the right multiplies by `X`, up to the bit that is
shifted out. -/
theorem X_mul_toPoly (c : BitVec w) :
    X * toPoly c = (if c.getLsbD 0 then X ^ w else 0) + toPoly (c >>> 1) := by
  cases w with
  | zero => simp [toPoly]
  | succ w =>
    have htop : (c >>> 1).getLsbD w = false := by
      rw [BitVec.getLsbD_ushiftRight]
      exact BitVec.getLsbD_of_ge c _ (Nat.le_of_eq (Nat.add_comm w 1))
    unfold toPoly
    rw [Finset.mul_sum, Finset.sum_range_succ', Finset.sum_range_succ, htop, add_comm]
    congr 1
    · rw [mul_ite, mul_zero, ← pow_succ']
      rfl
    · rw [if_neg Bool.false_ne_true, add_zero]
      refine Finset.sum_congr rfl fun i hi => ?_
      have hexp : w + 1 - 1 - i = w + 1 - 1 - (i + 1) + 1 := by
        have := Finset.mem_range.mp hi
        omega
      rw [BitVec.getLsbD_ushiftRight, Nat.add_comm 1 i, mul_ite, mul_zero, ← pow_succ', ← hexp]

theorem degree_toPoly_lt (c : BitVec w) : (toPoly c).degree < w := by
  refine (degree_sum_le _ _).trans_lt ?_
  refine (Finset.sup_lt_iff (WithBot.bot_lt_coe w)).mpr fun i hi => ?_
  split
  · rw [degree_X_pow]
    have := Finset.mem_range.mp hi
    exact Nat.cast_lt.mpr (by omega)
  · exact degree_zero.trans_lt (WithBot.bot_lt_coe w)

theorem monic_modulus : (modulus generator).Monic :=
  monic_X_pow_add (degree_toPoly_lt generator)

/-- Another bit makes the message longer at its end. -/
theorem message_concat (bs : List Bool) (bit : Bool) :
    message (bs ++ [bit]) = X * message bs + if bit then 1 else 0 := by
  induction bs with
  | nil => simp [message]
  | cons b bs ih =>
    rw [List.cons_append, message, message, ih, List.length_append, List.length_singleton,
      mul_add, mul_ite, mul_zero, pow_succ', add_assoc]

/-- **A step of the division.** -/
theorem toPoly_bitStep (c : BitVec w) (bit : Bool) : toPoly (bitStep generator c bit)
        + modulus generator * (if c.getLsbD 0 ^^ bit then 1 else 0)
      = X * toPoly c + if bit then X ^ w else 0 := by
  have hgate : modulus generator * (if c.getLsbD 0 ^^ bit then 1 else 0)
      = (if c.getLsbD 0 then X ^ w else 0) + (if bit then X ^ w else 0)
        + toPoly (gate (c.getLsbD 0 ^^ bit) generator) := by
    rw [← ite_xor, toPoly_gate, modulus]
    split <;> simp
  rw [bitStep, toPoly_xor, hgate, X_mul_toPoly]
  generalize toPoly (gate (c.getLsbD 0 ^^ bit) generator) = g
  rw [show ∀ s l b : (ZMod 2)[X], s + g + (l + b + g) = l + s + b + (g + g) from
      fun s l b => by ring, CharTwo.add_self_eq_zero, add_zero]

/-- The register and the message differ by a multiple of the modulus. -/
theorem exists_toPoly_serial (bs : List Bool) :
    ∃ q, toPoly (serial generator bs) + modulus generator * q = message bs * X ^ w := by
  induction bs using List.reverseRecOn with
  | nil => exact ⟨0, by simp [serial, message, toPoly_zero]⟩
  | append_singleton bs bit ih =>
    obtain ⟨q, hq⟩ := ih
    have hstep := toPoly_bitStep generator (serial generator bs) bit
    refine ⟨X * q + if (serial generator bs).getLsbD 0 ^^ bit then 1 else 0, ?_⟩
    have hserial : serial generator (bs ++ [bit])
        = bitStep generator (serial generator bs) bit := by
      rw [serial, List.foldl_append]
      rfl
    calc toPoly (serial generator (bs ++ [bit])) + modulus generator
            * (X * q + if (serial generator bs).getLsbD 0 ^^ bit then 1 else 0)
        = X * (toPoly (serial generator bs) + modulus generator * q)
            + if bit then X ^ w else 0 := by
          rw [hserial, mul_add, add_left_comm, hstep]
          ring
      _ = message (bs ++ [bit]) * X ^ w := by
          rw [hq, message_concat, add_mul, ite_mul, one_mul, zero_mul, mul_assoc]

/-- **The register ends with the remainder** of the message, multiplied by
`X ^ w`, by the generator. -/
theorem toPoly_serial (bs : List Bool) :
    toPoly (serial generator bs) = (message bs * X ^ w) %ₘ modulus generator := by
  obtain ⟨q, hq⟩ := exists_toPoly_serial generator bs
  have hdegree : (modulus generator).degree = w := by
    rw [modulus, degree_add_eq_left_of_degree_lt, degree_X_pow]
    rw [degree_X_pow]
    exact degree_toPoly_lt generator
  refine (div_modByMonic_unique q _ (monic_modulus generator) ⟨hq, ?_⟩).2.symm
  rw [hdegree]
  exact degree_toPoly_lt _

end Polynomials

end Crc
