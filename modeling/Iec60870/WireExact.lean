import Iec60870.Wire

/-!
# What a reader accepts

`Wire.Reads` says what a reader makes of octets that a writer put there. A
reader also meets octets that no writer put there, and what it does with
these is said of the runs that it completes.

A reader of values of a fixed size accepts a string exactly if there are
enough octets in it, and takes just these: `Fixed d n`. What is known of a
value because it has been read, whatever the octets were, is `Yields d P`.
And a reader that loses nothing, so that the writer puts back the octets it
took, is `Restores d enc`. For each there is a rule for each way in which
readers are composed, so that the layout of a format gives its statement.

A codec reads only values that fit its format if it is `Closed`. Such a
value is read back from what is written for it, however it came to be.
-/

namespace Wire

variable {ε α β : Type} {d : Decoder ε α} {s t : Bytes} {P : α → Prop} {Q : β → Prop}
  {f : α → β} {enc : α → Bytes}

/-! ## Completed runs -/

/-- A sequence of two readers completes if the first one does and then the
second one. -/
theorem run_bind_eq_ok {k : α → Decoder ε β} {b : β} : (d >>= k).run s = .ok (b, t)
      ↔ ∃ a r, d.run s = .ok (a, r) ∧ (k a).run r = .ok (b, t) := by
  rw [StateT.run_bind]
  cases h : d.run s with
  | error e =>
    constructor
    · intro hok
      cases hok
    · rintro ⟨a, r, hok, -⟩
      cases hok
  | ok p =>
    obtain ⟨a, r⟩ := p
    constructor
    · exact fun hok => ⟨a, r, rfl, hok⟩
    · rintro ⟨a', r', hok, hk⟩
      cases hok
      exact hk

/-- Returning a value completes, with this value. -/
theorem run_pure_eq_ok {a b : α} : (pure a : Decoder ε α).run s = .ok (b, t) ↔ a = b ∧ s = t := by
  show Except.ok (a, s) = .ok (b, t) ↔ _
  rw [Except.ok.injEq, Prod.mk.injEq]

/-! ## Values that have been read -/

/-- **Every value that a reader returns has the property `P`.** -/
def Yields (d : Decoder ε α) (P : α → Prop) : Prop :=
  ∀ s a t, d.run s = .ok (a, t) → P a

theorem Yields.pure {a : α} (h : P a) : Yields (Pure.pure a : Decoder ε α) P := by
  intro s b t hrun
  obtain ⟨rfl, -⟩ := run_pure_eq_ok.mp hrun
  exact h

theorem Yields.bind {k : α → Decoder ε β}
    (hd : Yields d P) (hk : ∀ a, P a → Yields (k a) Q) : Yields (d >>= k) Q := by
  intro s b t hrun
  obtain ⟨a, r, ha, hb⟩ := run_bind_eq_ok.mp hrun
  exact hk a (hd s a r ha) r b t hb

theorem Yields.map (hd : Yields d P) (hf : ∀ a, P a → Q (f a)) :
    Yields (do let x ← d; return f x) Q :=
  hd.bind fun a ha => Yields.pure (hf a ha)

/-- Nothing is known of a value of which nothing is asked. -/
theorem Yields.trivial (d : Decoder ε α) : Yields d fun _ => True :=
  fun _ _ _ _ => True.intro

/-- **A counted loop** returns as many values as it counts, each with the
property of its index. -/
theorem Yields.counted {d : ℕ → Decoder ε α} {P : ℕ → α → Prop}
    (h : ∀ i, Yields (d i) (P i)) (i n : ℕ) :
    Yields (Wire.counted d i n) fun as =>
      as.length = n ∧ ∀ k (hk : k < as.length), P (i + k) as[k] := by
  induction n generalizing i with
  | zero =>
    exact Yields.pure ⟨rfl, fun k hk => absurd hk (Nat.not_lt_zero k)⟩
  | succ n ih =>
    refine (h i).bind fun a ha => (ih (i + 1)).map fun as has => ?_
    refine ⟨congrArg Nat.succ has.1, fun k hk => ?_⟩
    cases k with
    | zero => exact ha
    | succ k =>
      have hi : i + (k + 1) = i + 1 + k := by omega
      rw [hi]
      exact has.2 k (Nat.lt_of_succ_lt_succ hk)

/-! ## Readers that lose nothing -/

/-- **What a reader took off a string is what the writer puts back.** -/
def Restores (d : Decoder ε α) (enc : α → Bytes) : Prop :=
  ∀ s a t, d.run s = .ok (a, t) → enc a ++ t = s

theorem Restores.map
    {enc' : β → Bytes} (hd : Restores d enc) (hf : ∀ a, enc' (f a) = enc a) :
    Restores (do let x ← d; return f x) enc' := by
  intro s b t hrun
  obtain ⟨a, r, ha, hb⟩ := run_bind_eq_ok.mp hrun
  obtain ⟨rfl, rfl⟩ := run_pure_eq_ok.mp hb
  rw [hf]
  exact hd s a r ha

/-! ## Readers of a fixed size -/

/-- **A reader of `n` octets**: it accepts a string exactly if it has as many,
and takes just these. -/
structure Fixed (d : Decoder ε α) (n : ℕ) : Prop where
  enough : ∀ s : Bytes, n ≤ s.length → ∃ a, d.run s = .ok (a, s.drop n)
  short : ∀ s : Bytes, s.length < n → ∃ e, d.run s = .error e

namespace Fixed

variable {d : Decoder ε α} {n m : ℕ}

theorem accepts_iff (h : Fixed d n) (s : Bytes) : (∃ a t, d.run s = .ok (a, t)) ↔ n ≤ s.length := by
  constructor
  · rintro ⟨a, t, hok⟩
    by_contra hlt
    obtain ⟨e, herr⟩ := h.short s (not_le.mp hlt)
    rw [herr] at hok
    cases hok
  · intro hle
    obtain ⟨a, ha⟩ := h.enough s hle
    exact ⟨a, s.drop n, ha⟩

theorem rest_eq (h : Fixed d n) {s t : Bytes} {a : α} (hok : d.run s = .ok (a, t)) :
    t = s.drop n := by
  obtain ⟨b, hb⟩ := h.enough s ((h.accepts_iff s).mp ⟨a, t, hok⟩)
  rw [hok] at hb
  cases hb
  rfl

theorem pure (a : α) : Fixed (Pure.pure a : Decoder ε α) 0 where
  enough _ _ := ⟨a, rfl⟩
  short _ h := absurd h (Nat.not_lt_zero _)

theorem bind {k : α → Decoder ε β} (hd : Fixed d n) (hk : ∀ a, Fixed (k a) m) :
    Fixed (d >>= k) (n + m) where
  enough s h := by
    obtain ⟨a, ha⟩ := hd.enough s (Nat.le_of_add_right_le h)
    obtain ⟨b, hb⟩ := (hk a).enough (s.drop n) (by rw [List.length_drop]; omega)
    refine ⟨b, run_bind_eq_ok.mpr ⟨a, s.drop n, ha, ?_⟩⟩
    rw [hb, List.drop_drop]
  short s h := by
    rw [StateT.run_bind]
    by_cases hn : n ≤ s.length
    · obtain ⟨a, ha⟩ := hd.enough s hn
      obtain ⟨e, he⟩ := (hk a).short (s.drop n) (by rw [List.length_drop]; omega)
      rw [ha]
      exact ⟨e, he⟩
    · obtain ⟨e, he⟩ := hd.short s (not_le.mp hn)
      rw [he]
      exact ⟨e, rfl⟩

theorem map {f : α → β} (hd : Fixed d n) : Fixed (do let x ← d; return f x) n :=
  hd.bind fun a => Fixed.pure (f a)

/-- A counted loop of readers of one size. -/
theorem counted {d : ℕ → Decoder ε α} (h : ∀ i, Fixed (d i) m) (i n : ℕ) :
    Fixed (Wire.counted d i n) (n * m) := by
  induction n generalizing i with
  | zero =>
    rw [Nat.zero_mul]
    exact Fixed.pure []
  | succ n ih =>
    have hsize : (n + 1) * m = m + n * m := by rw [Nat.succ_mul, Nat.add_comm]
    rw [hsize]
    exact (h i).bind fun a => (ih (i + 1)).map

end Fixed

/-! ## The primitive readers -/

variable [Underrun ε] {n : ℕ} {k : Decoder ε α}

theorem Yields.ensure (hk : Yields k P) : Yields (do Wire.ensure n; k) P :=
  (Yields.trivial (Wire.ensure n)).bind fun _ _ => hk

/-- A check that passes leaves the string as it is. -/
theorem run_ensure_eq_ok {u : Unit}
    (h : (ensure n : Decoder ε Unit).run s = .ok (u, t)) : n ≤ s.length ∧ t = s := by
  change (if s.length < n then _ else _) = Except.ok (u, t) at h
  split at h
  · cases h
  · rename_i hn
    cases h
    exact ⟨not_lt.mp hn, rfl⟩

theorem Restores.ensure (hk : Restores k enc) : Restores (do Wire.ensure n; k) enc := by
  intro s a t hrun
  obtain ⟨u, r, hu, ha⟩ := run_bind_eq_ok.mp hrun
  obtain ⟨-, rfl⟩ := run_ensure_eq_ok hu
  exact hk r a t ha

/-- A check that is no stricter than the reader behind it. -/
theorem Fixed.ensure {n m : ℕ} (hm : m ≤ n) (hk : Fixed k n) : Fixed (do Wire.ensure m; k) n where
  enough s h := by
    rw [run_ensure (hm.trans h)]
    exact hk.enough s h
  short s h := by
    by_cases hs : m ≤ s.length
    · rw [run_ensure hs]
      exact hk.short s h
    · refine ⟨Underrun.incomplete m s.length, ?_⟩
      rw [StateT.run_bind]
      show (Wire.ensure m s >>= _) = _
      rw [Wire.ensure, if_pos (not_le.mp hs)]
      rfl

theorem fixed_getU8 : Fixed (getU8 : Decoder ε UInt8) 1 where
  enough s h := by
    cases s with
    | nil => exact absurd h (Nat.not_succ_le_zero 0)
    | cons b s => exact ⟨b, rfl⟩
  short s h := by
    cases s with
    | nil => exact ⟨_, rfl⟩
    | cons b s => exact absurd h (by simp)

theorem fixed_take (n : ℕ) : Fixed (take n : Decoder ε Bytes) n := by
  have hdrop : ∀ s : Bytes, n ≤ s.length →
      (take n : Decoder ε Bytes).run s = .ok (s.take n, s.drop n) := by
    intro s h
    unfold take
    rw [run_ensure h]
    rfl
  refine ⟨fun s h => ⟨s.take n, hdrop s h⟩, fun s h => ?_⟩
  refine ⟨Underrun.incomplete n s.length, ?_⟩
  unfold take
  rw [StateT.run_bind]
  show (Wire.ensure n s >>= _) = _
  rw [Wire.ensure, if_pos h]
  rfl

theorem fixed_getU16Le : Fixed (getU16Le : Decoder ε UInt16) 2 :=
  (fixed_take 2).map.map

theorem fixed_getU32Le : Fixed (getU32Le : Decoder ε UInt32) 4 :=
  (fixed_take 4).map.map

theorem fixed_getU24 : Fixed (getU24 : Decoder ε UInt32) 3 :=
  fixed_getU8.bind fun _ => fixed_getU8.bind fun _ => fixed_getU8.map

/-- The number that octets stand for is below the power of their count. -/
theorem ofLe_lt (bs : Bytes) : ofLe bs < 256 ^ bs.length := by
  induction bs with
  | nil => exact Nat.one_pos
  | cons b bs ih =>
    have hb := b.toNat_lt
    rw [ofLe, List.length_cons, Nat.pow_succ]
    omega

theorem ofLe_take_lt (n : ℕ) (s : Bytes) : ofLe (s.take n) < 256 ^ n :=
  (ofLe_lt (s.take n)).trans_le (Nat.pow_le_pow_right (by decide) (List.length_take_le n s))

theorem restores_getU8 : Restores (getU8 : Decoder ε UInt8) fun b => [b] := by
  intro s a t hrun
  cases s with
  | nil => cases hrun
  | cons b s =>
    cases hrun
    rfl

theorem restores_take (n : ℕ) : Restores (take n : Decoder ε Bytes) id := by
  refine Restores.ensure fun s a t hrun => ?_
  cases hrun
  exact List.take_append_drop n s

/-- Octets read as a number are those of the number. -/
theorem restores_getU16Le : Restores (getU16Le : Decoder ε UInt16) putU16Le := by
  intro s x t hrun
  obtain ⟨n, r, hn, hx⟩ := run_bind_eq_ok.mp hrun
  obtain ⟨rfl, rfl⟩ := run_pure_eq_ok.mp hx
  obtain ⟨bs, r, hbs, hn⟩ := run_bind_eq_ok.mp hn
  obtain ⟨rfl, rfl⟩ := run_pure_eq_ok.mp hn
  have hs : bs ++ r = s := restores_take 2 s bs r hbs
  have hlen : bs.length = 2 := by
    have hrest := (fixed_take 2).rest_eq hbs
    have hle := ((fixed_take 2).accepts_iff s).mp ⟨bs, r, hbs⟩
    have hadd := congrArg List.length hs
    rw [List.length_append, hrest, List.length_drop] at hadd
    omega
  have hputs : putU16Le (UInt16.ofNat (ofLe bs)) = bs := by
    rw [putU16Le, UInt16.toNat_ofNat']
    show putLe 2 (ofLe bs % 256 ^ 2) = bs
    rw [putLe_mod, ← hlen, putLe_ofLe]
  rw [hputs, hs]

/-- Three octets make a number below `2 ^ 24`. -/
theorem yields_getU24 : Yields (getU24 : Decoder ε UInt32) fun x => x.toNat < 2 ^ 24 := by
  refine (Yields.trivial getU8).bind fun b₀ _ => ?_
  refine (Yields.trivial getU8).bind fun b₁ _ => ?_
  refine (Yields.trivial getU8).map fun b₂ _ => ?_
  rw [toNat_u24, ofLe, ofLe, ofLe, ofLe]
  have h₀ := b₀.toNat_lt
  have h₁ := b₁.toNat_lt
  have h₂ := b₂.toNat_lt
  omega

/-! ## Closed codecs -/

namespace Codec

/-- **A codec reads only values that fit its format.** -/
def Closed (c : Codec ε α) : Prop := Yields c.decode c.Fits

variable {c : Codec ε α} {put : β → α} {parse : α → β} {Fits : β → Prop}
  {h : ∀ b, Fits b → c.Fits (put b) ∧ parse (put b) = b} {d : Codec ε β} {n : ℕ}

/-- What a closed codec has read is read back from what it writes for it. -/
theorem Closed.reads (hc : c.Closed) {s t : Bytes} {a : α}
    (hrun : c.decode.run s = .ok (a, t)) : Reads c.decode (c.encode a) a :=
  c.reads a (hc s a t hrun)

theorem closed_u8 : (u8 : Codec ε UInt8).Closed := Yields.trivial _

theorem closed_u16 : (u16 : Codec ε UInt16).Closed := Yields.trivial _

theorem closed_u32 : (u32 : Codec ε UInt32).Closed := Yields.trivial _

theorem closed_u24 : (u24 : Codec ε UInt32).Closed := Yields.ensure yields_getU24

theorem Closed.via (hc : c.Closed)
    (hparse : ∀ a, c.Fits a → Fits (parse a)) : (c.via put parse Fits h).Closed :=
  Yields.map hc hparse

@[simp] theorem Closed.pair (hc : c.Closed) (hd : d.Closed) : (c.pair d).Closed :=
  Yields.bind hc fun _ ha => Yields.map hd fun _ hb => ⟨ha, hb⟩

/-- The codecs of one octet. -/
theorem closed_u8_via {put : β → UInt8} {parse : UInt8 → β}
    {h : ∀ b, Fits b → (u8 : Codec ε UInt8).Fits (put b) ∧ parse (put b) = b}
    (hparse : ∀ x, Fits (parse x)) : ((u8 : Codec ε UInt8).via put parse Fits h).Closed :=
  closed_u8.via fun x _ => hparse x

/-- **A codec of values of `n` octets.** -/
def Sized (c : Codec ε α) (n : ℕ) : Prop := Fixed c.decode n

theorem sized_u8 : (u8 : Codec ε UInt8).Sized 1 := Fixed.ensure le_rfl fixed_getU8

theorem sized_u16 : (u16 : Codec ε UInt16).Sized 2 := Fixed.ensure le_rfl fixed_getU16Le

theorem sized_u24 : (u24 : Codec ε UInt32).Sized 3 := Fixed.ensure le_rfl fixed_getU24

theorem sized_u32 : (u32 : Codec ε UInt32).Sized 4 := Fixed.ensure le_rfl fixed_getU32Le

theorem Sized.via (hc : c.Sized n) : (c.via put parse Fits h).Sized n :=
  Fixed.map hc

@[simp] theorem Sized.pair {n m : ℕ} (hc : c.Sized n) (hd : d.Sized m) : (c.pair d).Sized (n + m) :=
  Fixed.bind hc fun _ => Fixed.map hd

end Codec

end Wire
