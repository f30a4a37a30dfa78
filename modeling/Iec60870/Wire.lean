import Mathlib.Data.FinEnum
import Mathlib.Data.List.Basic

/-!
# Octet strings, their readers and codecs

A binary format is read from the front of an octet string: a *reader*
consumes the octets of one value and leaves the rest, or fails because
there are too few of them. `Decoder ε` is that as a monad, failing with an
error of the type `ε`, so a format's reader is written as the sequence of
the reads it performs.

What a format's reader is expected to do with what its writer produced is
`Reads d bs a`: the reader `d` takes exactly the octets `bs` off the front
of *any* string that starts with them, and returns `a`. The rules of the
monad – `Reads.pure`, `Reads.bind`, `Reads.ensure`, `Reads.counted` –
derive it for a composed reader from its parts. `Codec` bundles a writer
and a reader with the values that fit the format and the proof that those
are read back; `Codec.via` and `Codec.pair` build one from others.

A reader may also be handed a buffer that keeps track of what has been read
by itself. `Buf` is the contract of such a buffer.
-/

/-- A string of octets, the `Vec<u8>` of the source. -/
abbrev Bytes := List UInt8

namespace Wire

/-- A reader of values of the type `α` off the front of an octet string. -/
abbrev Decoder (ε α : Type) := StateT Bytes (Except ε) α

variable {ε α β : Type} {d : Decoder ε α} {bs : Bytes} {a : α} {n : ℕ}

/-! ## What a reader takes off a string -/

/-- Read one value for each of the `n` indices from `i` on, in order. -/
def counted (d : ℕ → Decoder ε α) : ℕ → ℕ → Decoder ε (List α)
  | _, 0 => return []
  | i, n + 1 => do
    let a ← d i
    let as ← counted d (i + 1) n
    return a :: as

/-- **A reader takes exactly `bs` off the front of every string that starts
with it, and returns `a`.** -/
def Reads (d : Decoder ε α) (bs : Bytes) (a : α) : Prop :=
  ∀ s, d.run (bs ++ s) = .ok (a, s)

/-- A reader that takes `bs` off a string hands the rest to what comes
after it. -/
theorem Reads.run_bind (h : Reads d bs a) (k : α → Decoder ε β) (s : Bytes) :
    (d >>= k).run (bs ++ s) = (k a).run s := by
  rw [StateT.run_bind, h s]
  rfl

/-- A reader that returns without reading takes nothing. -/
theorem Reads.pure (a : α) : Reads (pure a : Decoder ε α) [] a := fun _ => rfl

/-- Two readers in sequence take what the first takes, then what the second
takes. -/
theorem Reads.bind {k : α → Decoder ε β} {bs cs : Bytes}
    {b : β} (h : Reads d bs a) (hk : Reads (k a) cs b) :
    Reads (d >>= k) (bs ++ cs) b := by
  intro s
  rw [List.append_assoc, h.run_bind, hk s]

/-- A reader whose result is only rearranged takes what it took. -/
theorem Reads.map (h : Reads d bs a) (f : α → β) : Reads (do let x ← d; return f x) bs (f a) := by
  have hm : Reads (do let x ← d; return f x) (bs ++ []) (f a) :=
    h.bind (Reads.pure (f a))
  rwa [List.append_nil] at hm

/-- **A counted loop reads a list back** if each of its turns reads the
element of its index. -/
theorem Reads.counted {d : ℕ → Decoder ε α} (enc : α → Bytes) : ∀ {as : List α} {i : ℕ},
      (∀ k (h : k < as.length), Reads (d (i + k)) (enc as[k]) as[k]) →
      Reads (Wire.counted d i as.length) (as.flatMap enc) as
  | [], _, _ => Reads.pure []
  | a :: as, i, h => by
    have ha : Reads (d i) (enc a) a := h 0 (Nat.succ_pos _)
    have has : Reads (Wire.counted d (i + 1) as.length) (as.flatMap enc) as := by
      refine Reads.counted enc fun k hk => ?_
      have hi : i + 1 + k = i + (k + 1) := by omega
      rw [hi]
      exact h (k + 1) (Nat.succ_lt_succ hk)
    exact ha.bind (has.map (a :: ·))

/-! ## Primitive readers -/

/-- The errors a reader can fail with when octets are missing. -/
class Underrun (ε : Type) where
  /-- So many octets were needed and only so many were there. -/
  incomplete (needed available : ℕ) : ε

variable [Underrun ε]

/-- Fail unless `n` octets are left; consume none. -/
def ensure (n : ℕ) : Decoder ε Unit := fun s =>
  if s.length < n then .error (Underrun.incomplete n s.length) else .ok ((), s)

/-- Read one octet. -/
def getU8 : Decoder ε UInt8
  | [] => .error (Underrun.incomplete 1 0)
  | b :: s => .ok (b, s)

/-- Read `n` octets. -/
def take (n : ℕ) : Decoder ε Bytes := do
  ensure n
  fun s => .ok (s.take n, s.drop n)

/-- Read everything that is left. -/
def remaining : Decoder ε Bytes := fun s => .ok (s, [])

/-- A check for octets that are there changes nothing. -/
theorem run_ensure {s : Bytes} (h : n ≤ s.length) (k : Decoder ε α) :
    (do ensure n; k).run s = k.run s := by
  rw [StateT.run_bind]
  show (ensure n s >>= _) = _
  rw [ensure, if_neg (Nat.not_lt.2 h)]
  rfl

/-- A check that enough octets are left passes if the reader that follows
takes that many. -/
theorem Reads.ensure {k : Decoder ε α} (hn : n ≤ bs.length) (h : Reads k bs a) :
    Reads (do Wire.ensure n; k) bs a := by
  intro s
  have hs : n ≤ (bs ++ s).length := by
    rw [List.length_append]
    exact Nat.le_add_right_of_le hn
  rw [run_ensure hs, h s]

/-- Reading one octet takes that octet. -/
theorem reads_getU8 (b : UInt8) : Reads (getU8 : Decoder ε UInt8) [b] b :=
  fun _ => rfl

/-- Reading as many octets as a string has takes the string. -/
theorem reads_take (bs : Bytes) : Reads (take bs.length : Decoder ε Bytes) bs bs :=
  Reads.ensure (Nat.le_refl _) fun s => by
    show Except.ok (_, _) = _
    rw [List.take_left, List.drop_left]

/-! ## Little-endian numbers -/

/-- The `n` octets of a number, least significant first. -/
def putLe : ℕ → ℕ → Bytes
  | 0, _ => []
  | n + 1, v => UInt8.ofNat v :: putLe n (v / 256)

/-- The number a string of octets stands for, least significant first. -/
def ofLe : Bytes → ℕ
  | [] => 0
  | b :: bs => b.toNat + 256 * ofLe bs

/-- Read an `n`-octet number, least significant octet first. -/
def getLe (n : ℕ) : Decoder ε ℕ := do
  let bs ← take n
  return ofLe bs

@[simp] theorem length_putLe (n v : ℕ) : (putLe n v).length = n := by
  induction n generalizing v with
  | zero => rfl
  | succ n ih => rw [putLe, List.length_cons, ih]

/-- The octets of a number stand for its residue. -/
theorem ofLe_putLe (n v : ℕ) : ofLe (putLe n v) = v % 256 ^ n := by
  induction n generalizing v with
  | zero => rw [putLe, ofLe, Nat.pow_zero, Nat.mod_one]
  | succ n ih =>
    have hp : 256 ^ (n + 1) = 256 * 256 ^ n := Nat.pow_succ'
    rw [putLe, ofLe, ih, UInt8.toNat_ofNat', hp, Nat.mod_mul]

/-- Octets are those of the number they stand for. -/
theorem putLe_ofLe (bs : Bytes) : putLe bs.length (ofLe bs) = bs := by
  induction bs with
  | nil => rfl
  | cons b bs ih =>
    have hb : b.toNat < 2 ^ 8 := b.toNat_lt
    have hhead : UInt8.ofNat (b.toNat + 256 * ofLe bs) = b := by
      refine UInt8.toNat.inj ?_
      rw [UInt8.toNat_ofNat']
      omega
    have htail : (b.toNat + 256 * ofLe bs) / 256 = ofLe bs := by omega
    rw [List.length_cons, ofLe, putLe, hhead, htail, ih]

/-- The octets of a number are those of its residue. -/
theorem putLe_mod (n v : ℕ) : putLe n (v % 256 ^ n) = putLe n v := by
  induction n generalizing v with
  | zero => rfl
  | succ n ih =>
    have hp : 256 ^ (n + 1) = 256 * 256 ^ n := Nat.pow_succ'
    have hhead : UInt8.ofNat (v % (256 * 256 ^ n)) = UInt8.ofNat v := by
      refine UInt8.toNat.inj ?_
      rw [UInt8.toNat_ofNat', UInt8.toNat_ofNat']
      exact Nat.mod_mul_right_mod v 256 (256 ^ n)
    rw [hp, putLe, putLe, hhead, Nat.mod_mul_right_div_self, ih]

/-- A number that fits its octets is read back. -/
theorem reads_getLe {n v : ℕ} (h : v < 256 ^ n) : Reads (getLe n : Decoder ε ℕ) (putLe n v) v := by
  have ht := (reads_take (ε := ε) (putLe n v)).map ofLe
  rwa [length_putLe, ofLe_putLe, Nat.mod_eq_of_lt h] at ht

/-- The two octets of a `u16`. -/
def putU16Le (x : UInt16) : Bytes := putLe 2 x.toNat

/-- Read a `u16`. -/
def getU16Le : Decoder ε UInt16 := do
  let n ← getLe 2
  return UInt16.ofNat n

/-- The four octets of a `u32`. -/
def putU32Le (x : UInt32) : Bytes := putLe 4 x.toNat

/-- Read a `u32`. -/
def getU32Le : Decoder ε UInt32 := do
  let n ← getLe 4
  return UInt32.ofNat n

/-- The low three octets of a `u32`, each shifted out by hand. -/
def putU24 (x : UInt32) : Bytes :=
  [x.toUInt8, (x >>> 8).toUInt8, (x >>> 16).toUInt8]

/-- Read three octets and put them together with shifts. -/
def getU24 : Decoder ε UInt32 := do
  let b₀ ← getU8
  let b₁ ← getU8
  let b₂ ← getU8
  return b₀.toUInt32 ||| (b₁.toUInt32 <<< 8) ||| (b₂.toUInt32 <<< 16)

/-- Every `u16` is read back. -/
theorem reads_getU16Le (x : UInt16) : Reads (getU16Le : Decoder ε UInt16) (putU16Le x) x := by
  have h := (reads_getLe (ε := ε) (n := 2) x.toNat_lt).map UInt16.ofNat
  rwa [UInt16.ofNat_toNat] at h

/-- Every `u32` is read back. -/
theorem reads_getU32Le (x : UInt32) : Reads (getU32Le : Decoder ε UInt32) (putU32Le x) x := by
  have h := (reads_getLe (ε := ε) (n := 4) x.toNat_lt).map UInt32.ofNat
  rwa [UInt32.ofNat_toNat] at h

/-- An octet shifted left by whole octets is multiplied. -/
theorem toNat_shiftLeft_octet (b : UInt8) {k : UInt32} (hk : k.toNat ≤ 16) :
    (b.toUInt32 <<< k).toNat = b.toNat <<< k.toNat := by
  have hb : b.toNat < 2 ^ 8 := b.toNat_lt
  have hlt : b.toNat <<< k.toNat < 2 ^ 32 := by
    calc b.toNat <<< k.toNat = b.toNat * 2 ^ k.toNat := Nat.shiftLeft_eq _ _
      _ ≤ b.toNat * 2 ^ 16 :=
        Nat.mul_le_mul_left _ (Nat.pow_le_pow_right (by decide) hk)
      _ < 2 ^ 32 := by omega
  rw [UInt32.toNat_shiftLeft, UInt8.toNat_toUInt32,
    Nat.mod_eq_of_lt (show k.toNat < 32 by omega), Nat.mod_eq_of_lt hlt]

/-- Three octets put together with shifts are the number they stand for. -/
theorem toNat_u24 (b₀ b₁ b₂ : UInt8) :
    (b₀.toUInt32 ||| (b₁.toUInt32 <<< 8) ||| (b₂.toUInt32 <<< 16)).toNat = ofLe [b₀, b₁, b₂] := by
  have h₀ : b₀.toNat < 2 ^ 8 := b₀.toNat_lt
  have h₁ : b₁.toNat <<< 8 + b₀.toNat < 2 ^ 16 := by
    have hb := b₁.toNat_lt
    rw [Nat.shiftLeft_eq]
    omega
  -- the shifted octets do not overlap, so joining them is adding them
  calc (b₀.toUInt32 ||| (b₁.toUInt32 <<< 8) ||| (b₂.toUInt32 <<< 16)).toNat
      = b₂.toNat <<< 16 ||| (b₁.toNat <<< 8 ||| b₀.toNat) := by
        rw [UInt32.toNat_or, UInt32.toNat_or, UInt8.toNat_toUInt32,
          toNat_shiftLeft_octet b₁ (by decide),
          toNat_shiftLeft_octet b₂ (by decide), Nat.or_comm b₀.toNat,
          Nat.or_comm]
        rfl
    _ = b₂.toNat <<< 16 + (b₁.toNat <<< 8 + b₀.toNat) := by
        rw [← Nat.shiftLeft_add_eq_or_of_lt h₀, ← Nat.shiftLeft_add_eq_or_of_lt h₁]
    _ = ofLe [b₀, b₁, b₂] := by
        rw [Nat.shiftLeft_eq, Nat.shiftLeft_eq, ofLe, ofLe, ofLe, ofLe]
        omega

/-- The octets shifted out by hand are the number's little-endian octets. -/
theorem putU24_eq (x : UInt32) : putU24 x = putLe 3 x.toNat := by
  have h : ∀ k : UInt32, k.toNat < 32 →
      (x >>> k).toUInt8 = UInt8.ofNat (x.toNat / 2 ^ k.toNat) := by
    intro k hk
    refine UInt8.toNat.inj ?_
    rw [UInt32.toNat_toUInt8, UInt32.toNat_shiftRight, UInt8.toNat_ofNat',
      Nat.mod_eq_of_lt hk, Nat.shiftRight_eq_div_pow]
  show [_, _, _] = [_, _, _]
  rw [h 8 (by decide), h 16 (by decide), Nat.div_div_eq_div_mul]
  rfl

/-- A number below `2 ^ 24` is read back from its three octets. -/
theorem reads_getU24 {x : UInt32} (h : x.toNat < 2 ^ 24) :
    Reads (getU24 : Decoder ε UInt32) (putU24 x) x := by
  have hx : x.toUInt8.toUInt32 ||| ((x >>> 8).toUInt8.toUInt32 <<< 8)
      ||| ((x >>> 16).toUInt8.toUInt32 <<< 16) = x := by
    refine UInt32.toNat.inj ?_
    rw [toNat_u24]
    show ofLe (putU24 x) = _
    rw [putU24_eq, ofLe_putLe]
    exact Nat.mod_eq_of_lt h
  have hr : Reads (getU24 : Decoder ε UInt32) (putU24 x)
      (x.toUInt8.toUInt32 ||| ((x >>> 8).toUInt8.toUInt32 <<< 8)
        ||| ((x >>> 16).toUInt8.toUInt32 <<< 16)) :=
    Reads.bind (reads_getU8 _) (Reads.bind (reads_getU8 _) (Reads.map (reads_getU8 _) _))
  rwa [hx] at hr

/-! ## Bits of an octet -/

/-- Set the bits of `mask` if the flag says so. -/
def setIf (b : UInt8) (flag : Bool) (mask : UInt8) : UInt8 :=
  if flag then b ||| mask else b

/-- Seven bits and a flag in the top bit. -/
def flagged (x : UInt8) (flag : Bool) : UInt8 := setIf (x &&& 0x7F) flag 0x80

/-- The flag of a flagged octet is in its top bit. -/
theorem flagged_top : ∀ (flag : Bool) (x : UInt8), (flagged x flag &&& 0x80 != 0) = flag := by
  decide +kernel

/-- The other bits of a flagged octet are the value, if it fits them. -/
theorem flagged_low : ∀ (flag : Bool) (x : UInt8), x ≤ 127 → flagged x flag &&& 0x7F = x := by
  decide +kernel

/-! ## Codecs -/

/-- **A codec**: a writer and a reader of one type, the values that fit the
format, and the proof that the reader takes exactly what the writer put
there and returns the value it was put for. -/
structure Codec (ε : Type) [Underrun ε] (α : Type) where
  /-- The octets of a value. -/
  encode : α → Bytes
  /-- The reader of a value. -/
  decode : Decoder ε α
  /-- The values the format has room for. -/
  Fits : α → Prop
  /-- A value that fits is read back. -/
  reads : ∀ a, Fits a → Reads decode (encode a) a

namespace Codec

/-- One octet: check that it is there and take it. -/
def u8 : Codec ε UInt8 where
  encode x := [x]
  decode := do
    ensure 1
    getU8
  Fits _ := True
  reads x _ := Reads.ensure (Nat.le_refl _) (reads_getU8 x)

/-- Two octets: check that they are there and take them. -/
def u16 : Codec ε UInt16 where
  encode := putU16Le
  decode := do
    ensure 2
    getU16Le
  Fits _ := True
  reads x _ := Reads.ensure (length_putLe _ _).ge (reads_getU16Le x)

/-- Three octets: check that they are there and take them. -/
def u24 : Codec ε UInt32 where
  encode := putU24
  decode := do
    ensure 3
    getU24
  Fits x := x.toNat < 2 ^ 24
  reads _ h := Reads.ensure (Nat.le_refl _) (reads_getU24 h)

/-- Four octets: check that they are there and take them. -/
def u32 : Codec ε UInt32 where
  encode := putU32Le
  decode := do
    ensure 4
    getU32Le
  Fits _ := True
  reads x _ := Reads.ensure (length_putLe _ _).ge (reads_getU32Le x)

/-- The codec of a type that is packed into another: `put` packs a value
for the codec `c`, and `parse` unpacks what `c` reads. -/
def via (c : Codec ε α) (put : β → α) (parse : α → β) (Fits : β → Prop)
    (h : ∀ b, Fits b → c.Fits (put b) ∧ parse (put b) = b) : Codec ε β where
  encode b := c.encode (put b)
  decode := do
    let x ← c.decode
    return parse x
  Fits := Fits
  reads b hb := by
    have hr := (c.reads (put b) (h b hb).1).map parse
    rwa [(h b hb).2] at hr

/-- The codec of a pair: the one value's octets, then the other's. -/
def pair (c : Codec ε α) (d : Codec ε β) : Codec ε (α × β) where
  encode p := c.encode p.1 ++ d.encode p.2
  decode := do
    let a ← c.decode
    let b ← d.decode
    return (a, b)
  Fits p := c.Fits p.1 ∧ d.Fits p.2
  reads p hp := (c.reads p.1 hp.1).bind ((d.reads p.2 hp.2).map (p.1, ·))

end Codec

/-! ## Buffers that are consumed -/

/-- **A buffer that is consumed as it is read**, wherever its octets are kept
(`bytes::Buf`). What the readers promise, they promise for a buffer that holds
enough. -/
class Buf (β : Type) where
  /-- The octets that have not been read. -/
  contents : β → Bytes
  /-- How many they are. -/
  remaining : β → ℕ
  /-- Read one octet. -/
  getU8 : β → UInt8 × β
  /-- Read `n` octets. -/
  copyToSlice : ℕ → β → Bytes × β
  remaining_eq (b : β) : remaining b = (contents b).length
  getU8_eq {b : β} {x : UInt8} {xs : Bytes} (h : contents b = x :: xs) :
    (getU8 b).1 = x ∧ contents (getU8 b).2 = xs
  copyToSlice_eq {b : β} {n : ℕ} (h : n ≤ (contents b).length) :
    (copyToSlice n b).1 = (contents b).take n ∧ contents (copyToSlice n b).2 = (contents b).drop n

/-- An octet string is consumed from its front. -/
instance : Buf Bytes where
  contents b := b
  remaining := List.length
  getU8 b := (b.headD 0, b.tail)
  copyToSlice n b := (b.take n, b.drop n)
  remaining_eq _ := rfl
  getU8_eq h := by rw [h]; exact ⟨rfl, rfl⟩
  copyToSlice_eq _ := ⟨rfl, rfl⟩

end Wire
