import Mathlib.Data.Int.Log
import Mathlib.Data.List.AList
import Mathlib.Data.List.Sort
import Mathlib.Data.Rat.Floor
import Iec60870.AsduEnvelope
import Iec60870.Deadband
import Iec60870.PointsClock

/-!
# The process image of the server daemon

The test server keeps its points in a map by information object address
(`points.rs`, with the types of `wire.rs`): each has a kind, which never changes, and
a value, a quality and a simulator schedule, which do. The kind says which
information object type the point is sent as, and so which variant its value has to
be of. Nothing in the types says that it is: `PointEntry.WellTyped` does, and
`PointEntry.new` starts there.

A point is read in two ways. `encodePoint` makes an ASDU of it, by its kind, and
`entryToMonitored` the sample that the deadband evaluator compares. Both have a
fallback for a value of the wrong variant, and so the encoding always succeeds
(`isSome_encodePoint`), but what the two say of such a point has nothing to do with
its value any more.

Numbers are floating point numbers of the arithmetic `PointArith`, which adds the
operations of the tools to those of the deadband evaluator; literals are given by
their bits.
-/

open Iec60870 Deadband FileTransfer

namespace Points

/-! ## Floating point arithmetic -/

/-- **The operations of the test tools on `f32` and `f64`**, beside those of the
deadband evaluator. -/
structure PointArith (F32 F64 : Type) extends FloatArith F32 F64 where
  ofBits32 : UInt32 → F32
  toBits32 : F32 → UInt32
  /-- An `i16` cast to `f32`. -/
  castI16 : Int16 → F32
  le32 : F32 → F32 → Bool
  lt32 : F32 → F32 → Bool
  add32 : F32 → F32 → F32
  mul32 : F32 → F32 → F32
  div32 : F32 → F32 → F32
  neg32 : F32 → F32
  round32 : F32 → F32
  /-- An `f32` cast to `i32`, which saturates. -/
  castF32 : F32 → Int32
  ofBits64 : UInt64 → F64
  /-- A `u64` cast to `f64`. -/
  castU64 : UInt64 → F64
  add : F64 → F64 → F64
  sin : F64 → F64
  /-- An `f64` cast to `f32`. -/
  castF64 : F64 → F32
  /-- An `f64` cast to `i16`, which saturates. -/
  castF64I16 : F64 → Int16
  /-- The literals `-1.0` and `1.0` are in this order. -/
  negOne_le_one : le32 (ofBits32 0xBF800000) (ofBits32 0x3F800000) = true

variable {F32 F64 : Type}

namespace PointArith

variable (fp : PointArith F32 F64)

/-- `0.0_f32` -/
def zero32 : F32 := fp.ofBits32 0x00000000

/-- `1.0_f32` -/
def one32 : F32 := fp.ofBits32 0x3F800000

/-- `-1.0_f32` -/
def negOne32 : F32 := fp.ofBits32 0xBF800000

/-- What `f32::clamp` returns if its bounds are in order. -/
def clamp32 (x min max : F32) : F32 :=
  let x := if fp.lt32 x min then min else x
  if fp.lt32 max x then max else x

end PointArith

/-- An `i32` clamped to the range of `i16` and cast to it. -/
def saturate16 (x : Int32) : Int16 := Int16.ofInt (max (-2 ^ 15) (min x.toInt (2 ^ 15 - 1)))

/-- The normalized value next to a number (`Nva::from_f32`). The bounds of the clamp
are `-1.0` and `1.0 - 2.0_f32.powi(-15)`, the factor is `32768.0`. -/
def nvaFromF32 (fp : PointArith F32 F64) (v : F32) : Nva :=
  let inRange := fp.clamp32 v fp.negOne32 (fp.ofBits32 0x3F7FFE00)
  ⟨saturate16 (fp.castF32 (fp.round32 (fp.mul32 inRange (fp.ofBits32 0x47000000))))⟩

/-- The number that a normalized value stands for (`Nva::as_f32`). -/
def nvaAsF32 (fp : PointArith F32 F64) (v : Nva) : F32 :=
  fp.div32 (fp.castI16 v.raw) (fp.ofBits32 0x47000000)

/-! ## Kinds and values -/

/-- The kinds of points (`PointKind`), one for each monitor type. -/
inductive PointKind where
  | spNa
  | dpNa
  | meNa
  | meNb
  | meNc
  | spTb
  | dpTb
  | meTd
  | meTe
  | meTf
deriving DecidableEq, Repr

/-- The type identification of a kind (`type_id`). -/
def PointKind.typeId : PointKind → UInt8
  | spNa => 1
  | dpNa => 3
  | meNa => 9
  | meNb => 11
  | meNc => 13
  | spTb => 30
  | dpTb => 31
  | meTd => 34
  | meTe => 35
  | meTf => 36

/-- The state of a double point in a request (`DoublePointWire`). -/
inductive DoublePointWire where
  | intermediate
  | off
  | on
  | indeterminate
deriving DecidableEq, Repr

/-- The double point that is sent for a state (`dp_from_wire`). -/
def dpFromWire : DoublePointWire → DoublePoint
  | .intermediate => .intermediate
  | .off => .off
  | .on => .on
  | .indeterminate => .indeterminate

/-- A value of a point (`PointValue`). -/
inductive PointValue (F32 : Type) where
  | single (on : Bool)
  | double (state : DoublePointWire)
  | normalized (x : F32)
  | scaled (v : Int16)
  | float (x : F32)
deriving DecidableEq, Repr

/-- The variant of a value. -/
def PointValue.kind : PointValue F32 → ValueKind
  | single _ => .single
  | double _ => .double
  | normalized _ => .normalized
  | scaled _ => .scaled
  | float _ => .float

/-- **The variant that a kind prescribes.** -/
def PointKind.valueKind : PointKind → ValueKind
  | spNa | spTb => .single
  | dpNa | dpTb => .double
  | meNa | meTd => .normalized
  | meNb | meTe => .scaled
  | meNc | meTf => .float

/-- Quality bits in a request (`QualityWire`); they are clear by default. -/
structure QualityWire where
  overflow : Bool := false
  blocked : Bool := false
  substituted : Bool := false
  notTopical : Bool := false
  invalid : Bool := false
deriving DecidableEq, Repr

/-- The quality of a point that has no overflow bit (`quality_from_wire`). -/
def qualityFromWire (q : QualityWire) : Quality :=
  { blocked := q.blocked
    substituted := q.substituted
    notTopical := q.notTopical
    invalid := q.invalid }

/-- The quality of a measured value (`qds_from_wire`). -/
def qdsFromWire (q : QualityWire) : Qds :=
  { overflow := q.overflow, quality := qualityFromWire q }

/-- The simulator schedule of a point (`SimSchedule`). -/
inductive SimSchedule (F32 : Type) where
  | none
  | toggle (intervalMs phaseMs : UInt64)
  | rotate (intervalMs : UInt64)
  | randomWalk (intervalMs : UInt64) (step min max : F32)
  | stepUp (intervalMs : UInt64) (step wrapAt : Int32)
  | sine (intervalMs periodMs : UInt64) (amplitude offset : F32)
deriving DecidableEq, Repr

/-- The schedule has no steps. -/
def SimSchedule.isNone : SimSchedule F32 → Bool
  | none => true
  | _ => false

/-! ## Entries and the image -/

/-- One point (`PointEntry`). -/
structure PointEntry (F32 : Type) where
  kind : PointKind
  value : PointValue F32
  quality : QualityWire
  schedule : SimSchedule F32
deriving DecidableEq, Repr

namespace PointEntry

/-- A point with the initial value of its kind (`PointEntry::new`). -/
def new (fp : PointArith F32 F64) (kind : PointKind) (schedule : SimSchedule F32) :
    PointEntry F32 :=
  let value := match kind with
    | .spNa | .spTb => .single false
    | .dpNa | .dpTb => .double .off
    | .meNa | .meTd => .normalized fp.zero32
    | .meNb | .meTe => .scaled 0
    | .meNc | .meTf => .float fp.zero32
  { kind, value, quality := {}, schedule }

/-- **The value is of the variant that the kind prescribes.** -/
def WellTyped (entry : PointEntry F32) : Prop := entry.value.kind = entry.kind.valueKind

instance (entry : PointEntry F32) : Decidable entry.WellTyped :=
  inferInstanceAs (Decidable (_ = _))

theorem wellTyped_new (fp : PointArith F32 F64) (kind : PointKind)
    (schedule : SimSchedule F32) : (new fp kind schedule).WellTyped := by
  cases kind <;> rfl

end PointEntry

/-- **The process image** (`ProcessImage`): the points by address. -/
structure ProcessImage (F32 : Type) where
  points : AList fun _ : UInt32 => PointEntry F32

namespace ProcessImage

variable (image : ProcessImage F32)

/-- An image without points. -/
def new : ProcessImage F32 := ⟨∅⟩

/-- Put a point into the image. -/
def insert (ioa : UInt32) (entry : PointEntry F32) : ProcessImage F32 :=
  ⟨image.points.insert ioa entry⟩

/-- The point at an address. -/
def get (ioa : UInt32) : Option (PointEntry F32) := image.points.lookup ioa

/-- Change the value of a point, and its quality if there is one; the answer is
whether there is such a point. -/
def set (ioa : UInt32) (value : PointValue F32) (quality : Option QualityWire) :
    ProcessImage F32 × Bool :=
  match image.get ioa with
  | some entry =>
    (image.insert ioa { entry with value, quality := quality.getD entry.quality }, true)
  | none => (image, false)

/-- All addresses, in ascending order (`iter`, sorted as by every caller). -/
def sortedIoas : List UInt32 := image.points.keys.insertionSort (· ≤ ·)

variable {image} {ioa other : UInt32}

@[simp] theorem get_insert (entry : PointEntry F32) :
    (image.insert ioa entry).get ioa = some entry :=
  AList.lookup_insert _

theorem get_insert_of_ne (h : other ≠ ioa) (entry : PointEntry F32) :
    (image.insert ioa entry).get other = image.get other :=
  AList.lookup_insert_ne h

/-- The sorted addresses are those that have a point. -/
theorem mem_sortedIoas : ioa ∈ image.sortedIoas ↔ ∃ entry, image.get ioa = some entry := by
  rw [sortedIoas, List.mem_insertionSort, ← AList.mem_keys, ← AList.lookup_isSome,
    Option.isSome_iff_exists]
  rfl

theorem set_of_get {entry : PointEntry F32} (h : image.get ioa = some entry)
    (value : PointValue F32) (quality : Option QualityWire) :
    image.set ioa value quality
      = (image.insert ioa { entry with value, quality := quality.getD entry.quality }, true) := by
  rw [set, h]

theorem set_of_get_none (h : image.get ioa = none) (value : PointValue F32)
    (quality : Option QualityWire) : image.set ioa value quality = (image, false) := by
  rw [set, h]

/-- **The image has become another one at an address**, where `entry` is now. -/
structure Updated (image image' : ProcessImage F32) (ioa : UInt32) (entry : PointEntry F32) :
    Prop where
  self : image'.get ioa = some entry
  others : ∀ other, other ≠ ioa → image'.get other = image.get other

theorem updated_insert (image : ProcessImage F32) (ioa : UInt32) (entry : PointEntry F32) :
    image.Updated (image.insert ioa entry) ioa entry :=
  ⟨get_insert entry, fun _ h => get_insert_of_ne h entry⟩

/-- Every point of the image satisfies `P`. -/
def All (P : PointEntry F32 → Prop) (image : ProcessImage F32) : Prop :=
  ∀ ioa entry, image.get ioa = some entry → P entry

variable {P : PointEntry F32 → Prop}

theorem all_new : (new : ProcessImage F32).All P := by
  intro ioa entry h
  cases h

/-- **A point of the image changes**: the others stay. -/
theorem All.updated {image' : ProcessImage F32} {entry : PointEntry F32} (h : image.All P)
    (hentry : P entry) (hupdated : image.Updated image' ioa entry) : image'.All P := by
  intro other e he
  by_cases hne : other = ioa
  · subst hne
    rw [hupdated.self] at he
    cases he
    exact hentry
  · rw [hupdated.others other hne] at he
    exact h other e he

end ProcessImage

/-! ## What is sent for a point -/

/-- Write an ASDU with one object (`encode_asdu`). -/
def encodeAsdu {P : Type} (T : Payload P) (payload : P) (cot : Cot) (ca : CommonAddress) :
    Bytes :=
  (Asdu.fromPayload T cot ca (.single 1) payload .iec104).encode .iec104

section Elements

variable (q : QualityWire)

/-- The element of a single point, off if the value is none. -/
def siqOf (value : PointValue F32) : Siq :=
  let on := match value with
    | .single true => true
    | _ => false
  ⟨on, qualityFromWire q⟩

/-- The element of a double point, off if the value is none. -/
def diqOf (value : PointValue F32) : Diq :=
  let state := match value with
    | .double dpw => dpFromWire dpw
    | _ => .off
  ⟨state, qualityFromWire q⟩

/-- The element of a normalized value, zero if the value is none. -/
def nvaOf (fp : PointArith F32 F64) (value : PointValue F32) : Nva :=
  match value with
  | .normalized f => nvaFromF32 fp f
  | _ => ⟨0⟩

/-- The element of a scaled value, zero if the value is none. -/
def svaOf (value : PointValue F32) : Sva :=
  match value with
  | .scaled s => ⟨s⟩
  | _ => ⟨0⟩

/-- The element of a floating point value, zero if the value is none. -/
def r32Of (fp : PointArith F32 F64) (value : PointValue F32) : R32 :=
  match value with
  | .float f => ⟨fp.toBits32 f⟩
  | _ => ⟨fp.toBits32 fp.zero32⟩

end Elements

/-- **The ASDU of a point** (`encode_point`): what its kind says, whatever its value
is. -/
def encodePoint (fp : PointArith F32 F64) (now : SystemTime) (ioa : UInt32)
    (entry : PointEntry F32) (cot : Cot) (ca : CommonAddress) : Option Bytes :=
  let ts := nowCp56 now
  let q := entry.quality
  let v := entry.value
  match entry.kind with
  | .spNa => some (encodeAsdu M_SP_NA_1 [(⟨ioa⟩, siqOf q v)] cot ca)
  | .dpNa => some (encodeAsdu M_DP_NA_1 [(⟨ioa⟩, diqOf q v)] cot ca)
  | .meNa => some (encodeAsdu M_ME_NA_1 [(⟨ioa⟩, nvaOf fp v, qdsFromWire q)] cot ca)
  | .meNb => some (encodeAsdu M_ME_NB_1 [(⟨ioa⟩, svaOf v, qdsFromWire q)] cot ca)
  | .meNc => some (encodeAsdu M_ME_NC_1 [(⟨ioa⟩, r32Of fp v, qdsFromWire q)] cot ca)
  | .spTb => some (encodeAsdu M_SP_TB_1 [(⟨ioa⟩, siqOf q v, ts)] cot ca)
  | .dpTb => some (encodeAsdu M_DP_TB_1 [(⟨ioa⟩, diqOf q v, ts)] cot ca)
  | .meTd => some (encodeAsdu M_ME_TD_1 [(⟨ioa⟩, nvaOf fp v, qdsFromWire q, ts)] cot ca)
  | .meTe => some (encodeAsdu M_ME_TE_1 [(⟨ioa⟩, svaOf v, qdsFromWire q, ts)] cot ca)
  | .meTf => some (encodeAsdu M_ME_TF_1 [(⟨ioa⟩, r32Of fp v, qdsFromWire q, ts)] cot ca)

/-- **Every point is encoded**, well typed or not. -/
theorem isSome_encodePoint (fp : PointArith F32 F64) (now : SystemTime) (ioa : UInt32)
    (entry : PointEntry F32) (cot : Cot) (ca : CommonAddress) :
    (encodePoint fp now ioa entry cot ca).isSome = true := by
  obtain ⟨kind, value, quality, schedule⟩ := entry
  cases kind <;> rfl

/-- The value that the deadband evaluator compares, if it is of the variant of the
kind. -/
def PointValue.monitored : PointValue F32 → MonitoredValue F32
  | single b => .single b
  | double dpw => .double (dpFromWire dpw)
  | normalized f => .normalized f
  | scaled s => .scaled s
  | float f => .float f

/-- **The sample of a point** (`entry_to_monitored`): a value of the wrong variant is
taken for a single point that is off. -/
def entryToMonitored (entry : PointEntry F32) : MonitoredValue F32 × Qds :=
  let value := match entry.kind, entry.value with
    | .spNa, .single b | .spTb, .single b => .single b
    | .dpNa, .double dpw | .dpTb, .double dpw => .double (dpFromWire dpw)
    | .meNa, .normalized f | .meTd, .normalized f => .normalized f
    | .meNb, .scaled s | .meTe, .scaled s => .scaled s
    | .meNc, .float f | .meTf, .float f => .float f
    | _, _ => .single false
  (value, qdsFromWire entry.quality)

/-- **The sample of a well-typed point is its value.** -/
theorem PointEntry.WellTyped.monitored {entry : PointEntry F32} (h : entry.WellTyped) :
    entryToMonitored entry = (entry.value.monitored, qdsFromWire entry.quality) := by
  obtain ⟨kind, value, quality, schedule⟩ := entry
  cases kind <;> cases value <;> first | rfl | cases h

/-- The sample of a well-typed point is of the kind of the point. -/
theorem PointEntry.WellTyped.kind_monitored {entry : PointEntry F32} (h : entry.WellTyped) :
    (entryToMonitored entry).1.kind = entry.kind.valueKind := by
  rw [h.monitored, ← h]
  cases entry.value <;> rfl

/-! ## Exact arithmetic

The operations on `ExtRat` that the tools need beside those of the deadband evaluator.
Bits are read exactly, and written with the digits that do not fit cut off. -/

namespace Exact

/-- Add, without rounding. -/
def add (x y : ExtRat) : ExtRat := x.sub ((ExtRat.fin 0).sub y)

/-- Round to an integer, ties away from zero. -/
def round : ExtRat → ExtRat
  | .fin q => .fin (if q < 0 then -(-q + 1 / 2).floor else (q + 1 / 2).floor)
  | x => x

/-- Cast to `i32`: towards zero, within the range; zero for a NaN. -/
def toI32 : ExtRat → Int32
  | .fin q =>
    let whole := if q < 0 then -(-q).floor else q.floor
    Int32.ofInt (max (-2 ^ 31) (min whole (2 ^ 31 - 1)))
  | .inf negative => if negative then Int32.minValue else Int32.maxValue
  | .nan => 0

/-- The number with the given fields of a binary format: `mantissa` bits below a biased
exponent of `exponent` bits. -/
def ofFields (mantissa exponent : ℕ) (negative : Bool) (e m : ℕ) : ExtRat :=
  let sign : ℚ := if negative then -1 else 1
  -- the exponent of the last place of a number with the least exponent
  let low : ℤ := 2 - 2 ^ (exponent - 1) - mantissa
  if e = 2 ^ exponent - 1 then (if m = 0 then .inf negative else .nan)
  else if e = 0 then .fin (sign * m * 2 ^ low)
  else .fin (sign * (2 ^ mantissa + m) * 2 ^ (low + (e - 1)))

/-- The number of a binary format with these bits. -/
def ofBits (mantissa exponent bits : ℕ) : ExtRat :=
  ofFields mantissa exponent (bits.testBit (mantissa + exponent))
    (bits / 2 ^ mantissa % 2 ^ exponent) (bits % 2 ^ mantissa)

/-- The bits of a number in binary32. -/
def toBits : ExtRat → UInt32
  | .nan => 0x7FC00000
  | .inf negative => if negative then 0xFF800000 else 0x7F800000
  | .fin q =>
    let sign : UInt32 := if q < 0 then 0x80000000 else 0
    let e := max (-126) (Int.log 2 |q|)
    let m := (|q| / 2 ^ (e - 23)).floor.toNat
    if q = 0 then 0
    else if 127 < e then sign ||| 0x7F800000
    -- the leading bit of `m` raises the exponent field by one
    else sign ||| UInt32.ofNat ((e + 126).toNat * 2 ^ 23 + m)

/-- The sine, by the first terms of its series: it is the one operation that is not exact. -/
def sin : ExtRat → ExtRat
  | .fin q => .fin (q - q ^ 3 / 6 + q ^ 5 / 120 - q ^ 7 / 5040)
  | _ => .nan

/-- **Arithmetic without rounding**, the sine aside. -/
def arith : PointArith ExtRat ExtRat where
  toFloatArith := ExtRat.arith
  ofBits32 b := ofBits 23 8 b.toNat
  toBits32 := toBits
  castI16 v := .fin v.toInt
  le32 x y := y.ge x
  lt32 x y := y.ge x && !x.ge y
  add32 := add
  mul32 := ExtRat.mul
  div32 := ExtRat.div
  neg32 := (ExtRat.fin 0).sub
  round32 := round
  castF32 := toI32
  ofBits64 b := ofBits 52 11 b.toNat
  castU64 n := .fin n.toNat
  add := add
  sin := sin
  castF64 := id
  castF64I16 x := saturate16 (toI32 x)
  negOne_le_one := by decide +kernel

end Exact

end Points
