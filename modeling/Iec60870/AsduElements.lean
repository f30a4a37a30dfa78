import Iec60870.AsduHeader

/-!
# Information elements

What an information object carries beside its address (`asdu/ie.rs`, and
the qualifiers at the head of `asdu/types/command.rs` and
`asdu/types/system.rs`): points with their quality, measured values, time
tags, commands and their qualifiers. Most of them share one octet between
several subfields, packed by one function and unpacked by another. For
such an element, `T.encode` is the octet the source's `encode` writes and
`T.decode` what its `decode` makes of an octet; `T.codec` joins the two
with the check for a missing octet that every `decode` starts with
(`Wire.Codec.u8`, `Wire.Codec.via`).

That the two functions agree on every mask is the content of the proof in
each codec. It runs both on every value that fits the octet.
-/

namespace Iec60870

open Wire

/-! ## Points with quality -/

/-- The quality bits shared by the monitored elements (`Quality`). -/
structure Quality where
  blocked : Bool
  substituted : Bool
  notTopical : Bool
  invalid : Bool
deriving DecidableEq, Repr

/-- The bits of a quality (`to_bits`). -/
def Quality.toBits (q : Quality) : UInt8 :=
  setIf (setIf (setIf (setIf 0 q.blocked 0x10) q.substituted 0x20) q.notTopical 0x40) q.invalid 0x80

/-- The quality in an octet (`from_bits`). -/
def Quality.fromBits (b : UInt8) : Quality :=
  { blocked := b &&& 0x10 != 0
    substituted := b &&& 0x20 != 0
    notTopical := b &&& 0x40 != 0
    invalid := b &&& 0x80 != 0 }

/-- A single point with quality (`Siq`). -/
structure Siq where
  on : Bool
  quality : Quality
deriving DecidableEq, Repr

namespace Siq

/-- The octet of a single point. -/
def encode (s : Siq) : UInt8 := setIf s.quality.toBits s.on 0x01

/-- The single point in an octet. -/
def decode (b : UInt8) : Siq :=
  { on := b &&& 0x01 != 0, quality := .fromBits b }

theorem decode_encode : ∀ on blocked substituted notTopical invalid : Bool,
    decode (encode ⟨on, blocked, substituted, notTopical, invalid⟩)
      = ⟨on, blocked, substituted, notTopical, invalid⟩ := by
  decide +kernel

/-- The codec of single points. -/
def codec : Codec Siq :=
  Codec.u8.via encode decode (fun _ => True) fun ⟨on, ⟨bl, sb, nt, iv⟩⟩ _ =>
    ⟨trivial, decode_encode on bl sb nt iv⟩

end Siq

/-- The states of a double point (`DoublePoint`). -/
inductive DoublePoint where
  | intermediate
  | off
  | on
  | indeterminate
deriving DecidableEq, Repr

/-- The two bits of a double point (`to_bits`). -/
def DoublePoint.toBits : DoublePoint → UInt8
  | .intermediate => 0b00
  | .off => 0b01
  | .on => 0b10
  | .indeterminate => 0b11

/-- The double point in the low bits of an octet (`from_bits`). -/
def DoublePoint.fromBits (b : UInt8) : DoublePoint :=
  match b &&& 0b11 with
  | 0b00 => .intermediate
  | 0b01 => .off
  | 0b10 => .on
  | _ => .indeterminate

/-- A double point takes two bits. -/
theorem DoublePoint.toBits_lt (d : DoublePoint) : d.toBits < 4 := by
  cases d <;> decide

/-- An octet whose low bits are those of a double point holds it. -/
theorem DoublePoint.fromBits_of_and {b : UInt8} {d : DoublePoint}
    (h : b &&& 0b11 = d.toBits) : fromBits b = d := by
  rw [fromBits, h]
  cases d <;> rfl

/-- A double point with quality (`Diq`). -/
structure Diq where
  state : DoublePoint
  quality : Quality
deriving DecidableEq, Repr

namespace Diq

/-- The octet of a double point. -/
def encode (d : Diq) : UInt8 := d.quality.toBits ||| d.state.toBits

/-- The double point in an octet. -/
def decode (b : UInt8) : Diq :=
  { state := .fromBits b, quality := .fromBits b }

theorem decode_encode (state : DoublePoint) : ∀ blocked substituted notTopical invalid : Bool,
      decode (encode ⟨state, blocked, substituted, notTopical, invalid⟩)
        = ⟨state, blocked, substituted, notTopical, invalid⟩ := by
  cases state <;> decide +kernel

/-- The codec of double points. -/
def codec : Codec Diq :=
  Codec.u8.via encode decode (fun _ => True) fun ⟨state, ⟨bl, sb, nt, iv⟩⟩ _ =>
    ⟨trivial, decode_encode state bl sb nt iv⟩

end Diq

/-- The quality of a measured value (`Qds`). -/
structure Qds where
  overflow : Bool
  quality : Quality
deriving DecidableEq, Repr

namespace Qds

/-- The octet of a measured value's quality. -/
def encode (q : Qds) : UInt8 := setIf q.quality.toBits q.overflow 0x01

/-- The measured value's quality in an octet. -/
def decode (b : UInt8) : Qds :=
  { overflow := b &&& 0x01 != 0, quality := .fromBits b }

theorem decode_encode : ∀ overflow blocked substituted notTopical invalid : Bool,
    decode (encode ⟨overflow, blocked, substituted, notTopical, invalid⟩)
      = ⟨overflow, blocked, substituted, notTopical, invalid⟩ := by
  decide +kernel

/-- The codec of a measured value's quality. -/
def codec : Codec Qds :=
  Codec.u8.via encode decode (fun _ => True) fun ⟨ov, ⟨bl, sb, nt, iv⟩⟩ _ =>
    ⟨trivial, decode_encode ov bl sb nt iv⟩

end Qds

/-! ## Measured values -/

/-- A normalized value (`Nva`). -/
structure Nva where
  raw : Int16
deriving DecidableEq, Repr

/-- The codec of normalized values: an `i16`. -/
def Nva.codec : Codec Nva :=
  Codec.u16.via (fun v => v.raw.toUInt16) (fun x => ⟨x.toInt16⟩) (fun _ => True)
    fun v _ => ⟨trivial, congrArg Nva.mk v.raw.toInt16_toUInt16⟩

/-- A scaled value (`Sva`). -/
structure Sva where
  raw : Int16
deriving DecidableEq, Repr

/-- The codec of scaled values: an `i16`. -/
def Sva.codec : Codec Sva :=
  Codec.u16.via (fun v => v.raw.toUInt16) (fun x => ⟨x.toInt16⟩) (fun _ => True)
    fun v _ => ⟨trivial, congrArg Sva.mk v.raw.toInt16_toUInt16⟩

/-- A short floating point number (`R32`), by the bits of its binary32
representation. -/
structure R32 where
  bits : UInt32
deriving DecidableEq, Repr

/-- The codec of short floating point numbers: their 32 bits. -/
def R32.codec : Codec R32 :=
  Codec.u32.via R32.bits R32.mk (fun _ => True) fun _ _ => ⟨trivial, rfl⟩

/-! ## Time tags -/

/-- A seven-octet time tag (`Cp56Time2a`). -/
structure Cp56Time2a where
  milliseconds : UInt16
  minute : UInt8
  hour : UInt8
  day : UInt8
  dayOfWeek : UInt8
  month : UInt8
  year : UInt8
  summerTime : Bool
  invalid : Bool
  genuine : Bool
deriving DecidableEq, Repr

namespace Cp56Time2a

/-- The octet of the minute. -/
def minuteOctet (minute : UInt8) (genuine invalid : Bool) : UInt8 :=
  setIf (setIf (minute &&& 0x3F) genuine 0x40) invalid 0x80

/-- The octet of the hour. -/
def hourOctet (hour : UInt8) (summerTime : Bool) : UInt8 :=
  setIf (hour &&& 0x1F) summerTime 0x80

/-- The octet of the day. -/
def dayOctet (day dayOfWeek : UInt8) : UInt8 :=
  (day &&& 0x1F) ||| ((dayOfWeek &&& 0x07) <<< (5 : UInt8))

/-- Write a time tag (`Cp56Time2a::encode`). -/
def encode (t : Cp56Time2a) : Bytes :=
  putU16Le t.milliseconds
    ++ [minuteOctet t.minute t.genuine t.invalid, hourOctet t.hour t.summerTime,
      dayOctet t.day t.dayOfWeek, t.month &&& 0x0F, t.year &&& 0x7F]

/-- Read a time tag (`Cp56Time2a::decode`). -/
def decode : Decoder Cp56Time2a := do
  ensure 7
  let milliseconds ← getU16Le
  let minB ← getU8
  let hourB ← getU8
  let dayB ← getU8
  let monthB ← getU8
  let yearB ← getU8
  return {
    milliseconds
    minute := minB &&& 0x3F
    genuine := minB &&& 0x40 != 0
    invalid := minB &&& 0x80 != 0
    hour := hourB &&& 0x1F
    summerTime := hourB &&& 0x80 != 0
    day := dayB &&& 0x1F
    dayOfWeek := (dayB >>> 5) &&& 0x07
    month := monthB &&& 0x0F
    year := yearB &&& 0x7F }

/-- The subfields of a time tag fit their bits. -/
structure Fits (t : Cp56Time2a) : Prop where
  minute : t.minute < 64
  hour : t.hour < 32
  day : t.day < 32
  dayOfWeek : t.dayOfWeek < 8
  month : t.month < 16
  year : t.year < 128

theorem unpack_minute : ∀ (genuine invalid : Bool) (minute : UInt8), minute < 64 →
    minuteOctet minute genuine invalid &&& 0x3F = minute
      ∧ (minuteOctet minute genuine invalid &&& 0x40 != 0) = genuine
      ∧ (minuteOctet minute genuine invalid &&& 0x80 != 0) = invalid := by
  decide +kernel

theorem unpack_hour : ∀ (summerTime : Bool) (hour : UInt8), hour < 32 →
    hourOctet hour summerTime &&& 0x1F = hour
      ∧ (hourOctet hour summerTime &&& 0x80 != 0) = summerTime := by
  decide +kernel

theorem unpack_day : ∀ d < 32, ∀ w < 8, dayOctet (.ofNat d) (.ofNat w) &&& 0x1F = .ofNat d
      ∧ (dayOctet (.ofNat d) (.ofNat w) >>> 5) &&& 0x07 = .ofNat w := by
  decide +kernel

theorem unpack_month : ∀ month : UInt8, month < 16 →
    month &&& 0x0F &&& 0x0F = month := by
  decide +kernel

theorem unpack_year : ∀ year : UInt8, year < 128 → year &&& 0x7F &&& 0x7F = year := by
  decide +kernel

/-- A time tag whose subfields fit is read back. -/
theorem reads (t : Cp56Time2a) (h : t.Fits) : Reads decode t.encode t := by
  have hr : Reads decode t.encode ⟨_, _, _, _, _, _, _, _, _, _⟩ :=
    Reads.ensure (Nat.le_refl _) (Reads.bind (reads_getU16Le _)
      (Reads.bind (reads_getU8 _) (Reads.bind (reads_getU8 _)
        (Reads.bind (reads_getU8 _) (Reads.bind (reads_getU8 _) (Reads.map (reads_getU8 _) _))))))
  obtain ⟨hm, hg, hi⟩ := unpack_minute t.genuine t.invalid t.minute h.minute
  obtain ⟨hh, hs⟩ := unpack_hour t.summerTime t.hour h.hour
  obtain ⟨hd, hw⟩ := unpack_day t.day.toNat h.day t.dayOfWeek.toNat h.dayOfWeek
  rw [UInt8.ofNat_toNat, UInt8.ofNat_toNat] at hd hw
  rwa [hm, hg, hi, hh, hs, hd, hw, unpack_month _ h.month,
    unpack_year _ h.year] at hr

/-- The codec of time tags. -/
def codec : Codec Cp56Time2a := ⟨encode, decode, Fits, reads⟩

end Cp56Time2a

/-! ## Commands and their qualifiers -/

/-- A single command (`Sco`). -/
structure Sco where
  on : Bool
  qualifier : UInt8
  select : Bool
deriving DecidableEq, Repr

namespace Sco

/-- The octet of a single command. -/
def encode (c : Sco) : UInt8 :=
  setIf (setIf ((c.qualifier &&& 0x1F) <<< 2) c.on 0x01) c.select 0x80

/-- The single command in an octet. -/
def decode (b : UInt8) : Sco :=
  { on := b &&& 0x01 != 0
    qualifier := (b >>> 2) &&& 0x1F
    select := b &&& 0x80 != 0 }

theorem decode_encode : ∀ (on select : Bool) (qualifier : UInt8), qualifier < 32 →
      decode (encode ⟨on, qualifier, select⟩) = ⟨on, qualifier, select⟩ := by
  decide +kernel

/-- The codec of single commands. -/
def codec : Codec Sco :=
  Codec.u8.via encode decode (fun c => c.qualifier < 32) fun ⟨on, q, select⟩ h =>
    ⟨trivial, decode_encode on select q h⟩

end Sco

/-- The octet of a two-bit command with its qualifier. -/
def commandOctet (state qualifier : UInt8) (select : Bool) : UInt8 :=
  setIf (state ||| ((qualifier &&& 0x1F) <<< 2)) select 0x80

/-- The three subfields of a two-bit command's octet. -/
theorem unpack_command : ∀ select, ∀ s < 4, ∀ q < 32,
    commandOctet (.ofNat s) (.ofNat q) select &&& 0b11 = .ofNat s
      ∧ (commandOctet (.ofNat s) (.ofNat q) select >>> 2) &&& 0x1F = .ofNat q
      ∧ (commandOctet (.ofNat s) (.ofNat q) select &&& 0x80 != 0) = select := by
  decide +kernel

/-- The three subfields of the octet of a two-bit command. -/
theorem commandOctet_fields {state qualifier : UInt8} (select : Bool)
    (hs : state < 4) (hq : qualifier < 32) :
    commandOctet state qualifier select &&& 0b11 = state
      ∧ (commandOctet state qualifier select >>> 2) &&& 0x1F = qualifier
      ∧ (commandOctet state qualifier select &&& 0x80 != 0) = select := by
  have h := unpack_command select state.toNat hs qualifier.toNat hq
  rwa [UInt8.ofNat_toNat, UInt8.ofNat_toNat] at h

/-- A double command (`Dco`). -/
structure Dco where
  state : DoublePoint
  qualifier : UInt8
  select : Bool
deriving DecidableEq, Repr

namespace Dco

/-- The octet of a double command. The source repeats the two matches of
`DoublePoint` in the command's `encode` and `decode`. -/
def encode (c : Dco) : UInt8 :=
  commandOctet c.state.toBits c.qualifier c.select

/-- The double command in an octet. -/
def decode (b : UInt8) : Dco :=
  { state := .fromBits b
    qualifier := (b >>> 2) &&& 0x1F
    select := b &&& 0x80 != 0 }

theorem decode_encode (c : Dco) (h : c.qualifier < 32) : decode c.encode = c := by
  obtain ⟨hs, hq, hl⟩ := commandOctet_fields c.select c.state.toBits_lt h
  rw [decode, encode, DoublePoint.fromBits_of_and hs, hq, hl]

/-- The codec of double commands. -/
def codec : Codec Dco :=
  Codec.u8.via encode decode (fun c => c.qualifier < 32) fun c h =>
    ⟨trivial, decode_encode c h⟩

end Dco

/-- The directions of a regulating step (`StepDirection`). -/
inductive StepDirection where
  | notPermitted0
  | lower
  | higher
  | notPermitted3
deriving DecidableEq, Repr

namespace StepDirection

/-- The two bits of a direction. -/
def toBits : StepDirection → UInt8
  | .notPermitted0 => 0b00
  | .lower => 0b01
  | .higher => 0b10
  | .notPermitted3 => 0b11

/-- The direction in the low bits of an octet. -/
def fromBits (b : UInt8) : StepDirection :=
  match b &&& 0b11 with
  | 0b00 => .notPermitted0
  | 0b01 => .lower
  | 0b10 => .higher
  | _ => .notPermitted3

/-- A direction takes two bits. -/
theorem toBits_lt (d : StepDirection) : d.toBits < 4 := by
  cases d <;> decide

/-- An octet whose low bits are those of a direction holds it. -/
theorem fromBits_of_and {b : UInt8} {d : StepDirection}
    (h : b &&& 0b11 = d.toBits) : fromBits b = d := by
  rw [fromBits, h]
  cases d <;> rfl

end StepDirection

/-- A regulating step command (`Rco`). -/
structure Rco where
  direction : StepDirection
  qualifier : UInt8
  select : Bool
deriving DecidableEq, Repr

namespace Rco

/-- The octet of a regulating step command. -/
def encode (c : Rco) : UInt8 :=
  commandOctet c.direction.toBits c.qualifier c.select

/-- The regulating step command in an octet. -/
def decode (b : UInt8) : Rco :=
  { direction := .fromBits b
    qualifier := (b >>> 2) &&& 0x1F
    select := b &&& 0x80 != 0 }

theorem decode_encode (c : Rco) (h : c.qualifier < 32) : decode c.encode = c := by
  obtain ⟨hs, hq, hl⟩ := commandOctet_fields c.select c.direction.toBits_lt h
  rw [decode, encode, StepDirection.fromBits_of_and hs, hq, hl]

/-- The codec of regulating step commands. -/
def codec : Codec Rco :=
  Codec.u8.via encode decode (fun c => c.qualifier < 32) fun c h =>
    ⟨trivial, decode_encode c h⟩

end Rco

/-- The qualifier of a set point (`Qos`). -/
structure Qos where
  qualifier : UInt8
  select : Bool
deriving DecidableEq, Repr

/-- The codec of set point qualifiers: seven bits and the select flag. -/
def Qos.codec : Codec Qos :=
  Codec.u8.via (fun q => flagged q.qualifier q.select)
    (fun b => { qualifier := b &&& 0x7F, select := b &&& 0x80 != 0 })
    (fun q => q.qualifier ≤ 127)
    fun q h => ⟨trivial, by rw [flagged_low _ _ h, flagged_top]⟩

/-- The qualifier of an interrogation (`Qoi`). -/
structure Qoi where
  raw : UInt8
deriving DecidableEq, Repr

/-- All points (`Qoi::GENERAL`). -/
def Qoi.general : Qoi := ⟨20⟩

/-- The points of a group (`Qoi::group`). -/
def Qoi.group (n : UInt8) : Qoi := ⟨20 + n⟩

/-- The codec of interrogation qualifiers. -/
def Qoi.codec : Codec Qoi :=
  Codec.u8.via Qoi.raw Qoi.mk (fun _ => True) fun _ _ => ⟨trivial, rfl⟩

/-! ## System qualifiers -/

/-- The cause of an initialisation (`Coi`). -/
structure Coi where
  cause : UInt8
  afterParamChange : Bool
deriving DecidableEq, Repr

/-- The codec of initialisation causes: seven bits and a flag. -/
def Coi.codec : Codec Coi :=
  Codec.u8.via (fun c => flagged c.cause c.afterParamChange)
    (fun b => { cause := b &&& 0x7F, afterParamChange := b &&& 0x80 != 0 })
    (fun c => c.cause ≤ 127)
    fun c h => ⟨trivial, by rw [flagged_low _ _ h, flagged_top]⟩

/-- The qualifier of a counter interrogation (`Qcc`). -/
structure Qcc where
  group : UInt8
  freeze : UInt8
deriving DecidableEq, Repr

namespace Qcc

/-- The octet of a counter interrogation qualifier. -/
def encode (q : Qcc) : UInt8 :=
  (q.group &&& 0x3F) ||| ((q.freeze &&& 0x03) <<< (6 : UInt8))

/-- The counter interrogation qualifier in an octet. -/
def decode (b : UInt8) : Qcc :=
  { group := b &&& 0x3F, freeze := (b >>> 6) &&& 0x03 }

theorem decode_encode_nat : ∀ g < 64, ∀ f < 4,
    decode (encode ⟨.ofNat g, .ofNat f⟩) = ⟨.ofNat g, .ofNat f⟩ := by
  decide +kernel

/-- The codec of counter interrogation qualifiers. -/
def codec : Codec Qcc :=
  Codec.u8.via encode decode (fun q => q.group < 64 ∧ q.freeze < 4) fun q h => by
    have hq := decode_encode_nat q.group.toNat h.1 q.freeze.toNat h.2
    rw [UInt8.ofNat_toNat, UInt8.ofNat_toNat] at hq
    exact ⟨trivial, hq⟩

end Qcc

/-- The qualifier of a reset process command (`Qrp`). -/
structure Qrp where
  raw : UInt8
deriving DecidableEq, Repr

/-- The codec of reset qualifiers. -/
def Qrp.codec : Codec Qrp :=
  Codec.u8.via Qrp.raw Qrp.mk (fun _ => True) fun _ _ => ⟨trivial, rfl⟩

end Iec60870
