import Iec60870.Error

/-!
# The ASDU header

The fields every ASDU starts with, and the widths they are written with
(`asdu/header.rs`, `asdu/cot.rs`): the variable structure qualifier, the
cause of transmission in one octet or two, the common address in one or
two, and – in front of every information object – the object's address in
one, two or three. `AsduAddressing` is a choice of the three widths; the
two link profiles of the standard fix one each, and the crate accepts all
twelve.

For each field there is one statement, that a value which fits its octets
is read back from them: `Vsq.reads`, `Cot.reads`, `reads_ca` and
`ioaCodec`. The subfields of an octet are settled by running the packing
and the unpacking on every octet there is.
-/

namespace Iec60870

open Wire

/-! ## Variable structure qualifier -/

/-- The variable structure qualifier (`Vsq`): the number of information
objects, and whether they share one address. -/
structure Vsq where
  /-- One address for all objects (`SQ`). -/
  sequence : Bool
  /-- The number of objects. -/
  count : UInt8
deriving DecidableEq, Repr

namespace Vsq

/-- Objects with an address each (`Vsq::single`). -/
def single (count : UInt8) : Vsq := ⟨false, count⟩

/-- Objects at consecutive addresses, the first of which is written
(`Vsq::sequence`). -/
def sequenceOf (count : UInt8) : Vsq := ⟨true, count⟩

/-- Write the qualifier (`Vsq::encode`). -/
def encode (v : Vsq) : Bytes := [flagged v.count v.sequence]

/-- Read the qualifier (`Vsq::decode`). -/
def decode : Decoder Vsq := do
  ensure 1
  let b ← getU8
  return { sequence := b &&& 0x80 != 0, count := b &&& 0x7F }

/-- A count of at most 127 objects fits the qualifier. -/
def Fits (v : Vsq) : Prop := v.count ≤ 127

instance (v : Vsq) : Decidable v.Fits := inferInstanceAs (Decidable (_ ≤ _))

/-- A qualifier that fits is read back. -/
theorem reads (v : Vsq) (h : v.Fits) : Reads decode v.encode v := by
  have hr : Reads decode v.encode ⟨_, _⟩ :=
    Reads.ensure (Nat.le_refl _) (Reads.map (reads_getU8 _) _)
  rwa [flagged_top, flagged_low _ _ h] at hr

end Vsq

/-! ## Cause of transmission -/

/-- A cause of transmission (`Cause`). -/
structure Cause where
  /-- The number of the cause. -/
  raw : UInt8
deriving DecidableEq, Repr

/-- The cause of all file transfer ASDUs (`Cause::FILE_TRANSFER`). -/
def Cause.fileTransfer : Cause := ⟨13⟩

/-- A value has changed (`Cause::SPONTANEOUS`). -/
def Cause.spontaneous : Cause := ⟨3⟩

/-- A command, or an interrogation (`Cause::ACTIVATION`). -/
def Cause.activation : Cause := ⟨6⟩

/-- It is confirmed (`Cause::ACTIVATION_CON`). -/
def Cause.activationCon : Cause := ⟨7⟩

/-- It is over (`Cause::ACTIVATION_TERMINATION`). -/
def Cause.activationTermination : Cause := ⟨10⟩

/-- The answer to a general interrogation (`Cause::INTERROGATED_GENERAL`). -/
def Cause.interrogatedGeneral : Cause := ⟨20⟩

/-- The cause of transmission field (`Cot`). -/
structure Cot where
  /-- Why the ASDU is sent. -/
  cause : Cause
  /-- A negative confirmation (`P/N`). -/
  negative : Bool
  /-- Sent for a test (`T`). -/
  test : Bool
  /-- The originator address. -/
  originator : UInt8
deriving DecidableEq, Repr

/-- The width of the cause of transmission field (`CotSize`). -/
inductive CotSize where
  | one
  | two
deriving DecidableEq, Repr

namespace Cot

/-- A positive, productive cause (`Cot::with`). -/
def of (cause : Cause) : Cot := ⟨cause, false, false, 0⟩

/-- The octet the cause and its flags share (`first_octet`). -/
def firstOctet (c : Cot) : UInt8 :=
  setIf (setIf (c.cause.raw &&& 0x3F) c.negative 0x40) c.test 0x80

/-- The cause and its flags in an octet (`parse_first_octet`). -/
def parseFirstOctet (b : UInt8) : Cot :=
  { cause := ⟨b &&& 0x3F⟩
    negative := b &&& 0x40 != 0
    test := b &&& 0x80 != 0
    originator := 0 }

/-- Write the field without the originator (`encode_1`). -/
def encode1 (c : Cot) : Bytes := [c.firstOctet]

/-- Write the field with the originator (`encode_2`). -/
def encode2 (c : Cot) : Bytes := [c.firstOctet, c.originator]

/-- Read the field without the originator (`decode_1`). -/
def decode1 : Decoder Cot := do
  ensure 1
  let b ← getU8
  return parseFirstOctet b

/-- Read the field with the originator (`decode_2`). -/
def decode2 : Decoder Cot := do
  ensure 2
  let first ← getU8
  let originator ← getU8
  return { parseFirstOctet first with originator := originator }

/-- Write the field in its width, as the envelope does. -/
def encode (c : Cot) : CotSize → Bytes
  | .one => c.encode1
  | .two => c.encode2

/-- Read the field in its width, as the envelope does. -/
def decode : CotSize → Decoder Cot
  | .one => decode1
  | .two => decode2

/-- A cause below 64 fits the field; one octet has no room for an
originator. -/
def Fits (c : Cot) (size : CotSize) : Prop :=
  c.cause.raw < 64 ∧ (size = .one → c.originator = 0)

instance (c : Cot) (size : CotSize) : Decidable (c.Fits size) :=
  inferInstanceAs (Decidable (_ ∧ _))

/-- Unpacking the first octet undoes packing it. -/
theorem unpack_pack : ∀ (negative test : Bool) (cause : UInt8), cause < 64 →
    parseFirstOctet (firstOctet ⟨⟨cause⟩, negative, test, 0⟩) = ⟨⟨cause⟩, negative, test, 0⟩ := by
  decide +kernel

/-- The first octet gives the field back up to the originator. -/
theorem parse_firstOctet (c : Cot) (h : c.cause.raw < 64) :
    parseFirstOctet c.firstOctet = { c with originator := 0 } :=
  unpack_pack c.negative c.test c.cause.raw h

/-- A cause of transmission that fits its width is read back. -/
theorem reads (c : Cot) (size : CotSize) (h : c.Fits size) :
    Reads (decode size) (c.encode size) c := by
  cases size with
  | one =>
    have hr : Reads decode1 c.encode1 (parseFirstOctet c.firstOctet) :=
      Reads.ensure (Nat.le_refl _) (Reads.map (reads_getU8 _) _)
    rwa [parse_firstOctet c h.1, ← h.2 rfl] at hr
  | two =>
    have hr : Reads decode2 c.encode2
        { parseFirstOctet c.firstOctet with originator := c.originator } :=
      Reads.ensure (Nat.le_refl _) (Reads.bind (reads_getU8 _) (Reads.map (reads_getU8 _) _))
    rwa [parse_firstOctet c h.1] at hr

end Cot

/-! ## Addresses -/

/-- A common address (`CommonAddress`). -/
structure CommonAddress where
  /-- The number of the station. -/
  raw : UInt16
deriving DecidableEq, Repr

/-- An information object address (`Ioa`). -/
structure Ioa where
  /-- The number of the object. -/
  raw : UInt32
deriving DecidableEq, Repr

/-- The width of the common address (`CaSize`). -/
inductive CaSize where
  | one
  | two
deriving DecidableEq, Repr

/-- The width of an information object address (`IoaSize`). -/
inductive IoaSize where
  | one
  | two
  | three
deriving DecidableEq, Repr

/-- The number of octets of a common address. -/
def CaSize.octets : CaSize → ℕ
  | .one => 1
  | .two => 2

/-- The number of octets of an information object address. -/
def IoaSize.octets : IoaSize → ℕ
  | .one => 1
  | .two => 2
  | .three => 3

/-- **The widths an ASDU is written with** (`AsduAddressing`). -/
structure AsduAddressing where
  /-- The width of the cause of transmission. -/
  cotSize : CotSize
  /-- The width of the common address. -/
  caSize : CaSize
  /-- The width of the information object addresses. -/
  ioaSize : IoaSize
deriving DecidableEq, Repr

namespace AsduAddressing

/-- The widths of IEC 60870-5-104 (`AsduAddressing::IEC104`). -/
def iec104 : AsduAddressing := ⟨.two, .two, .three⟩

/-- The number of octets of the cause of transmission (`cot_len`). -/
def cotLen (a : AsduAddressing) : ℕ :=
  match a.cotSize with
  | .one => 1
  | .two => 2

/-- The number of octets of the common address (`ca_len`). -/
def caLen (a : AsduAddressing) : ℕ :=
  match a.caSize with
  | .one => 1
  | .two => 2

end AsduAddressing

/-- Write a common address (`encode_ca`). -/
def encodeCa (ca : CommonAddress) : CaSize → Bytes
  | .one => [ca.raw.toUInt8]
  | .two => putU16Le ca.raw

/-- Read a common address (`decode_ca`). -/
def decodeCa (size : CaSize) : Decoder CommonAddress := do
  ensure size.octets
  match size with
  | .one => do
    let b ← getU8
    return ⟨b.toUInt16⟩
  | .two => do
    let x ← getU16Le
    return ⟨x⟩

/-- Write an information object address (`encode_ioa`). -/
def encodeIoa (ioa : Ioa) : IoaSize → Bytes
  | .one => [ioa.raw.toUInt8]
  | .two => putU16Le ioa.raw.toUInt16
  | .three => putU24 ioa.raw

/-- Read an information object address (`decode_ioa`). -/
def decodeIoa (size : IoaSize) : Decoder Ioa := do
  ensure size.octets
  match size with
  | .one => do
    let b ← getU8
    return ⟨b.toUInt32⟩
  | .two => do
    let x ← getU16Le
    return ⟨x.toUInt32⟩
  | .three => do
    let x ← getU24
    return ⟨x⟩

/-- A common address fits its octets. -/
def CommonAddress.Fits (ca : CommonAddress) (size : CaSize) : Prop :=
  ca.raw.toNat < 2 ^ (8 * size.octets)

/-- An information object address fits its octets. -/
def Ioa.Fits (ioa : Ioa) (size : IoaSize) : Prop :=
  ioa.raw.toNat < 2 ^ (8 * size.octets)

instance (ca : CommonAddress) (size : CaSize) : Decidable (ca.Fits size) :=
  inferInstanceAs (Decidable (_ < _))

instance (ioa : Ioa) (size : IoaSize) : Decidable (ioa.Fits size) :=
  inferInstanceAs (Decidable (_ < _))

/-- A common address that fits is read back. -/
theorem reads_ca (ca : CommonAddress) (size : CaSize) (h : ca.Fits size) :
    Reads (decodeCa size) (encodeCa ca size) ca := by
  cases size with
  | one =>
    have hx : ca.raw.toUInt8.toUInt16 = ca.raw := by
      refine UInt16.toNat.inj ?_
      rw [UInt8.toNat_toUInt16, UInt16.toNat_toUInt8]
      exact Nat.mod_eq_of_lt h
    have hr : Reads (decodeCa .one) [ca.raw.toUInt8] ⟨ca.raw.toUInt8.toUInt16⟩ :=
      Reads.ensure (Nat.le_refl _) (Reads.map (reads_getU8 _) _)
    rwa [hx] at hr
  | two =>
    exact Reads.ensure (length_putLe _ _).ge (Reads.map (reads_getU16Le _) CommonAddress.mk)

/-- An information object address that fits is read back. -/
theorem reads_ioa (ioa : Ioa) (size : IoaSize) (h : ioa.Fits size) :
    Reads (decodeIoa size) (encodeIoa ioa size) ioa := by
  cases size with
  | one =>
    have hx : ioa.raw.toUInt8.toUInt32 = ioa.raw := by
      refine UInt32.toNat.inj ?_
      rw [UInt8.toNat_toUInt32, UInt32.toNat_toUInt8]
      exact Nat.mod_eq_of_lt h
    have hr : Reads (decodeIoa .one) [ioa.raw.toUInt8] ⟨ioa.raw.toUInt8.toUInt32⟩ :=
      Reads.ensure (Nat.le_refl _) (Reads.map (reads_getU8 _) _)
    rwa [hx] at hr
  | two =>
    have hx : ioa.raw.toUInt16.toUInt32 = ioa.raw := by
      refine UInt32.toNat.inj ?_
      rw [UInt16.toNat_toUInt32, UInt32.toNat_toUInt16]
      exact Nat.mod_eq_of_lt h
    have hr : Reads (decodeIoa .two) (putU16Le ioa.raw.toUInt16) ⟨ioa.raw.toUInt16.toUInt32⟩ :=
      Reads.ensure (length_putLe _ _).ge (Reads.map (reads_getU16Le _) _)
    rwa [hx] at hr
  | three =>
    exact Reads.ensure (Nat.le_refl _) (Reads.map (reads_getU24 h) Ioa.mk)

/-- The codec of an information object address. -/
def ioaCodec (size : IoaSize) : Codec Ioa where
  encode ioa := encodeIoa ioa size
  decode := decodeIoa size
  Fits ioa := ioa.Fits size
  reads ioa h := reads_ioa ioa size h

end Iec60870
