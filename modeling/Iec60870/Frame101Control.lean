import Iec60870.Wire

/-!
# Frames of the FT 1.2 link layer

The frames of IEC 60870-5-101 and the control octet in two of their three
formats. Bit 6 of the octet tells a primary frame, sent by the master, from
a secondary one; the two bits below it and the function code in the low
nibble mean different things in the two directions, so that
`ControlField.decode` has to be told the direction. It does not look at
bit 6, and it refuses the nibbles that are no function code of the
direction. In its own direction every control field is read back
(`ControlField.decode_encode`).

The link layer never looks into an ASDU. Frames are therefore over an
arbitrary type of ASDUs, which is `Bytes` in the source; a numbered ASDU
takes the place of a bare one where a statement has to say *which* of two
equal ASDUs has been delivered.
-/

namespace Frame101

open Wire

/-! ## Control fields -/

/-- Which station sends a control field (`Direction`). -/
inductive Direction where
  | primary
  | secondary
deriving DecidableEq, Repr

/-- The function codes of the primary station (`FuncCodePrimary`). -/
inductive FuncCodePrimary where
  | resetRemoteLink
  | resetUserProcess
  | userDataConfirmed
  | userDataUnconfirmed
  | requestStatus
  | requestUserDataClass1
  | requestUserDataClass2
deriving DecidableEq, Repr

namespace FuncCodePrimary

/-- The number of a function code. -/
def toNibble : FuncCodePrimary → UInt8
  | resetRemoteLink => 0
  | resetUserProcess => 1
  | userDataConfirmed => 3
  | userDataUnconfirmed => 4
  | requestStatus => 9
  | requestUserDataClass1 => 10
  | requestUserDataClass2 => 11

/-- The function code with a number (`from_nibble`). -/
def fromNibble (nibble : UInt8) : Option FuncCodePrimary :=
  match nibble &&& 0x0F with
  | 0 => some resetRemoteLink
  | 1 => some resetUserProcess
  | 3 => some userDataConfirmed
  | 4 => some userDataUnconfirmed
  | 9 => some requestStatus
  | 10 => some requestUserDataClass1
  | 11 => some requestUserDataClass2
  | _ => none

end FuncCodePrimary

/-- The function codes of the secondary station (`FuncCodeSecondary`). -/
inductive FuncCodeSecondary where
  | ack
  | nack
  | respondUserData
  | nackNoData
  | statusOfLink
deriving DecidableEq, Repr

namespace FuncCodeSecondary

/-- The number of a function code. -/
def toNibble : FuncCodeSecondary → UInt8
  | ack => 0
  | nack => 1
  | respondUserData => 8
  | nackNoData => 9
  | statusOfLink => 11

/-- The function code with a number (`from_nibble`). -/
def fromNibble (nibble : UInt8) : Option FuncCodeSecondary :=
  match nibble &&& 0x0F with
  | 0 => some ack
  | 1 => some nack
  | 8 => some respondUserData
  | 9 => some nackNoData
  | 11 => some statusOfLink
  | _ => none

end FuncCodeSecondary

/-- **A control field** (`ControlField`). -/
inductive ControlField where
  /-- Sent by the master: frame count bit, frame count valid, function. -/
  | primary (fcb fcv : Bool) (func : FuncCodePrimary)
  /-- Sent by the outstation: access demand, data flow control, function. -/
  | secondary (acd dfc : Bool) (func : FuncCodeSecondary)
deriving DecidableEq, Repr

namespace ControlField

/-- The direction of a control field. -/
def direction : ControlField → Direction
  | primary .. => .primary
  | secondary .. => .secondary

/-- Bit 6, set in primary frames (`PRM_BIT`). -/
def prmBit : UInt8 := 0x40

/-- Bit 5 (`FCB_ACD_BIT`). -/
def fcbAcdBit : UInt8 := 0x20

/-- Bit 4 (`FCV_DFC_BIT`). -/
def fcvDfcBit : UInt8 := 0x10

/-- The low nibble (`FUNC_MASK`). -/
def funcMask : UInt8 := 0x0F

/-- The octet of a control field. -/
def encode : ControlField → UInt8
  | primary fcb fcv func =>
    setIf (setIf (prmBit ||| (func.toNibble &&& funcMask)) fcb fcbAcdBit) fcv fcvDfcBit
  | secondary acd dfc func =>
    setIf (setIf (func.toNibble &&& funcMask) acd fcbAcdBit) dfc fcvDfcBit

/-- The control field in an octet, read in a direction. -/
def decode (byte : UInt8) : Direction → Option ControlField
  | .primary =>
    (FuncCodePrimary.fromNibble (byte &&& funcMask)).map
      (primary (byte &&& fcbAcdBit != 0) (byte &&& fcvDfcBit != 0))
  | .secondary =>
    (FuncCodeSecondary.fromNibble (byte &&& funcMask)).map
      (secondary (byte &&& fcbAcdBit != 0) (byte &&& fcvDfcBit != 0))

/-- **A control field is read back**, in its own direction. -/
@[simp] theorem decode_encode (cf : ControlField) : decode cf.encode cf.direction = some cf := by
  cases cf with
  | primary fcb fcv func => revert fcb fcv; cases func <;> decide
  | secondary acd dfc func => revert acd dfc; cases func <;> decide

@[simp] theorem decode_encode_primary (fcb fcv : Bool) (func : FuncCodePrimary) :
    decode (encode (primary fcb fcv func)) .primary = some (primary fcb fcv func) :=
  decode_encode _

@[simp] theorem decode_encode_secondary (acd dfc : Bool) (func : FuncCodeSecondary) :
    decode (encode (secondary acd dfc func)) .secondary = some (secondary acd dfc func) :=
  decode_encode _

end ControlField

/-! ## Frames -/

/-- The frames of one octet (`SingleChar`). -/
inductive SingleChar where
  /-- The octet `0xE5`. -/
  | ack
  /-- The octet `0xA2`. -/
  | nack
deriving DecidableEq, Repr

/-- A link address (`LinkAddress`). -/
structure LinkAddress where
  raw : UInt16
deriving DecidableEq, Repr

/-- **A frame** (`Frame101`), over a type of ASDUs. -/
inductive Frame (α : Type) where
  /-- An acknowledgement of one octet (`Single`). -/
  | single (char : SingleChar)
  /-- A control frame (`Fixed`). -/
  | fixedLength (control : UInt8) (address : LinkAddress)
  /-- A frame with an ASDU (`Variable`). -/
  | variableLength (control : UInt8) (address : LinkAddress) (asdu : α)
deriving DecidableEq, Repr

/-- Rename the ASDU of a frame. -/
def Frame.map {α β : Type} (f : α → β) : Frame α → Frame β
  | single char => single char
  | fixedLength control address => fixedLength control address
  | variableLength control address asdu => variableLength control address (f asdu)

end Frame101
