import Iec60870.AsduTypes

/-!
# File transfer types

The seven types a file transfer is made of (`asdu/types/file.rs`): file and
section ready, select and call, last section, acknowledgement, segment and
directory listing. All but the listing carry one object, an address
followed by the fields of a record; each record's `encode` and `decode`
list the fields in the order the source writes and reads them.

An enumeration's `other` variant is for the codes without a name. It is
*canonical* when its code is one of those: only then does reading the code
give the same variant back.
-/

namespace Iec60870

open Wire

/-! ## Names and lengths -/

/-- The name of a file (`NameOfFile`). -/
structure NameOfFile where
  raw : UInt16
deriving DecidableEq, Repr

/-- The codec of file names. -/
def NameOfFile.codec : Codec NameOfFile :=
  Codec.u16.via NameOfFile.raw NameOfFile.mk (fun _ => True) fun _ _ => ⟨trivial, rfl⟩

/-- The name of a section (`NameOfSection`). -/
structure NameOfSection where
  raw : UInt16
deriving DecidableEq, Repr

/-- The section name that stands for the whole file. -/
def NameOfSection.wholeFile : NameOfSection := ⟨0⟩

/-- The codec of section names. -/
def NameOfSection.codec : Codec NameOfSection :=
  Codec.u16.via NameOfSection.raw NameOfSection.mk (fun _ => True) fun _ _ => ⟨trivial, rfl⟩

/-- The mask of the three octets of a length leaves a number below `2 ^ 24`
alone. -/
theorem and_mask24 {x : UInt32} (h : x.toNat < 2 ^ 24) : x &&& 0x00FFFFFF = x := by
  refine UInt32.toNat.inj ?_
  rw [UInt32.toNat_and]
  show x.toNat &&& (2 ^ 24 - 1) = x.toNat
  rw [Nat.and_two_pow_sub_one_eq_mod, Nat.mod_eq_of_lt h]

/-- The codec of a length: the source masks it to three octets and shifts
them out. -/
def lengthCodec {α : Type} (raw : α → UInt32) (mk : UInt32 → α)
    (h : ∀ a, mk (raw a) = a) : Codec α :=
  Codec.u24.via (fun a => raw a &&& 0x00FFFFFF) mk (fun a => (raw a).toNat < 2 ^ 24) fun a ha => by
      rw [and_mask24 ha]
      exact ⟨ha, h a⟩

/-- The length of a file (`LengthOfFile`). -/
structure LengthOfFile where
  raw : UInt32
deriving DecidableEq, Repr

/-- The codec of file lengths. -/
def LengthOfFile.codec : Codec LengthOfFile :=
  lengthCodec LengthOfFile.raw LengthOfFile.mk fun _ => rfl

/-- The length of a section (`LengthOfSection`). -/
structure LengthOfSection where
  raw : UInt32
deriving DecidableEq, Repr

/-- The codec of section lengths. -/
def LengthOfSection.codec : Codec LengthOfSection :=
  lengthCodec LengthOfSection.raw LengthOfSection.mk fun _ => rfl

/-! ## Qualifiers -/

/-- The file ready qualifier (`Frq`). -/
structure Frq where
  code : UInt8
  negative : Bool
deriving DecidableEq, Repr

/-- The file is ready (`Frq::READY`). -/
def Frq.ready : Frq := ⟨0, false⟩

/-- The codec of file ready qualifiers: seven bits and a flag. -/
def Frq.codec : Codec Frq :=
  Codec.u8.via (fun q => flagged q.code q.negative)
    (fun b => { code := b &&& 0x7F, negative := b &&& 0x80 != 0 })
    (fun q => q.code ≤ 127)
    fun q h => ⟨trivial, by rw [flagged_low _ _ h, flagged_top]⟩

/-- The section ready qualifier (`Srq`). -/
structure Srq where
  code : UInt8
  negative : Bool
deriving DecidableEq, Repr

/-- The section is ready (`Srq::READY`). -/
def Srq.ready : Srq := ⟨0, false⟩

/-- The codec of section ready qualifiers: seven bits and a flag. -/
def Srq.codec : Codec Srq :=
  Codec.u8.via (fun q => flagged q.code q.negative)
    (fun b => { code := b &&& 0x7F, negative := b &&& 0x80 != 0 })
    (fun q => q.code ≤ 127)
    fun q h => ⟨trivial, by rw [flagged_low _ _ h, flagged_top]⟩

/-- The octet of two nibbles, the second one shifted up. -/
def nibbles (low high : UInt8) : UInt8 :=
  (low &&& 0x0F) ||| ((high &&& 0x0F) <<< (4 : UInt8))

theorem unpack_nibbles : ∀ l < 16, ∀ h < 16, nibbles (.ofNat l) (.ofNat h) &&& 0x0F = .ofNat l
      ∧ (nibbles (.ofNat l) (.ofNat h) >>> 4) &&& 0x0F = .ofNat h := by
  decide +kernel

/-- The two nibbles of an octet. -/
theorem nibbles_fields {low high : UInt8} (hl : low < 16) (hh : high < 16) :
    nibbles low high &&& 0x0F = low ∧ (nibbles low high >>> 4) &&& 0x0F = high := by
  have h := unpack_nibbles low.toNat hl high.toNat hh
  rwa [UInt8.ofNat_toNat, UInt8.ofNat_toNat] at h

/-- What a select and call ASDU asks for (`ScqAction`). -/
inductive ScqAction where
  | default
  | selectFile
  | requestFile
  | deactivateFile
  | deleteFile
  | selectSection
  | requestSection
  | deactivateSection
  | other (code : UInt8)
deriving DecidableEq, Repr

namespace ScqAction

/-- The code of an action (`to_bits`). -/
def toBits : ScqAction → UInt8
  | .default => 0
  | .selectFile => 1
  | .requestFile => 2
  | .deactivateFile => 3
  | .deleteFile => 4
  | .selectSection => 5
  | .requestSection => 6
  | .deactivateSection => 7
  | .other b => b &&& 0x0F

/-- The action of a code (`from_bits`). -/
def fromBits (b : UInt8) : ScqAction :=
  match b &&& 0x0F with
  | 0 => .default
  | 1 => .selectFile
  | 2 => .requestFile
  | 3 => .deactivateFile
  | 4 => .deleteFile
  | 5 => .selectSection
  | 6 => .requestSection
  | 7 => .deactivateSection
  | n => .other n

/-- A nibble without a name is canonical for `other`. -/
def Canonical : ScqAction → Prop
  | .other b => 8 ≤ b ∧ b < 16
  | _ => True

theorem toBits_other : ∀ b : UInt8, toBits (.other b) < 16 := by
  decide +kernel

/-- An action takes one nibble. -/
theorem toBits_lt (a : ScqAction) : a.toBits < 16 := by
  cases a with
  | other b => exact toBits_other b
  | _ => decide

theorem fromBits_other : ∀ b : UInt8, 8 ≤ b ∧ b < 16 → fromBits (toBits (.other b)) = .other b := by
  decide +kernel

/-- The code of a canonical action gives the action back. -/
theorem fromBits_toBits (a : ScqAction) (h : a.Canonical) : fromBits a.toBits = a := by
  cases a with
  | other b => exact fromBits_other b h
  | _ => rfl

end ScqAction

/-- The select and call qualifier (`Scq`). -/
structure Scq where
  action : ScqAction
  status : UInt8
deriving DecidableEq, Repr

/-- A qualifier from its action and status (`Scq::new`). -/
def Scq.of (action : ScqAction) (status : UInt8) : Scq := ⟨action, status &&& 0x0F⟩

/-- The codec of select and call qualifiers: two nibbles. -/
def Scq.codec : Codec Scq :=
  Codec.u8.via (fun q => nibbles q.action.toBits q.status)
    (fun b => { action := .fromBits (b &&& 0x0F), status := (b >>> 4) &&& 0x0F })
    (fun q => q.action.Canonical ∧ q.status < 16) fun q h => by
      obtain ⟨hl, hh⟩ := nibbles_fields q.action.toBits_lt h.2
      exact ⟨trivial, by rw [hl, hh, q.action.fromBits_toBits h.1]⟩

/-- The last section qualifier (`Lsq`). -/
inductive Lsq where
  | default
  | sectionWithoutDeactivate
  | sectionWithDeactivate
  | fileWithoutDeactivate
  | fileWithDeactivate
  | other (code : UInt8)
deriving DecidableEq, Repr

namespace Lsq

/-- The code of a qualifier (`to_bits`). -/
def toBits : Lsq → UInt8
  | .default => 0
  | .sectionWithoutDeactivate => 1
  | .sectionWithDeactivate => 2
  | .fileWithoutDeactivate => 3
  | .fileWithDeactivate => 4
  | .other b => b

/-- The qualifier of a code (`from_bits`). -/
def fromBits (b : UInt8) : Lsq :=
  match b with
  | 0 => .default
  | 1 => .sectionWithoutDeactivate
  | 2 => .sectionWithDeactivate
  | 3 => .fileWithoutDeactivate
  | 4 => .fileWithDeactivate
  | n => .other n

/-- An octet without a name is canonical for `other`. -/
def Canonical : Lsq → Prop
  | .other b => 5 ≤ b
  | _ => True

theorem fromBits_other : ∀ b : UInt8, 5 ≤ b → fromBits b = .other b := by
  decide +kernel

/-- The codec of last section qualifiers. -/
def codec : Codec Lsq :=
  Codec.u8.via toBits fromBits Canonical fun q h => by
    cases q with
    | other b => exact ⟨trivial, fromBits_other b h⟩
    | _ => exact ⟨trivial, rfl⟩

end Lsq

/-- What an acknowledgement says (`AfqAction`). -/
inductive AfqAction where
  | default
  | positiveFile
  | negativeFile
  | positiveSection
  | negativeSection
  | other (code : UInt8)
deriving DecidableEq, Repr

namespace AfqAction

/-- The code of an acknowledgement (`to_bits`). -/
def toBits : AfqAction → UInt8
  | .default => 0
  | .positiveFile => 1
  | .negativeFile => 2
  | .positiveSection => 3
  | .negativeSection => 4
  | .other b => b &&& 0x0F

/-- The acknowledgement of a code (`from_bits`). -/
def fromBits (b : UInt8) : AfqAction :=
  match b &&& 0x0F with
  | 0 => .default
  | 1 => .positiveFile
  | 2 => .negativeFile
  | 3 => .positiveSection
  | 4 => .negativeSection
  | n => .other n

/-- A nibble without a name is canonical for `other`. -/
def Canonical : AfqAction → Prop
  | .other b => 5 ≤ b ∧ b < 16
  | _ => True

theorem toBits_other : ∀ b : UInt8, toBits (.other b) < 16 := by
  decide +kernel

/-- An acknowledgement takes one nibble. -/
theorem toBits_lt (a : AfqAction) : a.toBits < 16 := by
  cases a with
  | other b => exact toBits_other b
  | _ => decide

theorem fromBits_other : ∀ b : UInt8, 5 ≤ b ∧ b < 16 → fromBits (toBits (.other b)) = .other b := by
  decide +kernel

/-- The code of a canonical acknowledgement gives it back. -/
theorem fromBits_toBits (a : AfqAction) (h : a.Canonical) : fromBits a.toBits = a := by
  cases a with
  | other b => exact fromBits_other b h
  | _ => rfl

end AfqAction

/-- The acknowledgement qualifier (`Afq`). -/
structure Afq where
  action : AfqAction
  status : UInt8
deriving DecidableEq, Repr

/-- A qualifier from its action and status (`Afq::new`). -/
def Afq.of (action : AfqAction) (status : UInt8) : Afq := ⟨action, status &&& 0x0F⟩

/-- The codec of acknowledgement qualifiers: two nibbles. -/
def Afq.codec : Codec Afq :=
  Codec.u8.via (fun q => nibbles q.action.toBits q.status)
    (fun b => { action := .fromBits (b &&& 0x0F), status := (b >>> 4) &&& 0x0F })
    (fun q => q.action.Canonical ∧ q.status < 16) fun q h => by
      obtain ⟨hl, hh⟩ := nibbles_fields q.action.toBits_lt h.2
      exact ⟨trivial, by rw [hl, hh, q.action.fromBits_toBits h.1]⟩

/-- The status of a file in a directory (`Sof`). -/
structure Sof where
  status : UInt8
  lastFile : Bool
  subDirectory : Bool
  active : Bool
deriving DecidableEq, Repr

namespace Sof

/-- The octet of a file's status. -/
def encode (s : Sof) : UInt8 :=
  setIf (setIf (setIf (s.status &&& 0x1F) s.lastFile 0x20) s.subDirectory 0x40) s.active 0x80

/-- The file's status in an octet. -/
def decode (b : UInt8) : Sof :=
  { status := b &&& 0x1F
    lastFile := b &&& 0x20 != 0
    subDirectory := b &&& 0x40 != 0
    active := b &&& 0x80 != 0 }

theorem decode_encode_nat : ∀ lastFile subDirectory active, ∀ s < 32,
    decode (encode ⟨.ofNat s, lastFile, subDirectory, active⟩)
      = ⟨.ofNat s, lastFile, subDirectory, active⟩ := by
  decide +kernel

/-- The codec of a file's status. -/
def codec : Codec Sof :=
  Codec.u8.via encode decode (fun s => s.status < 32) fun s h => by
    have hs := decode_encode_nat s.lastFile s.subDirectory s.active s.status.toNat h
    rw [UInt8.ofNat_toNat] at hs
    exact ⟨trivial, hs⟩

end Sof

/-- The checksum of a section (`Checksum`): the sum of its octets. -/
structure Checksum where
  raw : UInt8
deriving DecidableEq, Repr

/-- The checksum of no octets (`Checksum::default`). -/
def Checksum.zero : Checksum := ⟨0⟩

/-- Add the octets of a segment (`update_slice`). -/
def Checksum.updateSlice (c : Checksum) (data : Bytes) : Checksum :=
  ⟨data.foldl (· + ·) c.raw⟩

/-- The codec of checksums. -/
def Checksum.codec : Codec Checksum :=
  Codec.u8.via Checksum.raw Checksum.mk (fun _ => True) fun _ _ => ⟨trivial, rfl⟩

/-! ## File ready -/

/-- File ready (`F_FR_NA_1`). -/
structure F_FR_NA_1 where
  ioa : Ioa
  nof : NameOfFile
  lof : LengthOfFile
  frq : Frq
deriving DecidableEq, Repr

namespace F_FR_NA_1

/-- Write a file ready object. -/
def encode (addressing : AsduAddressing) (p : F_FR_NA_1) : Bytes :=
  encodeIoa p.ioa addressing.ioaSize ++ (NameOfFile.codec.encode p.nof
    ++ (LengthOfFile.codec.encode p.lof ++ Frq.codec.encode p.frq))

/-- Read a file ready object. -/
def decode (addressing : AsduAddressing) : Decoder F_FR_NA_1 := do
  let ioa ← decodeIoa addressing.ioaSize
  let nof ← NameOfFile.codec.decode
  let lof ← LengthOfFile.codec.decode
  let frq ← Frq.codec.decode
  return { ioa, nof, lof, frq }

/-- The fields fit their octets. -/
structure Fits (addressing : AsduAddressing) (p : F_FR_NA_1) : Prop where
  ioa : p.ioa.Fits addressing.ioaSize
  lof : LengthOfFile.codec.Fits p.lof
  frq : Frq.codec.Fits p.frq

/-- The payload type of file ready objects. -/
def payload : Payload F_FR_NA_1 :=
  singlePayload 120 fun addressing =>
    { encode := encode addressing
      decode := decode addressing
      Fits := Fits addressing
      reads := fun p h =>
        (reads_ioa p.ioa _ h.ioa).bind <|
        (NameOfFile.codec.reads p.nof trivial).bind <|
        (LengthOfFile.codec.reads p.lof h.lof).bind <|
        (Frq.codec.reads p.frq h.frq).map _ }

end F_FR_NA_1

/-! ## Section ready -/

/-- Section ready (`F_SR_NA_1`). -/
structure F_SR_NA_1 where
  ioa : Ioa
  nof : NameOfFile
  nos : NameOfSection
  los : LengthOfSection
  srq : Srq
deriving DecidableEq, Repr

namespace F_SR_NA_1

/-- Write a section ready object. -/
def encode (addressing : AsduAddressing) (p : F_SR_NA_1) : Bytes :=
  encodeIoa p.ioa addressing.ioaSize ++ (NameOfFile.codec.encode p.nof
    ++ (NameOfSection.codec.encode p.nos
      ++ (LengthOfSection.codec.encode p.los ++ Srq.codec.encode p.srq)))

/-- Read a section ready object. -/
def decode (addressing : AsduAddressing) : Decoder F_SR_NA_1 := do
  let ioa ← decodeIoa addressing.ioaSize
  let nof ← NameOfFile.codec.decode
  let nos ← NameOfSection.codec.decode
  let los ← LengthOfSection.codec.decode
  let srq ← Srq.codec.decode
  return { ioa, nof, nos, los, srq }

/-- The fields fit their octets. -/
structure Fits (addressing : AsduAddressing) (p : F_SR_NA_1) : Prop where
  ioa : p.ioa.Fits addressing.ioaSize
  los : LengthOfSection.codec.Fits p.los
  srq : Srq.codec.Fits p.srq

/-- The payload type of section ready objects. -/
def payload : Payload F_SR_NA_1 :=
  singlePayload 121 fun addressing =>
    { encode := encode addressing
      decode := decode addressing
      Fits := Fits addressing
      reads := fun p h =>
        (reads_ioa p.ioa _ h.ioa).bind <|
        (NameOfFile.codec.reads p.nof trivial).bind <|
        (NameOfSection.codec.reads p.nos trivial).bind <|
        (LengthOfSection.codec.reads p.los h.los).bind <|
        (Srq.codec.reads p.srq h.srq).map _ }

end F_SR_NA_1

/-! ## Select and call -/

/-- Select, call, deactivate or delete (`F_SC_NA_1`). -/
structure F_SC_NA_1 where
  ioa : Ioa
  nof : NameOfFile
  nos : NameOfSection
  scq : Scq
deriving DecidableEq, Repr

namespace F_SC_NA_1

/-- Write a select and call object. -/
def encode (addressing : AsduAddressing) (p : F_SC_NA_1) : Bytes :=
  encodeIoa p.ioa addressing.ioaSize ++ (NameOfFile.codec.encode p.nof
    ++ (NameOfSection.codec.encode p.nos ++ Scq.codec.encode p.scq))

/-- Read a select and call object. -/
def decode (addressing : AsduAddressing) : Decoder F_SC_NA_1 := do
  let ioa ← decodeIoa addressing.ioaSize
  let nof ← NameOfFile.codec.decode
  let nos ← NameOfSection.codec.decode
  let scq ← Scq.codec.decode
  return { ioa, nof, nos, scq }

/-- The fields fit their octets. -/
structure Fits (addressing : AsduAddressing) (p : F_SC_NA_1) : Prop where
  ioa : p.ioa.Fits addressing.ioaSize
  scq : Scq.codec.Fits p.scq

/-- The payload type of select and call objects. -/
def payload : Payload F_SC_NA_1 :=
  singlePayload 122 fun addressing =>
    { encode := encode addressing
      decode := decode addressing
      Fits := Fits addressing
      reads := fun p h =>
        (reads_ioa p.ioa _ h.ioa).bind <|
        (NameOfFile.codec.reads p.nof trivial).bind <|
        (NameOfSection.codec.reads p.nos trivial).bind <|
        (Scq.codec.reads p.scq h.scq).map _ }

end F_SC_NA_1

/-! ## Last section -/

/-- Last section or segment, with the checksum (`F_LS_NA_1`). -/
structure F_LS_NA_1 where
  ioa : Ioa
  nof : NameOfFile
  nos : NameOfSection
  lsq : Lsq
  chs : Checksum
deriving DecidableEq, Repr

namespace F_LS_NA_1

/-- Write a last section object. -/
def encode (addressing : AsduAddressing) (p : F_LS_NA_1) : Bytes :=
  encodeIoa p.ioa addressing.ioaSize ++ (NameOfFile.codec.encode p.nof
    ++ (NameOfSection.codec.encode p.nos
      ++ (Lsq.codec.encode p.lsq ++ Checksum.codec.encode p.chs)))

/-- Read a last section object. -/
def decode (addressing : AsduAddressing) : Decoder F_LS_NA_1 := do
  let ioa ← decodeIoa addressing.ioaSize
  let nof ← NameOfFile.codec.decode
  let nos ← NameOfSection.codec.decode
  let lsq ← Lsq.codec.decode
  let chs ← Checksum.codec.decode
  return { ioa, nof, nos, lsq, chs }

/-- The fields fit their octets. -/
structure Fits (addressing : AsduAddressing) (p : F_LS_NA_1) : Prop where
  ioa : p.ioa.Fits addressing.ioaSize
  lsq : Lsq.codec.Fits p.lsq

/-- The payload type of last section objects. -/
def payload : Payload F_LS_NA_1 :=
  singlePayload 123 fun addressing =>
    { encode := encode addressing
      decode := decode addressing
      Fits := Fits addressing
      reads := fun p h =>
        (reads_ioa p.ioa _ h.ioa).bind <|
        (NameOfFile.codec.reads p.nof trivial).bind <|
        (NameOfSection.codec.reads p.nos trivial).bind <|
        (Lsq.codec.reads p.lsq h.lsq).bind <|
        (Checksum.codec.reads p.chs trivial).map _ }

end F_LS_NA_1

/-! ## Acknowledgement -/

/-- Acknowledge a file or section (`F_AF_NA_1`). -/
structure F_AF_NA_1 where
  ioa : Ioa
  nof : NameOfFile
  nos : NameOfSection
  afq : Afq
deriving DecidableEq, Repr

namespace F_AF_NA_1

/-- Write an acknowledgement. -/
def encode (addressing : AsduAddressing) (p : F_AF_NA_1) : Bytes :=
  encodeIoa p.ioa addressing.ioaSize ++ (NameOfFile.codec.encode p.nof
    ++ (NameOfSection.codec.encode p.nos ++ Afq.codec.encode p.afq))

/-- Read an acknowledgement. -/
def decode (addressing : AsduAddressing) : Decoder F_AF_NA_1 := do
  let ioa ← decodeIoa addressing.ioaSize
  let nof ← NameOfFile.codec.decode
  let nos ← NameOfSection.codec.decode
  let afq ← Afq.codec.decode
  return { ioa, nof, nos, afq }

/-- The fields fit their octets. -/
structure Fits (addressing : AsduAddressing) (p : F_AF_NA_1) : Prop where
  ioa : p.ioa.Fits addressing.ioaSize
  afq : Afq.codec.Fits p.afq

/-- The payload type of acknowledgements. -/
def payload : Payload F_AF_NA_1 :=
  singlePayload 124 fun addressing =>
    { encode := encode addressing
      decode := decode addressing
      Fits := Fits addressing
      reads := fun p h =>
        (reads_ioa p.ioa _ h.ioa).bind <|
        (NameOfFile.codec.reads p.nof trivial).bind <|
        (NameOfSection.codec.reads p.nos trivial).bind <|
        (Afq.codec.reads p.afq h.afq).map _ }

end F_AF_NA_1

/-! ## Segment -/

/-- A segment of section data (`F_SG_NA_1`). -/
structure F_SG_NA_1 where
  ioa : Ioa
  nof : NameOfFile
  nos : NameOfSection
  segment : Bytes
deriving DecidableEq, Repr

/-- The longest segment (`MAX_SEGMENT_BYTES`). -/
def maxSegmentBytes : ℕ := 0xFF

namespace F_SG_NA_1

/-- Write a segment. A longer one than the length octet can say is cut. -/
def encode (addressing : AsduAddressing) (p : F_SG_NA_1) : Bytes :=
  let len := UInt8.ofNat (min p.segment.length maxSegmentBytes)
  encodeIoa p.ioa addressing.ioaSize ++ (NameOfFile.codec.encode p.nof
    ++ (NameOfSection.codec.encode p.nos ++ ([len] ++ p.segment.take len.toNat)))

/-- Read a segment. -/
def decode (addressing : AsduAddressing) : Decoder F_SG_NA_1 := do
  let ioa ← decodeIoa addressing.ioaSize
  let nof ← NameOfFile.codec.decode
  let nos ← NameOfSection.codec.decode
  ensure 1
  let len ← getU8
  let segment ← take len.toNat
  return { ioa, nof, nos, segment }

/-- The fields fit their octets. -/
structure Fits (addressing : AsduAddressing) (p : F_SG_NA_1) : Prop where
  ioa : p.ioa.Fits addressing.ioaSize
  segment : p.segment.length ≤ 255

/-- The length octet of a segment that fits is its length. -/
theorem toNat_len {s : Bytes} (h : s.length ≤ 255) :
    (UInt8.ofNat (min s.length maxSegmentBytes)).toNat = s.length := by
  have hm : min s.length maxSegmentBytes = s.length := Nat.min_eq_left h
  rw [hm, UInt8.toNat_ofNat', Nat.mod_eq_of_lt (Nat.lt_succ_of_le h)]

/-- A segment that fits is read back. -/
theorem reads (addressing : AsduAddressing) (p : F_SG_NA_1) (h : p.Fits addressing) :
    Reads (decode addressing) (p.encode addressing) p := by
  have hl := toNat_len h.segment
  have hs : p.segment.take (UInt8.ofNat
      (min p.segment.length maxSegmentBytes)).toNat = p.segment := by
    rw [hl, List.take_length]
  refine (reads_ioa p.ioa _ h.ioa).bind ?_
  refine (NameOfFile.codec.reads p.nof trivial).bind ?_
  refine (NameOfSection.codec.reads p.nos trivial).bind ?_
  refine Reads.ensure (Nat.le_add_left _ _) ?_
  refine (reads_getU8 _).bind ?_
  rw [hs, hl]
  exact (reads_take p.segment).map _

/-- The payload type of segments. -/
def payload : Payload F_SG_NA_1 :=
  singlePayload 125 fun addressing =>
    ⟨encode addressing, decode addressing, Fits addressing, reads addressing⟩

end F_SG_NA_1

/-! ## Directory -/

/-- An entry of a directory listing (`DirectoryEntry`). -/
structure DirectoryEntry where
  nof : NameOfFile
  lof : LengthOfFile
  sof : Sof
  time : Cp56Time2a
deriving DecidableEq, Repr

namespace DirectoryEntry

/-- Write an entry (`DirectoryEntry::encode`). -/
def encode (e : DirectoryEntry) : Bytes :=
  NameOfFile.codec.encode e.nof ++ (LengthOfFile.codec.encode e.lof
    ++ (Sof.codec.encode e.sof ++ Cp56Time2a.codec.encode e.time))

/-- Read an entry (`DirectoryEntry::decode`). -/
def decode : Decoder DirectoryEntry := do
  ensure 13
  let nof ← NameOfFile.codec.decode
  let lof ← LengthOfFile.codec.decode
  let sof ← Sof.codec.decode
  let time ← Cp56Time2a.codec.decode
  return { nof, lof, sof, time }

/-- The fields fit their octets. -/
structure Fits (e : DirectoryEntry) : Prop where
  lof : LengthOfFile.codec.Fits e.lof
  sof : Sof.codec.Fits e.sof
  time : Cp56Time2a.codec.Fits e.time

/-- An entry that fits is read back. -/
theorem reads (e : DirectoryEntry) (h : e.Fits) : Reads decode e.encode e := by
  refine Reads.ensure (Nat.le_refl 13) ?_
  refine (NameOfFile.codec.reads e.nof trivial).bind ?_
  refine (LengthOfFile.codec.reads e.lof h.lof).bind ?_
  exact (Sof.codec.reads e.sof h.sof).bind ((Cp56Time2a.codec.reads e.time h.time).map _)

/-- The codec of directory entries. -/
def codec : Codec DirectoryEntry := ⟨encode, decode, Fits, reads⟩

end DirectoryEntry

/-- Directory listings (`F_DR_TA_1`). -/
def F_DR_TA_1 := ioPayload 126 DirectoryEntry.codec

end Iec60870
