import Iec60870.AsduEnvelope
import Iec60870.FileTransferSession

/-!
# File transfer ASDUs on the wire

How the service around a session turns its actions into the octets of an
ASDU and the octets it receives into inputs (`send` and `decode_ft_asdu` of
`file_transfer/service.rs`).

A session looks at little of what it receives: at the qualifiers, the data
of a segment and the checksum of the last section. `Signal` is that part,
and `heard_message` says that it survives the wire. The rest need not: an
object address and an announced length are cut to three octets.
-/

namespace FileTransfer

open Iec60870 Wire

/-- The octets the service sends for a payload (`send`). -/
def send {P : Type} (T : Payload P) (ca : CommonAddress) (payload : P) : Bytes :=
  (Asdu.fromPayload T (Cot.of Cause.fileTransfer) ca (Vsq.single 1) payload
    AsduAddressing.iec104).encode AsduAddressing.iec104

/-- The input an ASDU is for a session (`decode_ft_asdu`). -/
def decodeFtAsdu (asdu : Asdu) : Option SessionInput :=
  let addressing := AsduAddressing.iec104
  match asdu.typeId with
  | 120 => (asdu.decodePayload F_FR_NA_1.payload addressing).toOption.map .fileReady
  | 121 => (asdu.decodePayload F_SR_NA_1.payload addressing).toOption.map .sectionReady
  | 122 => (asdu.decodePayload F_SC_NA_1.payload addressing).toOption.map .selectCall
  | 123 => (asdu.decodePayload F_LS_NA_1.payload addressing).toOption.map .lastSection
  | 124 => (asdu.decodePayload F_AF_NA_1.payload addressing).toOption.map .ackFile
  | 125 => (asdu.decodePayload F_SG_NA_1.payload addressing).toOption.map .segment
  | _ => none

/-- Chunks do not come from the wire. -/
theorem decodeFtAsdu_ne_segmentReady (asdu : Asdu) (data : Bytes) :
    decodeFtAsdu asdu ≠ some (.segmentReady data) := by
  unfold decodeFtAsdu
  dsimp only
  split <;> simp

/-- The octets an action puts on the wire. -/
def message (ca : CommonAddress) : SessionAction → Option Bytes
  | .sendFileReady asdu => some (send F_FR_NA_1.payload ca asdu)
  | .sendSectionReady asdu => some (send F_SR_NA_1.payload ca asdu)
  | .sendSelectCall asdu => some (send F_SC_NA_1.payload ca asdu)
  | .sendLastSection asdu => some (send F_LS_NA_1.payload ca asdu)
  | .sendAckFile asdu => some (send F_AF_NA_1.payload ca asdu)
  | .sendSegment asdu => some (send F_SG_NA_1.payload ca asdu)
  | _ => none

/-- The input received octets are for a session, if they are an ASDU of a
file transfer. -/
def received (m : Bytes) : Option SessionInput :=
  match (Asdu.decode AsduAddressing.iec104).run m with
  | .ok (asdu, _) => decodeFtAsdu asdu
  | .error _ => none

/-! ## What a session hears -/

/-- **The part of a message a session acts on.** -/
inductive Signal where
  /-- Select the file. -/
  | select
  /-- Request the file. -/
  | request
  /-- The file is ready. -/
  | fileReady
  /-- The section is ready. -/
  | sectionReady
  /-- Data. -/
  | segment (data : Bytes)
  /-- The end of the data, with its checksum. -/
  | last (chs : Checksum)
  /-- The data has been received. -/
  | ack
deriving DecidableEq, Repr

/-- The signal of an input: none for an input that is not a message, and
none for a message that fails the session in every state. -/
def signal : SessionInput → Option Signal
  | .fileReady asdu => if asdu.frq.negative then none else some .fileReady
  | .sectionReady asdu => if asdu.srq.negative then none else some .sectionReady
  | .selectCall asdu =>
    match asdu.scq.action with
    | .selectFile => some .select
    | .requestFile => some .request
    | _ => none
  | .lastSection asdu => some (.last asdu.chs)
  | .ackFile asdu =>
    match asdu.afq.action with
    | .positiveFile | .positiveSection => some .ack
    | _ => none
  | .segment asdu => some (.segment asdu.segment)
  | _ => none

/-- The messages a signal comes from. -/
inductive Signal.Of : Signal → SessionInput → Prop
  | select {asdu : F_SC_NA_1} (h : asdu.scq.action = .selectFile) : Of .select (.selectCall asdu)
  | request {asdu : F_SC_NA_1} (h : asdu.scq.action = .requestFile) : Of .request (.selectCall asdu)
  | fileReady {asdu : F_FR_NA_1} (h : asdu.frq.negative = false) : Of .fileReady (.fileReady asdu)
  | sectionReady {asdu : F_SR_NA_1} (h : asdu.srq.negative = false) :
      Of .sectionReady (.sectionReady asdu)
  | segment (asdu : F_SG_NA_1) : Of (.segment asdu.segment) (.segment asdu)
  | last {asdu : F_LS_NA_1} {chs : Checksum} (h : asdu.chs = chs) :
      Of (.last chs) (.lastSection asdu)
  | ack {asdu : F_AF_NA_1} (h : asdu.afq.action = .positiveFile
      ∨ asdu.afq.action = .positiveSection) : Of .ack (.ackFile asdu)

/-- A signal comes from one of its messages. -/
theorem of_signal {input : SessionInput} {σ : Signal} (h : signal input = some σ) : σ.Of input := by
  cases input with
  | fileReady asdu =>
    rw [signal] at h
    split at h
    · exact absurd h (by simp)
    · rename_i hn
      obtain rfl := Option.some.inj h
      exact .fileReady (Bool.not_eq_true _ ▸ hn)
  | sectionReady asdu =>
    rw [signal] at h
    split at h
    · exact absurd h (by simp)
    · rename_i hn
      obtain rfl := Option.some.inj h
      exact .sectionReady (Bool.not_eq_true _ ▸ hn)
  | selectCall asdu =>
    rw [signal] at h
    split at h
    · rename_i ha
      obtain rfl := Option.some.inj h
      exact .select ha
    · rename_i ha
      obtain rfl := Option.some.inj h
      exact .request ha
    · exact absurd h (by simp)
  | lastSection asdu =>
    obtain rfl := Option.some.inj h
    exact .last rfl
  | ackFile asdu =>
    rw [signal] at h
    split at h
    · rename_i ha
      obtain rfl := Option.some.inj h
      exact .ack (Or.inl ha)
    · rename_i ha
      obtain rfl := Option.some.inj h
      exact .ack (Or.inr ha)
    · exact absurd h (by simp)
  | segment asdu =>
    obtain rfl := Option.some.inj h
    exact .segment asdu
  | start | segmentReady | tick | abort => exact absurd h (by simp [signal])

/-- What a session hears in received octets. -/
def heard (m : Bytes) : Option Signal := (received m).bind signal

/-! ## The wire keeps the signal -/

/-- What is sent is received as an ASDU of its type, if its payload can be read. -/
theorem received_send {P : Type} {T : Payload P} (mk : P → SessionInput)
    (ht : ∀ asdu : Asdu, asdu.typeId = T.typeId → decodeFtAsdu asdu
        = (asdu.decodePayload T AsduAddressing.iec104).toOption.map mk)
    (ca : CommonAddress) (p : P) : received (send T ca p)
      = ((Asdu.fromPayload T (Cot.of Cause.fileTransfer) ca (Vsq.single 1) p
          AsduAddressing.iec104).decodePayload T AsduAddressing.iec104).toOption.map mk := by
  have hvsq : (Vsq.single 1).Fits := by decide
  have hcot : (Cot.of Cause.fileTransfer).Fits .two := by decide
  have hd : (Asdu.decode AsduAddressing.iec104).run (send T ca p)
      = .ok (Asdu.fromPayload T (Cot.of Cause.fileTransfer) ca (Vsq.single 1) p
          AsduAddressing.iec104, []) :=
    Asdu.run_decode_encode _ _ hvsq hcot ca.raw.toNat_lt
  unfold received
  rw [hd]
  exact ht _ rfl

/-- **What comes out of the wire**: a payload with the octets of one that fits is
received as that one. -/
theorem received_send_of_fits {P : Type} {T : Payload P} (mk : P → SessionInput)
    (ht : ∀ asdu : Asdu, asdu.typeId = T.typeId → decodeFtAsdu asdu
        = (asdu.decodePayload T AsduAddressing.iec104).toOption.map mk)
    (ca : CommonAddress) {p q : P}
    (hq : T.Fits (Vsq.single 1) AsduAddressing.iec104 q)
    (he : T.encodeInformationObjects p (Vsq.single 1) AsduAddressing.iec104
      = T.encodeInformationObjects q (Vsq.single 1) AsduAddressing.iec104) :
    received (send T ca p) = some (mk q) := by
  have hsend : send T ca p = send T ca q := by
    rw [send, send, Asdu.fromPayload, Asdu.fromPayload, he]
  rw [hsend, received_send mk ht, Asdu.decodePayload_fromPayload _ _ _ _ _ _ hq]
  rfl

/-- A number cut to three octets. -/
def cut24 (x : UInt32) : UInt32 := x &&& 0x00FFFFFF

/-- Cutting a number to three octets takes its residue. -/
theorem toNat_cut24 (x : UInt32) : (cut24 x).toNat = x.toNat % 2 ^ 24 := by
  rw [cut24, UInt32.toNat_and]
  show x.toNat &&& (2 ^ 24 - 1) = _
  rw [Nat.and_two_pow_sub_one_eq_mod]

/-- A cut number fits three octets. -/
theorem cut24_lt (x : UInt32) : (cut24 x).toNat < 2 ^ 24 := by
  rw [toNat_cut24]
  exact Nat.mod_lt _ (by decide)

/-- The three octets of a number are those of the cut number. -/
theorem putU24_cut24 (x : UInt32) : putU24 (cut24 x) = putU24 x := by
  rw [putU24_eq, putU24_eq, toNat_cut24]
  exact putLe_mod 3 x.toNat

/-- The octets of a length are those of the cut length. -/
theorem encode_length_cut24 (x : UInt32) :
    putU24 (x &&& 0x00FFFFFF) = putU24 (cut24 x &&& 0x00FFFFFF) := by
  rw [and_mask24 (cut24_lt x), cut24]

/-- The octets of an object address are those of the cut address. -/
theorem encodeIoa_cut24 (ioa : Ioa) : encodeIoa ioa AsduAddressing.iec104.ioaSize
      = encodeIoa ⟨cut24 ioa.raw⟩ AsduAddressing.iec104.ioaSize :=
  (putU24_cut24 ioa.raw).symm

/-! The six messages, cut where the wire cuts them: -/
section

variable (ca : CommonAddress)

theorem received_fileReady (p : F_FR_NA_1)
    (h : Frq.codec.Fits p.frq) : received (send F_FR_NA_1.payload ca p) = some (.fileReady
        { p with ioa := ⟨cut24 p.ioa.raw⟩, lof := ⟨cut24 p.lof.raw⟩ }) := by
  refine received_send_of_fits .fileReady (fun asdu ht => ?_) ca
    ⟨cut24_lt _, cut24_lt _, h⟩ ?_
  · rw [decodeFtAsdu, ht]
    rfl
  · have hl : LengthOfFile.codec.encode p.lof
        = LengthOfFile.codec.encode ⟨cut24 p.lof.raw⟩ := encode_length_cut24 _
    show F_FR_NA_1.encode _ p = F_FR_NA_1.encode _ _
    rw [F_FR_NA_1.encode, F_FR_NA_1.encode, encodeIoa_cut24, hl]

theorem heard_fileReady (p : F_FR_NA_1) (h : Frq.codec.Fits p.frq) :
    heard (send F_FR_NA_1.payload ca p) = signal (.fileReady p) := by
  rw [heard, received_fileReady ca p h]
  rfl

theorem received_sectionReady (p : F_SR_NA_1)
    (h : Srq.codec.Fits p.srq) : received (send F_SR_NA_1.payload ca p) = some (.sectionReady
        { p with ioa := ⟨cut24 p.ioa.raw⟩, los := ⟨cut24 p.los.raw⟩ }) := by
  refine received_send_of_fits .sectionReady (fun asdu ht => ?_) ca
    ⟨cut24_lt _, cut24_lt _, h⟩ ?_
  · rw [decodeFtAsdu, ht]
    rfl
  · have hl : LengthOfSection.codec.encode p.los
        = LengthOfSection.codec.encode ⟨cut24 p.los.raw⟩ := encode_length_cut24 _
    show F_SR_NA_1.encode _ p = F_SR_NA_1.encode _ _
    rw [F_SR_NA_1.encode, F_SR_NA_1.encode, encodeIoa_cut24, hl]

theorem heard_sectionReady (p : F_SR_NA_1) (h : Srq.codec.Fits p.srq) :
    heard (send F_SR_NA_1.payload ca p) = signal (.sectionReady p) := by
  rw [heard, received_sectionReady ca p h]
  rfl

theorem heard_selectCall (p : F_SC_NA_1) (h : Scq.codec.Fits p.scq) :
    heard (send F_SC_NA_1.payload ca p) = signal (.selectCall p) := by
  rw [heard, received_send_of_fits (T := F_SC_NA_1.payload) .selectCall (fun asdu ht => ?_) ca
    (q := { p with ioa := ⟨cut24 p.ioa.raw⟩ }) ⟨cut24_lt _, h⟩ ?_]
  · rfl
  · show F_SC_NA_1.encode _ p = F_SC_NA_1.encode _ _
    rw [F_SC_NA_1.encode, F_SC_NA_1.encode, encodeIoa_cut24]
  · rw [decodeFtAsdu, ht]
    rfl

theorem received_lastSection (p : F_LS_NA_1)
    (h : Lsq.codec.Fits p.lsq) : received (send F_LS_NA_1.payload ca p)
      = some (.lastSection { p with ioa := ⟨cut24 p.ioa.raw⟩ }) := by
  refine received_send_of_fits .lastSection (fun asdu ht => ?_) ca ⟨cut24_lt _, h⟩ ?_
  · rw [decodeFtAsdu, ht]
    rfl
  · show F_LS_NA_1.encode _ p = F_LS_NA_1.encode _ _
    rw [F_LS_NA_1.encode, F_LS_NA_1.encode, encodeIoa_cut24]

theorem heard_lastSection (p : F_LS_NA_1) (h : Lsq.codec.Fits p.lsq) :
    heard (send F_LS_NA_1.payload ca p) = signal (.lastSection p) := by
  rw [heard, received_lastSection ca p h]
  rfl

theorem heard_ackFile (p : F_AF_NA_1) (h : Afq.codec.Fits p.afq) :
    heard (send F_AF_NA_1.payload ca p) = signal (.ackFile p) := by
  rw [heard, received_send_of_fits (T := F_AF_NA_1.payload) .ackFile (fun asdu ht => ?_) ca
    (q := { p with ioa := ⟨cut24 p.ioa.raw⟩ }) ⟨cut24_lt _, h⟩ ?_]
  · rfl
  · show F_AF_NA_1.encode _ p = F_AF_NA_1.encode _ _
    rw [F_AF_NA_1.encode, F_AF_NA_1.encode, encodeIoa_cut24]
  · rw [decodeFtAsdu, ht]
    rfl

end

/-- The octets of a segment are those of the cut segment. -/
theorem encode_segment_cut (p : F_SG_NA_1) : p.encode AsduAddressing.iec104
      = F_SG_NA_1.encode AsduAddressing.iec104
        { p with ioa := ⟨cut24 p.ioa.raw⟩, segment := p.segment.take maxSegmentBytes } := by
  have hlen : min (p.segment.take maxSegmentBytes).length maxSegmentBytes
      = min p.segment.length maxSegmentBytes := by
    rw [List.length_take, Nat.min_comm maxSegmentBytes, Nat.min_assoc, Nat.min_self]
  have hle : (UInt8.ofNat (min p.segment.length maxSegmentBytes)).toNat ≤ maxSegmentBytes :=
    (Nat.mod_le _ _).trans (Nat.min_le_right _ _)
  rw [F_SG_NA_1.encode, F_SG_NA_1.encode]
  dsimp only
  rw [hlen, List.take_take, Nat.min_eq_left hle, encodeIoa_cut24]

theorem received_segment (ca : CommonAddress) (p : F_SG_NA_1) :
    received (send F_SG_NA_1.payload ca p) = some (.segment
        { p with ioa := ⟨cut24 p.ioa.raw⟩, segment := p.segment.take maxSegmentBytes }) := by
  refine received_send_of_fits .segment (fun asdu ht => ?_) ca
    ⟨cut24_lt _, List.length_take_le _ _⟩ (encode_segment_cut p)
  rw [decodeFtAsdu, ht]
  rfl

theorem heard_segment (ca : CommonAddress) (p : F_SG_NA_1) (h : p.segment.length ≤ 255) :
    heard (send F_SG_NA_1.payload ca p) = signal (.segment p) := by
  rw [heard, received_segment ca p]
  show some (Signal.segment (p.segment.take maxSegmentBytes)) = some (.segment p.segment)
  rw [List.take_of_length_le (i := maxSegmentBytes) h]

end FileTransfer
