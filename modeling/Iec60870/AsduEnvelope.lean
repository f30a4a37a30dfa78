import Iec60870.AsduFile

/-!
# The ASDU envelope and the round trip over the format

An ASDU is its header and the octets of its information objects
(`asdu/envelope.rs`). Building one from a payload writes the objects;
encoding it puts the header in front of them; decoding reads the header
back and keeps the rest; and the payload is read from the rest by the type
that is expected, which has to be the type the header names.

`BuiltIn` enumerates the payload types of the crate, `BuiltIn.payload`
is their table, and `Asdu.round_trip` says of all of them, under every
choice of widths and both list layouts, that the four functions in a row
return the header and the payload they started from.
-/

namespace Iec60870

open Wire

/-- **An ASDU** (`Asdu`): the header and the octets of its objects. -/
structure Asdu where
  /-- The type identification. -/
  typeId : UInt8
  /-- The variable structure qualifier. -/
  vsq : Vsq
  /-- The cause of transmission. -/
  cot : Cot
  /-- The common address. -/
  ca : CommonAddress
  /-- The octets of the information objects. -/
  payload : Bytes
deriving DecidableEq, Repr

namespace Asdu

variable {P : Type}

/-- The length of the header (`header_len`). -/
def headerLen (addressing : AsduAddressing) : ℕ :=
  1 + 1 + addressing.cotLen + addressing.caLen

/-- Build an ASDU from a payload (`from_payload`). -/
def fromPayload (T : Payload P) (cot : Cot) (ca : CommonAddress) (vsq : Vsq)
    (payload : P) (addressing : AsduAddressing) : Asdu :=
  { typeId := T.typeId
    vsq := vsq
    cot := cot
    ca := ca
    payload := T.encodeInformationObjects payload vsq addressing }

/-- Read the payload as a value of an expected type (`decode_payload`).
Octets behind the objects are not looked at. -/
def decodePayload (T : Payload P) (a : Asdu) (addressing : AsduAddressing) :
    Except Error P :=
  if a.typeId ≠ T.typeId then
    .error (.unknownAsduType a.typeId)
  else
    (T.decodeInformationObjects a.vsq addressing).run' a.payload

/-- Write an ASDU (`encode`). -/
def encode (a : Asdu) (addressing : AsduAddressing) : Bytes :=
  [a.typeId] ++ (a.vsq.encode ++ (a.cot.encode addressing.cotSize
    ++ (encodeCa a.ca addressing.caSize ++ a.payload)))

/-- Read an ASDU (`decode`). -/
def decode (addressing : AsduAddressing) : Decoder Asdu := do
  ensure (headerLen addressing)
  let typeId ← getU8
  let vsq ← Vsq.decode
  let cot ← Cot.decode addressing.cotSize
  let ca ← decodeCa addressing.caSize
  let payload ← remaining
  return { typeId, vsq, cot, ca, payload }

/-- The header takes the octets `headerLen` counts. -/
theorem headerLen_le_length_encode (a : Asdu) (addressing : AsduAddressing) :
    headerLen addressing ≤ (a.encode addressing).length := by
  obtain ⟨cotSize, caSize, ioaSize⟩ := addressing
  cases cotSize <;> cases caSize <;>
    simp [headerLen, AsduAddressing.cotLen, AsduAddressing.caLen, encode,
      Vsq.encode, Cot.encode, Cot.encode1, Cot.encode2, encodeCa, putU16Le]

/-- **The envelope is read back**: an ASDU whose header fits its widths is
what decoding its octets returns. -/
theorem run_decode_encode (a : Asdu) (addressing : AsduAddressing)
    (hvsq : a.vsq.Fits) (hcot : a.cot.Fits addressing.cotSize)
    (hca : a.ca.Fits addressing.caSize) :
    (decode addressing).run (a.encode addressing) = .ok (a, []) := by
  unfold decode
  rw [run_ensure (a.headerLen_le_length_encode addressing), encode,
    (reads_getU8 a.typeId).run_bind, (a.vsq.reads hvsq).run_bind,
    (a.cot.reads _ hcot).run_bind, (reads_ca a.ca _ hca).run_bind]
  rfl

end Asdu

/-! ## The built-in payload types -/

/-- The payload types of the crate. -/
inductive BuiltIn where
  | M_SP_NA_1
  | M_DP_NA_1
  | M_ME_NA_1
  | M_ME_NB_1
  | M_ME_NC_1
  | M_SP_TB_1
  | M_DP_TB_1
  | M_ME_TD_1
  | M_ME_TE_1
  | M_ME_TF_1
  | C_SC_NA_1
  | C_DC_NA_1
  | C_RC_NA_1
  | C_SE_NA_1
  | C_SE_NB_1
  | C_SE_NC_1
  | C_SC_TA_1
  | C_SE_TA_1
  | C_SE_TB_1
  | C_SE_TC_1
  | M_EI_NA_1
  | C_IC_NA_1
  | C_CI_NA_1
  | C_RD_NA_1
  | C_CS_NA_1
  | C_RP_NA_1
  | F_FR_NA_1
  | F_SR_NA_1
  | F_SC_NA_1
  | F_LS_NA_1
  | F_AF_NA_1
  | F_SG_NA_1
  | F_DR_TA_1
deriving DecidableEq, Repr

namespace BuiltIn

/-- The table of the built-in payload types, each with the type of its
values. -/
def entry : BuiltIn → (P : Type) × Payload P
  | M_SP_NA_1 => ⟨_, Iec60870.M_SP_NA_1⟩
  | M_DP_NA_1 => ⟨_, Iec60870.M_DP_NA_1⟩
  | M_ME_NA_1 => ⟨_, Iec60870.M_ME_NA_1⟩
  | M_ME_NB_1 => ⟨_, Iec60870.M_ME_NB_1⟩
  | M_ME_NC_1 => ⟨_, Iec60870.M_ME_NC_1⟩
  | M_SP_TB_1 => ⟨_, Iec60870.M_SP_TB_1⟩
  | M_DP_TB_1 => ⟨_, Iec60870.M_DP_TB_1⟩
  | M_ME_TD_1 => ⟨_, Iec60870.M_ME_TD_1⟩
  | M_ME_TE_1 => ⟨_, Iec60870.M_ME_TE_1⟩
  | M_ME_TF_1 => ⟨_, Iec60870.M_ME_TF_1⟩
  | C_SC_NA_1 => ⟨_, Iec60870.C_SC_NA_1⟩
  | C_DC_NA_1 => ⟨_, Iec60870.C_DC_NA_1⟩
  | C_RC_NA_1 => ⟨_, Iec60870.C_RC_NA_1⟩
  | C_SE_NA_1 => ⟨_, Iec60870.C_SE_NA_1⟩
  | C_SE_NB_1 => ⟨_, Iec60870.C_SE_NB_1⟩
  | C_SE_NC_1 => ⟨_, Iec60870.C_SE_NC_1⟩
  | C_SC_TA_1 => ⟨_, Iec60870.C_SC_TA_1⟩
  | C_SE_TA_1 => ⟨_, Iec60870.C_SE_TA_1⟩
  | C_SE_TB_1 => ⟨_, Iec60870.C_SE_TB_1⟩
  | C_SE_TC_1 => ⟨_, Iec60870.C_SE_TC_1⟩
  | M_EI_NA_1 => ⟨_, Iec60870.M_EI_NA_1⟩
  | C_IC_NA_1 => ⟨_, Iec60870.C_IC_NA_1⟩
  | C_CI_NA_1 => ⟨_, Iec60870.C_CI_NA_1⟩
  | C_RD_NA_1 => ⟨_, Iec60870.C_RD_NA_1⟩
  | C_CS_NA_1 => ⟨_, Iec60870.C_CS_NA_1⟩
  | C_RP_NA_1 => ⟨_, Iec60870.C_RP_NA_1⟩
  | F_FR_NA_1 => ⟨_, Iec60870.F_FR_NA_1.payload⟩
  | F_SR_NA_1 => ⟨_, Iec60870.F_SR_NA_1.payload⟩
  | F_SC_NA_1 => ⟨_, Iec60870.F_SC_NA_1.payload⟩
  | F_LS_NA_1 => ⟨_, Iec60870.F_LS_NA_1.payload⟩
  | F_AF_NA_1 => ⟨_, Iec60870.F_AF_NA_1.payload⟩
  | F_SG_NA_1 => ⟨_, Iec60870.F_SG_NA_1.payload⟩
  | F_DR_TA_1 => ⟨_, Iec60870.F_DR_TA_1⟩

/-- The values of a payload type. -/
abbrev Value (t : BuiltIn) : Type := t.entry.1

/-- The payload type of an enumeration value. -/
abbrev payload (t : BuiltIn) : Payload t.Value := t.entry.2

end BuiltIn

namespace Asdu

/-- A payload that fits is read back from the ASDU built for it. -/
theorem decodePayload_fromPayload {P : Type} (T : Payload P) (cot : Cot)
    (ca : CommonAddress) (vsq : Vsq) (p : P) (addressing : AsduAddressing)
    (h : T.Fits vsq addressing p) :
    decodePayload T (fromPayload T cot ca vsq p addressing) addressing = .ok p := by
  have hr := T.reads vsq addressing p h []
  rw [List.append_nil] at hr
  unfold decodePayload
  rw [if_neg (fun hne => hne rfl)]
  show _ <$> (T.decodeInformationObjects vsq addressing).run
    (T.encodeInformationObjects p vsq addressing) = _
  rw [hr]
  rfl

/-- **The ASDU round trip over the whole format**: for every built-in
payload type, every addressing, and every header and payload that fit
their widths, encoding the ASDU built from the payload, decoding the
octets and reading the payload return the original header and the
original payload. -/
theorem round_trip (t : BuiltIn) (p : t.Value) (cot : Cot)
    (ca : CommonAddress) (vsq : Vsq) (addressing : AsduAddressing)
    (hvsq : vsq.Fits) (hcot : cot.Fits addressing.cotSize)
    (hca : ca.Fits addressing.caSize) (hp : t.payload.Fits vsq addressing p) :
    ∃ a : Asdu, (decode addressing).run
          ((fromPayload t.payload cot ca vsq p addressing).encode addressing)
        = .ok (a, [])
      ∧ a.typeId = t.payload.typeId ∧ a.vsq = vsq ∧ a.cot = cot ∧ a.ca = ca
      ∧ decodePayload t.payload a addressing = .ok p :=
  ⟨_, run_decode_encode _ addressing hvsq hcot hca, rfl, rfl, rfl, rfl,
    decodePayload_fromPayload t.payload cot ca vsq p addressing hp⟩

/-- A time tag with every subfield at its largest value. -/
def latest : Cp56Time2a :=
  { milliseconds := 0xFFFF, minute := 63, hour := 31, day := 31, dayOfWeek := 7
    month := 15, year := 127, summerTime := true, invalid := true, genuine := true }

/-- Two measured values at the last two addresses of two octets. -/
def lastTwo : List (Ioa × R32 × Qds × Cp56Time2a) :=
  [(⟨0xFFFE⟩, ⟨0x7FC00001⟩, ⟨true, true, false, true, false⟩, latest),
    (⟨0xFFFF⟩, ⟨0x80000000⟩, ⟨false, false, true, false, true⟩, latest)]

/-- The round trip of a sequence of two time-tagged floating point values,
one of them not a number, in the narrowest header. -/
theorem round_trip_lastTwo : ∃ a : Asdu, (decode ⟨.one, .one, .two⟩).run
          ((fromPayload M_ME_TF_1 ⟨⟨63⟩, true, true, 0⟩ ⟨255⟩ (.sequenceOf 2)
            lastTwo ⟨.one, .one, .two⟩).encode ⟨.one, .one, .two⟩) = .ok (a, [])
      ∧ a.typeId = 36 ∧ a.vsq = .sequenceOf 2
      ∧ a.cot = ⟨⟨63⟩, true, true, 0⟩ ∧ a.ca = ⟨255⟩
      ∧ decodePayload M_ME_TF_1 a ⟨.one, .one, .two⟩ = .ok lastTwo := by
  have ht : latest.Fits := by
    constructor <;> decide
  refine round_trip .M_ME_TF_1 lastTwo ⟨⟨63⟩, true, true, 0⟩ ⟨255⟩
    (.sequenceOf 2) ⟨.one, .one, .two⟩ (by decide) (by decide) (by decide)
    ⟨rfl, ?_, ?_, fun _ => ?_⟩
  · exact List.forall_mem_cons.2 ⟨by decide, List.forall_mem_singleton.2 (by decide)⟩
  · exact List.forall_mem_cons.2 ⟨⟨trivial, trivial, ht⟩,
      List.forall_mem_singleton.2 ⟨trivial, trivial, ht⟩⟩
  · exact List.isChain_pair.2 rfl

end Asdu

end Iec60870
