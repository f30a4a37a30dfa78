import Iec60870.AsduEnvelope
import Iec60870.WireExact

/-!
# What has been decoded stays what it is

The elements of an ASDU have reserved bits, time tags with room for an hour 31,
and enumerations with codes that have no name. A peer may send any of this, and
decoding does not refuse it: it masks the bits it knows and keeps the codes it
does not. The octets are therefore not what one would write oneself, and writing
the value again gives other octets. Its meaning must not change, though: what has
been decoded once is decoded again from what is written for it.

Every element codec is *closed* (`Wire.Codec.Closed`): what it reads fits the
format, because each subfield is masked to its bits and each enumeration names its
codes in one way. The addresses of a sequence are no exception: they may grow
beyond their octets, but only the first one is ever written.
-/

namespace Iec60870

open Wire

/-! ## Addresses and elements -/

/-- An address that has been read fits its octets. -/
theorem closed_ioa (size : IoaSize) : (ioaCodec size).Closed := by
  cases size with
  | one =>
    refine Yields.ensure ((Yields.trivial getU8).map fun b _ => ?_)
    show b.toUInt32.toNat < 2 ^ 8
    rw [UInt8.toNat_toUInt32]
    exact b.toNat_lt
  | two =>
    refine Yields.ensure ((Yields.trivial getU16Le).map fun x _ => ?_)
    show x.toUInt32.toNat < 2 ^ 16
    rw [UInt16.toNat_toUInt32]
    exact x.toNat_lt
  | three => exact Yields.ensure (yields_getU24.map fun _ hx => hx)

@[simp] theorem closed_siq : Siq.codec.Closed := Codec.closed_u8_via fun _ => trivial

@[simp] theorem closed_diq : Diq.codec.Closed := Codec.closed_u8_via fun _ => trivial

@[simp] theorem closed_qds : Qds.codec.Closed := Codec.closed_u8_via fun _ => trivial

@[simp] theorem closed_nva : Nva.codec.Closed := Codec.closed_u16.via fun _ _ => trivial

@[simp] theorem closed_sva : Sva.codec.Closed := Codec.closed_u16.via fun _ _ => trivial

@[simp] theorem closed_r32 : R32.codec.Closed := Codec.closed_u32.via fun _ _ => trivial

/-- Five bits that have been shifted down. -/
theorem qualifier_lt : ∀ b : UInt8, (b >>> 2) &&& 0x1F < 32 := by decide +kernel

/-- The seven bits beside a flag. -/
theorem low_le : ∀ b : UInt8, b &&& 0x7F ≤ 127 := by decide +kernel

@[simp] theorem closed_sco : Sco.codec.Closed := Codec.closed_u8_via qualifier_lt

@[simp] theorem closed_dco : Dco.codec.Closed := Codec.closed_u8_via qualifier_lt

@[simp] theorem closed_rco : Rco.codec.Closed := Codec.closed_u8_via qualifier_lt

@[simp] theorem closed_qos : Qos.codec.Closed := Codec.closed_u8_via low_le

@[simp] theorem closed_qoi : Qoi.codec.Closed := Codec.closed_u8_via fun _ => trivial

@[simp] theorem closed_coi : Coi.codec.Closed := Codec.closed_u8_via low_le

@[simp] theorem closed_qcc : Qcc.codec.Closed := by
  have hfields : ∀ b : UInt8, b &&& 0x3F < 64 ∧ (b >>> 6) &&& 0x03 < 4 := by decide +kernel
  exact Codec.closed_u8_via hfields

@[simp] theorem closed_qrp : Qrp.codec.Closed := Codec.closed_u8_via fun _ => trivial

/-- A time tag that has been read fits, if it is a time of day or not. -/
@[simp] theorem closed_cp56 : Cp56Time2a.codec.Closed := by
  have hminute : ∀ b : UInt8, b &&& 0x3F < 64 := by decide +kernel
  have hhour : ∀ b : UInt8, b &&& 0x1F < 32 := by decide +kernel
  have hweek : ∀ b : UInt8, (b >>> 5) &&& 0x07 < 8 := by decide +kernel
  have hmonth : ∀ b : UInt8, b &&& 0x0F < 16 := by decide +kernel
  have hyear : ∀ b : UInt8, b &&& 0x7F < 128 := by decide +kernel
  refine Yields.ensure ((Yields.trivial getU16Le).bind fun _ _ => ?_)
  refine (Yields.trivial getU8).bind fun minute _ => ?_
  refine (Yields.trivial getU8).bind fun hour _ => ?_
  refine (Yields.trivial getU8).bind fun day _ => ?_
  refine (Yields.trivial getU8).bind fun month _ => ?_
  exact (Yields.trivial getU8).map fun year _ =>
    ⟨hminute minute, hhour hour, hhour day, hweek day, hmonth month, hyear year⟩

/-! ## Elements of file transfers -/

theorem closed_nameOfFile : NameOfFile.codec.Closed :=
  Codec.closed_u16.via fun _ _ => trivial

theorem closed_nameOfSection : NameOfSection.codec.Closed :=
  Codec.closed_u16.via fun _ _ => trivial

theorem closed_lengthCodec {α : Type} {raw : α → UInt32} {mk : UInt32 → α}
    (h : ∀ a, mk (raw a) = a) (hraw : ∀ x, raw (mk x) = x) : (lengthCodec raw mk h).Closed :=
  Codec.Closed.via Codec.closed_u24 fun x hx => by
    rw [hraw]
    exact hx

theorem closed_lengthOfFile : LengthOfFile.codec.Closed := closed_lengthCodec _ fun _ => rfl

theorem closed_lengthOfSection : LengthOfSection.codec.Closed :=
  closed_lengthCodec _ fun _ => rfl

theorem closed_frq : Frq.codec.Closed := Codec.closed_u8_via low_le

theorem closed_srq : Srq.codec.Closed := Codec.closed_u8_via low_le

theorem closed_checksum : Checksum.codec.Closed := Codec.closed_u8_via fun _ => trivial

theorem closed_sof : Sof.codec.Closed := by
  have hstatus : ∀ b : UInt8, b &&& 0x1F < 32 := by decide +kernel
  exact Codec.closed_u8_via hstatus

instance : DecidablePred ScqAction.Canonical
  | .other b => inferInstanceAs (Decidable (8 ≤ b ∧ b < 16))
  | .default | .selectFile | .requestFile | .deactivateFile | .deleteFile
  | .selectSection | .requestSection | .deactivateSection => isTrue trivial

instance : DecidablePred AfqAction.Canonical
  | .other b => inferInstanceAs (Decidable (5 ≤ b ∧ b < 16))
  | .default | .positiveFile | .negativeFile | .positiveSection | .negativeSection =>
    isTrue trivial

instance : DecidablePred Lsq.Canonical
  | .other b => inferInstanceAs (Decidable (5 ≤ b))
  | .default | .sectionWithoutDeactivate | .sectionWithDeactivate | .fileWithoutDeactivate
  | .fileWithDeactivate => isTrue trivial

/-- A code that has a name is never read as one without. -/
theorem closed_scq : Scq.codec.Closed := by
  have hfields : ∀ b : UInt8, (ScqAction.fromBits (b &&& 0x0F)).Canonical
      ∧ (b >>> 4) &&& 0x0F < 16 := by decide +kernel
  exact Codec.closed_u8_via hfields

theorem closed_afq : Afq.codec.Closed := by
  have hfields : ∀ b : UInt8, (AfqAction.fromBits (b &&& 0x0F)).Canonical
      ∧ (b >>> 4) &&& 0x0F < 16 := by decide +kernel
  exact Codec.closed_u8_via hfields

theorem closed_lsq : Lsq.codec.Closed := by
  have hcode : ∀ b : UInt8, (Lsq.fromBits b).Canonical := by decide +kernel
  exact Codec.closed_u8_via hcode

@[simp] theorem closed_directoryEntry : DirectoryEntry.codec.Closed := by
  refine Yields.ensure (Yields.bind closed_nameOfFile fun _ _ => ?_)
  refine Yields.bind closed_lengthOfFile fun _ hlof => ?_
  refine Yields.bind closed_sof fun _ hsof => ?_
  exact Yields.map closed_cp56 fun _ htime => ⟨hlof, hsof, htime⟩

/-! ## Lists and records -/

section List

variable {E : Type} {c : Codec E} (hc : c.Closed) {vsq : Vsq} (addressing : AsduAddressing)

include hc

/-- A list under one address. -/
theorem yields_ioList_sequence (hs : vsq.sequence = true) :
    Yields (decodeIoList vsq addressing c.decode) (ListRead c vsq addressing) := by
  have hnot : ¬ vsq.sequence = false := by
    rw [hs]
    exact Bool.true_eq_false_eq_False
  unfold decodeIoList
  dsimp only
  rw [hs, if_pos rfl]
  by_cases hcount : vsq.count.toNat = 0
  · rw [if_pos hcount]
    exact Yields.pure ⟨hcount.symm, fun o ho => absurd ho List.not_mem_nil, fun h => absurd h hnot,
      fun _ => ⟨⟨0⟩, Nat.pow_pos (by decide), fun k hk => absurd hk (Nat.not_lt_zero k)⟩⟩
  · rw [if_neg hcount]
    refine Yields.bind (closed_ioa addressing.ioaSize) fun base hbase => ?_
    have hturn : ∀ i, Yields (do
        let e ← c.decode
        return (⟨base.raw + UInt32.ofNat i⟩, e) : Decoder (Ioa × E))
        fun o => o.1 = ⟨base.raw + UInt32.ofNat i⟩ ∧ c.Fits o.2 :=
      fun i => Yields.map hc fun e he => ⟨rfl, he⟩
    intro s v t hrun
    obtain ⟨hlen, hobjects⟩ := Yields.counted hturn 0 _ s v t hrun
    simp only [Nat.zero_add] at hobjects
    refine ⟨hlen, ?_, fun h => absurd h hnot, fun _ => ⟨base, hbase, fun k hk => (hobjects k hk).1⟩⟩
    intro o ho
    obtain ⟨k, hk, rfl⟩ := List.mem_iff_getElem.mp ho
    exact (hobjects k hk).2

/-- A list in which each object has its own address. -/
theorem yields_ioList_single (hs : vsq.sequence = false) :
    Yields (decodeIoList vsq addressing c.decode) (ListRead c vsq addressing) := by
  have hnot : ¬ vsq.sequence = true := by
    rw [hs]
    exact Bool.false_ne_true
  unfold decodeIoList
  dsimp only
  rw [hs, if_neg Bool.false_ne_true]
  have hturn : ∀ i : ℕ, Yields (do
      let ioa ← decodeIoa addressing.ioaSize
      let e ← c.decode
      return (ioa, e) : Decoder (Ioa × E))
      fun o => o.1.Fits addressing.ioaSize ∧ c.Fits o.2 :=
    fun _ => Yields.bind (closed_ioa addressing.ioaSize) fun _ hioa =>
      Yields.map hc fun _ he => ⟨hioa, he⟩
  intro s v t hrun
  obtain ⟨hlen, hobjects⟩ := Yields.counted hturn 0 _ s v t hrun
  have hall : ∀ o ∈ v, o.1.Fits addressing.ioaSize ∧ c.Fits o.2 := by
    intro o ho
    obtain ⟨k, hk, rfl⟩ := List.mem_iff_getElem.mp ho
    exact hobjects k hk
  exact ⟨hlen, fun o ho => (hall o ho).2, fun _ o ho => (hall o ho).1, fun h => absurd h hnot⟩

variable (vsq)

/-- **What comes out of a string**, if the elements are closed. -/
theorem yields_ioList :
    Yields (decodeIoList vsq addressing c.decode) (ListRead c vsq addressing) := by
  cases hs : vsq.sequence with
  | true => exact yields_ioList_sequence hc addressing hs
  | false => exact yields_ioList_single hc addressing hs

end List

/-- **A payload type that keeps its meaning**: what has been decoded is decoded
again from what is written for it. -/
def Payload.Canonical {P : Type} (T : Payload P) : Prop :=
  ∀ vsq addressing, Yields (T.decodeInformationObjects vsq addressing) fun p =>
    Reads (T.decodeInformationObjects vsq addressing)
      (T.encodeInformationObjects p vsq addressing) p

theorem canonical_ioPayload {E : Type} {c : Codec E} (hc : c.Closed) (typeId : UInt8) :
    (ioPayload typeId c).Canonical :=
  fun vsq addressing s p t hrun => (yields_ioList hc vsq addressing s p t hrun).reads

theorem canonical_singlePayload {P : Type} {codec : AsduAddressing → Codec P}
    (hc : ∀ addressing, (codec addressing).Closed) (typeId : UInt8) :
    (singlePayload typeId codec).Canonical :=
  fun _ addressing _ _ _ hrun => (hc addressing).reads hrun

theorem closed_addressed {E : Type} {c : Codec E} (hc : c.Closed)
    (addressing : AsduAddressing) : (addressed c addressing).Closed :=
  (closed_ioa addressing.ioaSize).pair hc

theorem canonical_F_FR_NA_1 : F_FR_NA_1.payload.Canonical := by
  refine canonical_singlePayload (fun addressing => ?_) _
  refine Yields.bind (closed_ioa addressing.ioaSize) fun _ hioa => ?_
  refine Yields.bind closed_nameOfFile fun _ _ => ?_
  refine Yields.bind closed_lengthOfFile fun _ hlof => ?_
  exact Yields.map closed_frq fun _ hfrq => ⟨hioa, hlof, hfrq⟩

/-- Most ASDUs begin with a file and a section of it. -/
theorem yields_section {P : Type} {Q : P → Prop} {size : IoaSize}
    {next : Ioa → NameOfFile → NameOfSection → Decoder P}
    (h : ∀ ioa nof nos, ioa.Fits size → Yields (next ioa nof nos) Q) :
    Yields (decodeIoa size >>= fun ioa => NameOfFile.codec.decode >>= fun nof =>
      NameOfSection.codec.decode >>= next ioa nof) Q :=
  Yields.bind (closed_ioa size) fun _ hioa => Yields.bind closed_nameOfFile fun _ _ =>
    Yields.bind closed_nameOfSection fun _ _ => h _ _ _ hioa

theorem canonical_F_SR_NA_1 : F_SR_NA_1.payload.Canonical := by
  refine canonical_singlePayload (fun addressing => ?_) _
  refine yields_section fun _ _ _ hioa => ?_
  refine Yields.bind closed_lengthOfSection fun _ hlos => ?_
  exact Yields.map closed_srq fun _ hsrq => ⟨hioa, hlos, hsrq⟩

theorem canonical_F_SC_NA_1 : F_SC_NA_1.payload.Canonical := by
  refine canonical_singlePayload (fun addressing => ?_) _
  refine yields_section fun _ _ _ hioa => ?_
  exact Yields.map closed_scq fun _ hscq => ⟨hioa, hscq⟩

theorem canonical_F_LS_NA_1 : F_LS_NA_1.payload.Canonical := by
  refine canonical_singlePayload (fun addressing => ?_) _
  refine yields_section fun _ _ _ hioa => ?_
  refine Yields.bind closed_lsq fun _ hlsq => ?_
  exact Yields.map closed_checksum fun _ _ => ⟨hioa, hlsq⟩

theorem canonical_F_AF_NA_1 : F_AF_NA_1.payload.Canonical := by
  refine canonical_singlePayload (fun addressing => ?_) _
  refine yields_section fun _ _ _ hioa => ?_
  exact Yields.map closed_afq fun _ hafq => ⟨hioa, hafq⟩

/-- A segment is as long as its length octet says. -/
theorem canonical_F_SG_NA_1 : F_SG_NA_1.payload.Canonical := by
  refine canonical_singlePayload (fun addressing => ?_) _
  refine yields_section fun _ _ _ hioa => ?_
  refine Yields.ensure ((Yields.trivial getU8).bind fun len _ => ?_)
  have hlen : Yields (take len.toNat : Decoder Bytes) fun segment =>
      segment.length ≤ 255 := by
    refine Yields.ensure fun s segment t hrun => ?_
    cases hrun
    have hlt : len.toNat < 256 := len.toNat_lt
    rw [List.length_take]
    omega
  exact Yields.map hlen fun _ hsegment => ⟨hioa, hsegment⟩

/-! ## The built-in types -/

/-- Every built-in payload type keeps its meaning. -/
theorem BuiltIn.canonical (t : BuiltIn) : t.payload.Canonical := by
  cases t with
  | C_RD_NA_1 => exact canonical_singlePayload (fun a => closed_ioa a.ioaSize) _
  | M_EI_NA_1 | C_CI_NA_1 | C_CS_NA_1 | C_RP_NA_1 =>
    exact canonical_singlePayload (closed_addressed (by simp)) _
  | F_FR_NA_1 => exact canonical_F_FR_NA_1
  | F_SR_NA_1 => exact canonical_F_SR_NA_1
  | F_SC_NA_1 => exact canonical_F_SC_NA_1
  | F_LS_NA_1 => exact canonical_F_LS_NA_1
  | F_AF_NA_1 => exact canonical_F_AF_NA_1
  | F_SG_NA_1 => exact canonical_F_SG_NA_1
  | _ => exact canonical_ioPayload (by simp) _

/-- **Decoding is canonical**: for every built-in payload type, every qualifier, every
addressing and every octet string from which a value is decoded, decoding what is
written for the value returns the value. -/
theorem BuiltIn.decode_again (t : BuiltIn) (vsq : Vsq) (addressing : AsduAddressing)
    {s rest : Bytes} {v : t.Value}
    (h : (t.payload.decodeInformationObjects vsq addressing).run s = .ok (v, rest)) :
    (t.payload.decodeInformationObjects vsq addressing).run
        (t.payload.encodeInformationObjects v vsq addressing) = .ok (v, []) := by
  have hreads := t.canonical vsq addressing s v rest h []
  rwa [List.append_nil] at hreads

/-- A single point with all reserved bits set: the octets change, and the value does
not. -/
theorem BuiltIn.decode_again_reserved :
    let v : List (Ioa × Siq) := [(⟨5⟩, ⟨true, true, true, true, true⟩)]
    (Iec60870.M_SP_NA_1.decodeInformationObjects (.single 1) .iec104).run [5, 0, 0, 0xFF]
        = .ok (v, [])
      ∧ Iec60870.M_SP_NA_1.encodeInformationObjects v (.single 1) .iec104 = [5, 0, 0, 0xF1]
      ∧ (Iec60870.M_SP_NA_1.decodeInformationObjects (.single 1) .iec104).run
          (Iec60870.M_SP_NA_1.encodeInformationObjects v (.single 1) .iec104) = .ok (v, []) := by
  intro v
  have hread : (Iec60870.M_SP_NA_1.decodeInformationObjects (.single 1) .iec104).run
      [5, 0, 0, 0xFF] = .ok (v, []) := by
    rfl
  exact ⟨hread, rfl, BuiltIn.decode_again .M_SP_NA_1 (.single 1) .iec104 hread⟩

end Iec60870
