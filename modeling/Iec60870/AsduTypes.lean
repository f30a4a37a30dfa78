import Iec60870.AsduElements

/-!
# Information objects and the monitor, command and system types

An ASDU carries information objects of one type (`asdu/payload.rs`). Most
types carry a list of addressed elements, in one of two layouts
(`asdu/io_list.rs`): an address in front of every element, or – in a
sequence – the address of the first object only, the others following at
consecutive addresses. The monitor and command types
(`asdu/types/monitor.rs`, `asdu/types/command.rs`) are this list with an
element type each; the system types (`asdu/types/system.rs`) carry one
object and do not look at the layout.

`Payload` is the source's trait `AsduPayload` with the values that fit and
the proof that they are read back; `ioPayload` is what the macros
`io_payload!` and `cmd_payload!` stamp out. The statement about the list
layout, for every element codec and every length, is `reads_ioList`.
-/

namespace Iec60870

open Wire

variable {E P : Type} {c : Codec E} {vsq : Vsq} {addressing : AsduAddressing}
  {objects : List (Ioa × E)}

/-! ## Lists of information objects -/

/-- Write a list of information objects (`encode_io_list`). -/
def encodeIoList (objects : List (Ioa × E)) (vsq : Vsq)
    (addressing : AsduAddressing) (encodeElement : E → Bytes) : Bytes :=
  if vsq.sequence then
    match objects with
    | [] => []
    | (ioa, first) :: rest =>
      encodeIoa ioa addressing.ioaSize
        ++ (encodeElement first ++ rest.flatMap fun o => encodeElement o.2)
  else
    objects.flatMap fun o =>
      encodeIoa o.1 addressing.ioaSize ++ encodeElement o.2

/-- Read a list of information objects (`decode_io_list`). -/
def decodeIoList (vsq : Vsq) (addressing : AsduAddressing)
    (decodeElement : Decoder E) : Decoder (List (Ioa × E)) :=
  let count := vsq.count.toNat
  if vsq.sequence then
    if count = 0 then
      return []
    else do
      let base ← decodeIoa addressing.ioaSize
      counted (fun i => do
        let e ← decodeElement
        return (⟨base.raw + UInt32.ofNat i⟩, e)) 0 count
  else
    counted (fun _ => do
      let ioa ← decodeIoa addressing.ioaSize
      let e ← decodeElement
      return (ioa, e)) 0 count

/-- **The lists of information objects a qualifier describes**: as many
objects as it counts, all of them within their widths, and at consecutive
addresses if only the first address is written. -/
structure ListFits (c : Codec E) (vsq : Vsq) (addressing : AsduAddressing)
    (objects : List (Ioa × E)) : Prop where
  /-- The qualifier counts the objects. -/
  count : objects.length = vsq.count.toNat
  /-- The addresses fit their octets. -/
  ioa : ∀ o ∈ objects, o.1.Fits addressing.ioaSize
  /-- The elements fit theirs. -/
  element : ∀ o ∈ objects, c.Fits o.2
  /-- The addresses of a sequence are consecutive. -/
  consecutive : vsq.sequence = true → objects.IsChain fun o o' => o'.1.raw.toNat = o.1.raw.toNat + 1

/-- The `k`-th of consecutive addresses is the first one plus `k`. -/
theorem ioa_of_consecutive (o : Ioa × E) (os : List (Ioa × E))
    (h : (o :: os).IsChain fun o o' => o'.1.raw.toNat = o.1.raw.toNat + 1) :
    ∀ k (hk : k < (o :: os).length), (o :: os)[k].1 = ⟨o.1.raw + UInt32.ofNat k⟩ := by
  induction os generalizing o with
  | nil =>
    intro k hk
    obtain rfl : k = 0 := by simpa using hk
    simp
  | cons o' os ih =>
    intro k hk
    obtain ⟨hnext, hrest⟩ := List.isChain_cons_cons.1 h
    have hraw : o'.1.raw = o.1.raw + 1 := by
      refine UInt32.toNat.inj ?_
      have hlt := o'.1.raw.toNat_lt
      rw [UInt32.toNat_add, ← Nat.mod_eq_of_lt hlt, hnext]
      rfl
    cases k with
    | zero => simp
    | succ k =>
      have hk' : k < (o' :: os).length := Nat.lt_of_succ_lt_succ hk
      show (o' :: os)[k].1 = _
      rw [ih o' hrest k hk', hraw, Nat.add_comm k 1, UInt32.ofNat_add, UInt32.add_assoc]
      rfl

/-- **The lists of information objects that can come out of a string**: as many
objects as the qualifier counts, with elements that fit; the addresses fit their
octets, or in a sequence the first one does and the others are counted up from it,
even if they have no room in the octets any more. -/
structure ListRead (c : Codec E) (vsq : Vsq) (addressing : AsduAddressing)
    (objects : List (Ioa × E)) : Prop where
  count : objects.length = vsq.count.toNat
  element : ∀ o ∈ objects, c.Fits o.2
  separate : vsq.sequence = false → ∀ o ∈ objects, o.1.Fits addressing.ioaSize
  sequence : vsq.sequence = true → ∃ base : Ioa, base.Fits addressing.ioaSize
    ∧ ∀ k (hk : k < objects.length), objects[k].1 = ⟨base.raw + UInt32.ofNat k⟩

/-- **Such a list is read back** from what is written for it, in either layout. -/
theorem ListRead.reads (h : ListRead c vsq addressing objects) :
    Reads (decodeIoList vsq addressing c.decode)
      (encodeIoList objects vsq addressing c.encode) objects := by
  unfold decodeIoList encodeIoList
  cases hs : vsq.sequence with
  | true =>
    -- one address: the elements follow it, and the loop counts upwards
    obtain ⟨base, hbase, haddress⟩ := h.sequence hs
    rw [if_pos rfl, if_pos rfl, ← h.count]
    cases objects with
    | nil => exact Reads.pure []
    | cons o os =>
      obtain rfl : o.1 = base :=
        (haddress 0 (Nat.succ_pos _)).trans (congrArg Ioa.mk (UInt32.add_zero base.raw))
      refine (reads_ioa o.1 _ hbase).bind ?_
      refine Reads.counted (fun o : Ioa × E => c.encode o.2) fun k hk => ?_
      rw [Nat.zero_add, ← haddress k hk]
      exact (c.reads _ (h.element _ (List.getElem_mem hk))).map _
  | false =>
    -- an address each: every turn of the loop reads a whole object
    rw [if_neg Bool.false_ne_true, if_neg Bool.false_ne_true, ← h.count]
    refine Reads.counted (fun o : Ioa × E => encodeIoa o.1 addressing.ioaSize ++ c.encode o.2)
      fun k hk => ?_
    have hm := List.getElem_mem hk
    exact (reads_ioa _ _ (h.separate hs _ hm)).bind ((c.reads _ (h.element _ hm)).map _)

/-- A list that a qualifier describes can come out of a string. -/
theorem ListFits.listRead (h : ListFits c vsq addressing objects) :
    ListRead c vsq addressing objects where
  count := h.count
  element := h.element
  separate _ := h.ioa
  sequence hs := by
    cases objects with
    | nil =>
      refine ⟨⟨0⟩, ?_, fun k hk => absurd hk (Nat.not_lt_zero k)⟩
      exact Nat.pow_pos (by decide)
    | cons o os =>
      exact ⟨o.1, h.ioa o List.mem_cons_self, ioa_of_consecutive o os (h.consecutive hs)⟩

/-- **A list of information objects is read back** in either layout, for
every element codec. -/
theorem reads_ioList (c : Codec E) (vsq : Vsq) (addressing : AsduAddressing)
    (objects : List (Ioa × E)) (h : ListFits c vsq addressing objects) :
    Reads (decodeIoList vsq addressing c.decode)
      (encodeIoList objects vsq addressing c.encode) objects :=
  h.listRead.reads

/-! ## Payload types -/

/-- **A payload type** (`AsduPayload`): its type identification, how its
information objects are written and read under a qualifier and an
addressing, which values fit there, and that those are read back. -/
structure Payload (P : Type) where
  /-- The type identification (`TYPE_ID`). -/
  typeId : UInt8
  /-- Write the information objects (`encode_information_objects`). -/
  encodeInformationObjects : P → Vsq → AsduAddressing → Bytes
  /-- Read the information objects (`decode_information_objects`). -/
  decodeInformationObjects : Vsq → AsduAddressing → Decoder P
  /-- The values the qualifier describes and the widths have room for. -/
  Fits : Vsq → AsduAddressing → P → Prop
  /-- Those values are read back. -/
  reads : ∀ vsq addressing p, Fits vsq addressing p →
    Reads (decodeInformationObjects vsq addressing) (encodeInformationObjects p vsq addressing) p

/-- A payload type that is a list of addressed elements (`io_payload!`,
`cmd_payload!`). -/
def ioPayload (typeId : UInt8) (c : Codec E) : Payload (List (Ioa × E)) where
  typeId := typeId
  encodeInformationObjects objects vsq addressing :=
    encodeIoList objects vsq addressing c.encode
  decodeInformationObjects vsq addressing :=
    decodeIoList vsq addressing c.decode
  Fits := ListFits c
  reads := reads_ioList c

/-- A payload type with one object, whatever the qualifier says: `codec`
writes and reads the object under an addressing. -/
def singlePayload (typeId : UInt8) (codec : AsduAddressing → Codec P) :
    Payload P where
  typeId := typeId
  encodeInformationObjects p _ addressing := (codec addressing).encode p
  decodeInformationObjects _ addressing := (codec addressing).decode
  Fits _ addressing p := (codec addressing).Fits p
  reads _ addressing p h := (codec addressing).reads p h

/-! ## Monitor types -/

/-- Single points. -/
def M_SP_NA_1 := ioPayload 1 Siq.codec

/-- Double points. -/
def M_DP_NA_1 := ioPayload 3 Diq.codec

/-- Normalized measured values. -/
def M_ME_NA_1 := ioPayload 9 (Nva.codec.pair Qds.codec)

/-- Scaled measured values. -/
def M_ME_NB_1 := ioPayload 11 (Sva.codec.pair Qds.codec)

/-- Short floating point measured values. -/
def M_ME_NC_1 := ioPayload 13 (R32.codec.pair Qds.codec)

/-- Single points with a time tag. -/
def M_SP_TB_1 := ioPayload 30 (Siq.codec.pair Cp56Time2a.codec)

/-- Double points with a time tag. -/
def M_DP_TB_1 := ioPayload 31 (Diq.codec.pair Cp56Time2a.codec)

/-- Normalized measured values with a time tag. -/
def M_ME_TD_1 := ioPayload 34 (Nva.codec.pair (Qds.codec.pair Cp56Time2a.codec))

/-- Scaled measured values with a time tag. -/
def M_ME_TE_1 := ioPayload 35 (Sva.codec.pair (Qds.codec.pair Cp56Time2a.codec))

/-- Short floating point measured values with a time tag. -/
def M_ME_TF_1 := ioPayload 36 (R32.codec.pair (Qds.codec.pair Cp56Time2a.codec))

/-! ## Command types -/

/-- Single commands. -/
def C_SC_NA_1 := ioPayload 45 Sco.codec

/-- Double commands. -/
def C_DC_NA_1 := ioPayload 46 Dco.codec

/-- Regulating step commands. -/
def C_RC_NA_1 := ioPayload 47 Rco.codec

/-- Normalized set points. -/
def C_SE_NA_1 := ioPayload 48 (Nva.codec.pair Qos.codec)

/-- Scaled set points. -/
def C_SE_NB_1 := ioPayload 49 (Sva.codec.pair Qos.codec)

/-- Short floating point set points. -/
def C_SE_NC_1 := ioPayload 50 (R32.codec.pair Qos.codec)

/-- Single commands with a time tag. -/
def C_SC_TA_1 := ioPayload 58 (Sco.codec.pair Cp56Time2a.codec)

/-- Normalized set points with a time tag. -/
def C_SE_TA_1 := ioPayload 61 (Nva.codec.pair (Qos.codec.pair Cp56Time2a.codec))

/-- Scaled set points with a time tag. -/
def C_SE_TB_1 := ioPayload 62 (Sva.codec.pair (Qos.codec.pair Cp56Time2a.codec))

/-- Short floating point set points with a time tag. -/
def C_SE_TC_1 := ioPayload 63 (R32.codec.pair (Qos.codec.pair Cp56Time2a.codec))

/-- Interrogations. -/
def C_IC_NA_1 := ioPayload 100 Qoi.codec

/-! ## System types

The source's records `{ ioa, coi }` and their relatives are an address
followed by one element, written and read in this order. -/

/-- An address and one element. -/
def addressed (c : Codec E) (addressing : AsduAddressing) : Codec (Ioa × E) :=
  (ioaCodec addressing.ioaSize).pair c

/-- End of initialisation. -/
def M_EI_NA_1 := singlePayload 70 (addressed Coi.codec)

/-- Counter interrogation. -/
def C_CI_NA_1 := singlePayload 101 (addressed Qcc.codec)

/-- Read command. -/
def C_RD_NA_1 := singlePayload 102 fun a => ioaCodec a.ioaSize

/-- Clock synchronisation. -/
def C_CS_NA_1 := singlePayload 103 (addressed Cp56Time2a.codec)

/-- Reset process. -/
def C_RP_NA_1 := singlePayload 105 (addressed Qrp.codec)

end Iec60870
