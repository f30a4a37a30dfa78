import Iec60870.AsduCanonical

/-!
# Which octets are a list of information objects

Most payload types are lists of information objects, all of one size: an address
in front of each element, or one address in front of all of them
(`asdu/io_list.rs`). Each element decoder checks the octets it needs on its own, so
how many octets a list needs is nowhere said. It follows from the sizes of the
parts (`Wire.Fixed`): `ListType.decode_exact` has the formula, for every type, both
layouts, every count and every width of an address.

The two layouts are two ways to write the same objects, as long as the objects
have addresses in both. In a sequence only the first address is written, and the
others are counted up from it in 32 bits, without a look at the width: an object
may get an address that the other layout has no room for, and that is cut off
when it is written there. `ListType.layouts_agree_iff` says when.
-/

namespace Iec60870

open Wire

/-! ## Addresses -/

/-- An address is written as a little-endian number. -/
theorem encodeIoa_eq (ioa : Ioa) (size : IoaSize) :
    encodeIoa ioa size = putLe size.octets ioa.raw.toNat := by
  cases size with
  | one =>
    have hoctet : ioa.raw.toUInt8 = UInt8.ofNat ioa.raw.toNat := by
      refine UInt8.toNat.inj ?_
      rw [UInt32.toNat_toUInt8, UInt8.toNat_ofNat']
    show [ioa.raw.toUInt8] = [UInt8.ofNat ioa.raw.toNat]
    rw [hoctet]
  | two =>
    show putLe 2 ioa.raw.toUInt16.toNat = putLe 2 ioa.raw.toNat
    rw [UInt32.toNat_toUInt16]
    exact putLe_mod 2 ioa.raw.toNat
  | three => exact putU24_eq ioa.raw

/-- The number that an address stands for has room in 32 bits. -/
theorem toNat_ofLe_take (size : IoaSize) (s : Bytes) :
    (UInt32.ofNat (ofLe (s.take size.octets))).toNat = ofLe (s.take size.octets) := by
  refine UInt32.toNat_ofNat_of_lt' ((ofLe_take_lt size.octets s).trans_le ?_)
  cases size <;> decide

/-- **The address that a string starts with.** -/
theorem run_decodeIoa (size : IoaSize) {s : Bytes} (h : size.octets ≤ s.length) :
    (decodeIoa size).run s
      = .ok (⟨UInt32.ofNat (ofLe (s.take size.octets))⟩, s.drop size.octets) := by
  have hfits : Ioa.Fits ⟨UInt32.ofNat (ofLe (s.take size.octets))⟩ size := by
    show UInt32.toNat _ < 2 ^ (8 * size.octets)
    rw [toNat_ofLe_take, pow_mul]
    exact ofLe_take_lt size.octets s
  have hputs : encodeIoa ⟨UInt32.ofNat (ofLe (s.take size.octets))⟩ size = s.take size.octets := by
    have hback := putLe_ofLe (s.take size.octets)
    rw [List.length_take_of_le h] at hback
    rw [encodeIoa_eq, toNat_ofLe_take, hback]
  have hreads := reads_ioa _ size hfits (s.drop size.octets)
  rwa [hputs, List.take_append_drop] at hreads

theorem fixed_ioa (size : IoaSize) : Fixed (decodeIoa size) size.octets := by
  cases size with
  | one => exact Fixed.ensure le_rfl fixed_getU8.map
  | two => exact Fixed.ensure le_rfl fixed_getU16Le.map
  | three => exact Fixed.ensure le_rfl fixed_getU24.map

/-! ## Lists of elements of one size -/

section Lists

variable {E : Type} {c : Codec E} {L : ℕ} {vsq : Vsq} {addressing : AsduAddressing}
  {s rest : Bytes} {v : List (Ioa × E)}

/-- **The octets of a list**, from its count, the width of an address and the size of
an element. -/
def listOctets (vsq : Vsq) (addressing : AsduAddressing) (L : ℕ) : ℕ :=
  let n := vsq.count.toNat
  let a := addressing.ioaSize.octets
  if vsq.sequence then if n = 0 then 0 else a + n * L
  else n * (a + L)

/-- **A list is read exactly if its octets are there.** -/
theorem fixed_ioList (hc : c.Sized L) (vsq : Vsq) (addressing : AsduAddressing) :
    Fixed (decodeIoList vsq addressing c.decode) (listOctets vsq addressing L) := by
  unfold decodeIoList listOctets
  dsimp only
  cases vsq.sequence with
  | true =>
    rw [if_pos rfl, if_pos rfl]
    by_cases hcount : vsq.count.toNat = 0
    · rw [if_pos hcount, if_pos hcount]
      exact Fixed.pure []
    · rw [if_neg hcount, if_neg hcount]
      exact (fixed_ioa addressing.ioaSize).bind fun _ =>
        Fixed.counted (fun _ => Fixed.map hc) 0 vsq.count.toNat
  | false =>
    rw [if_neg Bool.false_ne_true, if_neg Bool.false_ne_true]
    exact Fixed.counted (fun _ => (fixed_ioa addressing.ioaSize).bind fun _ => Fixed.map hc) 0
      vsq.count.toNat

/-- The addresses of a sequence are counted up from the one that is written. -/
theorem ioa_of_sequence (hc : c.Closed) (hs : vsq.sequence = true)
    (h : (decodeIoList vsq addressing c.decode).run s = .ok (v, rest)) {i : ℕ}
    (hi : i < v.length) :
    v[i].1.raw.toNat = ofLe (s.take addressing.ioaSize.octets) + i := by
  have hread := yields_ioList hc vsq addressing s v rest h
  have hcount := hread.count
  have hpos : vsq.count.toNat ≠ 0 := by omega
  unfold decodeIoList at h
  dsimp only at h
  rw [if_pos hs, if_neg hpos] at h
  obtain ⟨base, r, hbase, hobjects⟩ := run_bind_eq_ok.mp h
  -- the address in front, and the value it has
  have hoctets := ((fixed_ioa addressing.ioaSize).accepts_iff s).mp ⟨base, r, hbase⟩
  rw [run_decodeIoa _ hoctets] at hbase
  obtain rfl : (⟨UInt32.ofNat (ofLe (s.take addressing.ioaSize.octets))⟩ : Ioa) = base := by
    cases hbase
    rfl
  have hturn : ∀ i, Yields (do
      let e ← c.decode
      return (⟨UInt32.ofNat (ofLe (s.take addressing.ioaSize.octets)) + UInt32.ofNat i⟩, e)
        : Decoder (Ioa × E))
      fun o => o.1 = ⟨UInt32.ofNat (ofLe (s.take addressing.ioaSize.octets)) + UInt32.ofNat i⟩ :=
    fun i => Yields.map hc fun e _ => rfl
  have haddress := (Yields.counted hturn 0 _ r v rest hobjects).2 i hi
  -- neither the address nor the index comes near 32 bits
  have hlt := ofLe_take_lt addressing.ioaSize.octets s
  have hsmall : 256 ^ addressing.ioaSize.octets ≤ 2 ^ 24 := by
    cases addressing.ioaSize <;> decide
  have hcountlt := vsq.count.toNat_lt
  rw [haddress, UInt32.toNat_add, toNat_ofLe_take, UInt32.toNat_ofNat', Nat.zero_add]
  omega

/-- **When the addresses of a sequence have room in their octets.** -/
theorem fits_of_sequence_iff (hc : c.Closed) (hs : vsq.sequence = true)
    (h : (decodeIoList vsq addressing c.decode).run s = .ok (v, rest)) :
    (∀ o ∈ v, o.1.Fits addressing.ioaSize)
      ↔ ofLe (s.take addressing.ioaSize.octets) + vsq.count.toNat
        ≤ 256 ^ addressing.ioaSize.octets := by
  have hcount := (yields_ioList hc vsq addressing s v rest h).count
  have hpow : (2 : ℕ) ^ (8 * addressing.ioaSize.octets) = 256 ^ addressing.ioaSize.octets :=
    pow_mul 2 8 _
  constructor
  · intro hfits
    by_cases hpos : vsq.count.toNat = 0
    · rw [hpos]
      exact (ofLe_take_lt addressing.ioaSize.octets s).le
    · -- the last object has the greatest address
      have hi : vsq.count.toNat - 1 < v.length := by omega
      have hlast : UInt32.toNat _ < 2 ^ _ := hfits _ (List.getElem_mem hi)
      rw [ioa_of_sequence hc hs h hi] at hlast
      omega
  · intro hle o ho
    obtain ⟨i, hi, rfl⟩ := List.mem_iff_getElem.mp ho
    show UInt32.toNat _ < 2 ^ _
    rw [ioa_of_sequence hc hs h hi]
    omega

end Lists

/-! ## The types that are lists -/

/-- The payload types that are lists of information objects (`io_payload!`,
`cmd_payload!` and the directory listing). -/
inductive ListType where
  | M_SP_NA_1
  | M_DP_NA_1
  | M_ME_NA_1
  | M_ME_NB_1
  | M_ME_NC_1
  | M_SP_TB_1
  | M_DP_TB_1
  | M_ME_TD_1
  | M_ME_TE_1
  | M_ME_TF_1
  | C_SC_NA_1
  | C_DC_NA_1
  | C_RC_NA_1
  | C_SE_NA_1
  | C_SE_NB_1
  | C_SE_NC_1
  | C_SC_TA_1
  | C_SE_TA_1
  | C_SE_TB_1
  | C_SE_TC_1
  | C_IC_NA_1
  | F_DR_TA_1
deriving DecidableEq, Repr

namespace ListType

/-- The payload type. -/
def builtIn : ListType → BuiltIn
  | M_SP_NA_1 => .M_SP_NA_1
  | M_DP_NA_1 => .M_DP_NA_1
  | M_ME_NA_1 => .M_ME_NA_1
  | M_ME_NB_1 => .M_ME_NB_1
  | M_ME_NC_1 => .M_ME_NC_1
  | M_SP_TB_1 => .M_SP_TB_1
  | M_DP_TB_1 => .M_DP_TB_1
  | M_ME_TD_1 => .M_ME_TD_1
  | M_ME_TE_1 => .M_ME_TE_1
  | M_ME_TF_1 => .M_ME_TF_1
  | C_SC_NA_1 => .C_SC_NA_1
  | C_DC_NA_1 => .C_DC_NA_1
  | C_RC_NA_1 => .C_RC_NA_1
  | C_SE_NA_1 => .C_SE_NA_1
  | C_SE_NB_1 => .C_SE_NB_1
  | C_SE_NC_1 => .C_SE_NC_1
  | C_SC_TA_1 => .C_SC_TA_1
  | C_SE_TA_1 => .C_SE_TA_1
  | C_SE_TB_1 => .C_SE_TB_1
  | C_SE_TC_1 => .C_SE_TC_1
  | C_IC_NA_1 => .C_IC_NA_1
  | F_DR_TA_1 => .F_DR_TA_1

/-- The elements of the list, with their codec. -/
def entry : ListType → (E : Type) × Codec E
  | M_SP_NA_1 => ⟨_, Siq.codec⟩
  | M_DP_NA_1 => ⟨_, Diq.codec⟩
  | M_ME_NA_1 => ⟨_, Nva.codec.pair Qds.codec⟩
  | M_ME_NB_1 => ⟨_, Sva.codec.pair Qds.codec⟩
  | M_ME_NC_1 => ⟨_, R32.codec.pair Qds.codec⟩
  | M_SP_TB_1 => ⟨_, Siq.codec.pair Cp56Time2a.codec⟩
  | M_DP_TB_1 => ⟨_, Diq.codec.pair Cp56Time2a.codec⟩
  | M_ME_TD_1 => ⟨_, Nva.codec.pair (Qds.codec.pair Cp56Time2a.codec)⟩
  | M_ME_TE_1 => ⟨_, Sva.codec.pair (Qds.codec.pair Cp56Time2a.codec)⟩
  | M_ME_TF_1 => ⟨_, R32.codec.pair (Qds.codec.pair Cp56Time2a.codec)⟩
  | C_SC_NA_1 => ⟨_, Sco.codec⟩
  | C_DC_NA_1 => ⟨_, Dco.codec⟩
  | C_RC_NA_1 => ⟨_, Rco.codec⟩
  | C_SE_NA_1 => ⟨_, Nva.codec.pair Qos.codec⟩
  | C_SE_NB_1 => ⟨_, Sva.codec.pair Qos.codec⟩
  | C_SE_NC_1 => ⟨_, R32.codec.pair Qos.codec⟩
  | C_SC_TA_1 => ⟨_, Sco.codec.pair Cp56Time2a.codec⟩
  | C_SE_TA_1 => ⟨_, Nva.codec.pair (Qos.codec.pair Cp56Time2a.codec)⟩
  | C_SE_TB_1 => ⟨_, Sva.codec.pair (Qos.codec.pair Cp56Time2a.codec)⟩
  | C_SE_TC_1 => ⟨_, R32.codec.pair (Qos.codec.pair Cp56Time2a.codec)⟩
  | C_IC_NA_1 => ⟨_, Qoi.codec⟩
  | F_DR_TA_1 => ⟨_, DirectoryEntry.codec⟩

/-- The elements of the list. -/
abbrev Element (t : ListType) : Type := t.entry.1

/-- Their codec. -/
abbrev codec (t : ListType) : Codec t.Element := t.entry.2

/-- The payload type is the list of these elements. -/
theorem entry_builtIn (t : ListType) :
    t.builtIn.entry = ⟨_, ioPayload t.builtIn.payload.typeId t.codec⟩ := by
  cases t <;> rfl

/-- The size of an element, the sum of the sizes `LEN` of its parts. -/
def elementLen : ListType → ℕ
  | M_SP_NA_1 | M_DP_NA_1 | C_SC_NA_1 | C_DC_NA_1 | C_RC_NA_1 | C_IC_NA_1 => 1
  | M_ME_NA_1 | M_ME_NB_1 | C_SE_NA_1 | C_SE_NB_1 => 2 + 1
  | M_ME_NC_1 | C_SE_NC_1 => 4 + 1
  | M_SP_TB_1 | M_DP_TB_1 | C_SC_TA_1 => 1 + 7
  | M_ME_TD_1 | M_ME_TE_1 | C_SE_TA_1 | C_SE_TB_1 => 2 + (1 + 7)
  | M_ME_TF_1 | C_SE_TC_1 => 4 + (1 + 7)
  | F_DR_TA_1 => 2 + (3 + (1 + 7))

/-- Its elements are closed. -/
theorem closed (t : ListType) : t.codec.Closed := by
  cases t <;> dsimp only [codec, Element, entry] <;> simp

@[simp] theorem sized_cp56 : Cp56Time2a.codec.Sized 7 :=
  Fixed.ensure le_rfl <| fixed_getU16Le.bind fun _ => fixed_getU8.bind fun _ =>
    fixed_getU8.bind fun _ => fixed_getU8.bind fun _ => fixed_getU8.bind fun _ =>
      fixed_getU8.map

@[simp] theorem sized_directoryEntry : DirectoryEntry.codec.Sized (2 + (3 + (1 + 7))) := by
  have hnof : NameOfFile.codec.Sized 2 := Codec.sized_u16.via
  have hlof : LengthOfFile.codec.Sized 3 := Fixed.map Codec.sized_u24
  have hsof : Sof.codec.Sized 1 := Codec.sized_u8.via
  exact Fixed.ensure le_rfl <| Fixed.bind hnof fun _ => Fixed.bind hlof fun _ =>
    Fixed.bind hsof fun _ => Fixed.map sized_cp56

@[simp] theorem sized_siq : Siq.codec.Sized 1 := Codec.sized_u8.via

@[simp] theorem sized_diq : Diq.codec.Sized 1 := Codec.sized_u8.via

@[simp] theorem sized_sco : Sco.codec.Sized 1 := Codec.sized_u8.via

@[simp] theorem sized_dco : Dco.codec.Sized 1 := Codec.sized_u8.via

@[simp] theorem sized_rco : Rco.codec.Sized 1 := Codec.sized_u8.via

@[simp] theorem sized_qoi : Qoi.codec.Sized 1 := Codec.sized_u8.via

@[simp] theorem sized_nva : Nva.codec.Sized 2 := Codec.sized_u16.via

@[simp] theorem sized_sva : Sva.codec.Sized 2 := Codec.sized_u16.via

@[simp] theorem sized_r32 : R32.codec.Sized 4 := Codec.sized_u32.via

@[simp] theorem sized_qds : Qds.codec.Sized 1 := Codec.sized_u8.via

@[simp] theorem sized_qos : Qos.codec.Sized 1 := Codec.sized_u8.via

/-- **The decoder of an element takes as many octets as its size says**, and checks for
neither more nor fewer. -/
theorem sized (t : ListType) : t.codec.Sized t.elementLen := by
  -- the sum is left as it is: its terms are those of a pair
  cases t <;> dsimp only [codec, Element, entry, elementLen] <;> simp [-Nat.reduceAdd]

/-- **Which octets are a list**: for every type of elements, every qualifier, every
addressing and every string, the list is decoded exactly if the string has the octets
of the list. It takes these and no others, has as many objects as the qualifier
counts, and in a sequence the addresses are the first one plus the index. -/
theorem decode_exact (t : ListType) (vsq : Vsq) (addressing : AsduAddressing) (s : Bytes) :
    ((∃ v rest, (decodeIoList vsq addressing t.codec.decode).run s = .ok (v, rest))
        ↔ listOctets vsq addressing t.elementLen ≤ s.length)
      ∧ ∀ v rest, (decodeIoList vsq addressing t.codec.decode).run s = .ok (v, rest) →
        rest = s.drop (listOctets vsq addressing t.elementLen)
          ∧ v.length = vsq.count.toNat
          ∧ (vsq.sequence = true → ∀ i (hi : i < v.length),
            v[i].1.raw.toNat = ofLe (s.take addressing.ioaSize.octets) + i) := by
  have hfixed := fixed_ioList t.sized vsq addressing
  refine ⟨hfixed.accepts_iff s, fun v rest h => ⟨hfixed.rest_eq h, ?_, ?_⟩⟩
  · exact (yields_ioList t.closed vsq addressing s v rest h).count
  · exact fun hs i hi => ioa_of_sequence t.closed hs h hi

/-- Two directory entries in a sequence take one address and twice thirteen octets; the
octet behind them is left, and one octet less is refused. -/
theorem decode_exact_directory :
    let vsq : Vsq := .sequenceOf 2
    listOctets vsq .iec104 F_DR_TA_1.elementLen = 29
      ∧ (∃ v, (decodeIoList vsq .iec104 F_DR_TA_1.codec.decode).run (List.replicate 30 0)
        = .ok (v, [0]) ∧ v.length = 2)
      ∧ ¬ ∃ v rest, (decodeIoList vsq .iec104 F_DR_TA_1.codec.decode).run
        (List.replicate 28 0) = .ok (v, rest) := by
  intro vsq
  refine ⟨by decide, ?_, ?_⟩
  · obtain ⟨haccept, hresult⟩ := decode_exact F_DR_TA_1 vsq .iec104 (List.replicate 30 0)
    obtain ⟨v, rest, h⟩ := haccept.mpr (by decide)
    obtain ⟨rfl, hlen, -⟩ := hresult v rest h
    exact ⟨v, h, hlen⟩
  · rw [(decode_exact F_DR_TA_1 vsq .iec104 (List.replicate 28 0)).1]
    decide

/-! ## The two layouts -/

/-- **When the two layouts carry the same objects**: what is decoded from a sequence of
`n` objects is decoded again from what is written for it with an address each, exactly
if the first address plus `n` is within the width of an address. This is also when all
the addresses have room in the width. -/
theorem layouts_agree_iff (t : ListType) (addressing : AsduAddressing) (n : UInt8)
    {s rest : Bytes} {v : List (Ioa × t.Element)}
    (h : (decodeIoList (.sequenceOf n) addressing t.codec.decode).run s = .ok (v, rest)) :
    ((decodeIoList (.single n) addressing t.codec.decode).run
          (encodeIoList v (.single n) addressing t.codec.encode) = .ok (v, [])
        ↔ ofLe (s.take addressing.ioaSize.octets) + n.toNat
          ≤ 256 ^ addressing.ioaSize.octets) ∧ ((∀ o ∈ v, o.1.Fits addressing.ioaSize)
        ↔ ofLe (s.take addressing.ioaSize.octets) + n.toNat
          ≤ 256 ^ addressing.ioaSize.octets) := by
  have hroom := fits_of_sequence_iff t.closed rfl h
  have hread := yields_ioList t.closed _ addressing s v rest h
  refine ⟨?_, hroom⟩
  refine Iff.trans ⟨fun hagain => ?_, fun hfits => ?_⟩ hroom
  · exact (yields_ioList t.closed _ addressing _ v [] hagain).separate rfl
  · have hsingle : ListRead t.codec (.single n) addressing v :=
      ⟨hread.count, hread.element, fun _ => hfits, fun hs => by cases hs⟩
    have hagain := hsingle.reads []
    rwa [List.append_nil] at hagain

/-- The last two addresses of one octet, in both layouts. -/
theorem layouts_agree_lastTwo :
    let v : List (Ioa × Siq) :=
      [(⟨254⟩, ⟨true, false, false, false, false⟩), (⟨255⟩, ⟨false, false, false, false, false⟩)]
    (decodeIoList (.sequenceOf 2) ⟨.one, .one, .one⟩ Siq.codec.decode).run [254, 1, 0]
        = .ok (v, [])
      ∧ (decodeIoList (.single 2) ⟨.one, .one, .one⟩ Siq.codec.decode).run
        (encodeIoList v (.single 2) ⟨.one, .one, .one⟩ Siq.codec.encode) = .ok (v, []) := by
  intro v
  have hread : (decodeIoList (.sequenceOf 2) ⟨.one, .one, .one⟩ Siq.codec.decode).run
      [254, 1, 0] = .ok (v, []) := rfl
  exact ⟨hread, (layouts_agree_iff M_SP_NA_1 ⟨.one, .one, .one⟩ 2 hread).1.mpr (by decide)⟩

/-- Two single points, the second one at an address that one octet has no room for. -/
def beyondLast : List (Ioa × Siq) :=
  [(⟨255⟩, ⟨true, false, false, false, false⟩), (⟨256⟩, ⟨false, false, false, false, false⟩)]

/-- The same points, the second one at the address that one octet keeps of it. -/
def wrapped : List (Ioa × Siq) :=
  [(⟨255⟩, ⟨true, false, false, false, false⟩), (⟨0⟩, ⟨false, false, false, false, false⟩)]

/-- **One address further the layouts differ**: the second object of a sequence from the
last address on gets the address 256, and with an address each it is object 0. -/
theorem layouts_differ_afterLast :
    ¬ (∀ (t : ListType) (addressing : AsduAddressing) (n : UInt8) (s rest : Bytes)
        (v : List (Ioa × t.Element)),
        (decodeIoList (.sequenceOf n) addressing t.codec.decode).run s = .ok (v, rest) →
        (decodeIoList (.single n) addressing t.codec.decode).run
          (encodeIoList v (.single n) addressing t.codec.encode) = .ok (v, []))
      ∧ (decodeIoList (.sequenceOf 2) ⟨.one, .one, .one⟩ Siq.codec.decode).run [255, 1, 0]
        = .ok (beyondLast, [])
      ∧ (decodeIoList (.single 2) ⟨.one, .one, .one⟩ Siq.codec.decode).run
          (encodeIoList beyondLast (.single 2) ⟨.one, .one, .one⟩ Siq.codec.encode)
        = .ok (wrapped, []) := by
  have hsequence : (decodeIoList (.sequenceOf 2) ⟨.one, .one, .one⟩ Siq.codec.decode).run
      [255, 1, 0] = .ok (beyondLast, []) := rfl
  have hsingle : (decodeIoList (.single 2) ⟨.one, .one, .one⟩ Siq.codec.decode).run
      (encodeIoList beyondLast (.single 2) ⟨.one, .one, .one⟩ Siq.codec.encode)
        = .ok (wrapped, []) := rfl
  refine ⟨fun hagree => ?_, hsequence, hsingle⟩
  have hagain := hagree M_SP_NA_1 ⟨.one, .one, .one⟩ 2 [255, 1, 0] [] beyondLast hsequence
  have hsame : (wrapped, ([] : Bytes)) = (beyondLast, []) :=
    Except.ok.inj (hsingle.symm.trans hagain)
  exact absurd hsame (by decide)

end ListType

end Iec60870
