import Iec60870.Frame101Codec

/-!
# What the checksum of a frame notices

The octets of a frame between its header and its checksum – the control
octet, the address and the ASDU – are its *core*. Both encoders put the sum of
the core behind it, modulo 256, and both decoders compare it with the sum of
what they have read: `Codec.checksumFixed_eq` and `Codec.checksumVariable_eq`
say that the two checksum functions of `frame101/codec.rs` compute it,
although they never see the octets of the address. Written this way a frame
is its header, its core and two more octets, and the decoder is a test of
these parts (`Codec.exists_decodeSlice_fixed`,
`Codec.exists_decodeSlice_variable`).

A change of one octet of the core changes the sum, as no two octets are equal
modulo 256; a change of any other octet behind the first is one of the start,
length, checksum and end octets, which are compared one by one. So every
change of a single octet is refused (`Codec.single_change_refused`), and none
makes the decoder wait for octets that do not come.
-/

namespace Frame101

open Iec60870 Wire

namespace Codec

/-! ## The sum of octets -/

/-- The sum of some octets, modulo 256. -/
def octetSum (bs : Bytes) : UInt8 := bs.foldr (fun b sum => b + sum) 0

theorem octetSum_cons (b : UInt8) (bs : Bytes) : octetSum (b :: bs) = b + octetSum bs := rfl

variable {bs : Bytes} {v : UInt8} {size : LinkAddressSize} {core : Bytes} {l : UInt8}
  {j : ℕ}

/-- **A change of one octet changes the sum.** -/
theorem octetSum_set_ne {i : ℕ} (hi : i < bs.length)
    (hv : v ≠ octet bs i) : octetSum (bs.set i v) ≠ octetSum bs := by
  induction bs generalizing i with
  | nil => exact absurd hi (Nat.not_lt_zero i)
  | cons b bs ih =>
    cases i with
    | zero =>
      rw [List.set_cons_zero, octetSum_cons, octetSum_cons]
      exact fun h => hv ((UInt8.add_left_inj _).mp h)
    | succ i =>
      rw [List.set_cons_succ, octetSum_cons, octetSum_cons]
      exact fun h => ih (Nat.lt_of_succ_lt_succ hi) hv ((UInt8.add_right_inj b).mp h)

/-- **The checksum of a frame of fixed length is the sum of its octets.** -/
theorem checksumFixed_eq (control : UInt8) (address : LinkAddress) (size : LinkAddressSize) :
    checksumFixed control address size = octetSum (control :: address.encodeTo size) := by
  obtain ⟨raw⟩ := address
  have hraw : raw.toNat < 2 ^ 16 := raw.toNat_lt
  have hlow : ∀ n : ℕ, n &&& 255 = n % 2 ^ 8 := fun n => Nat.and_two_pow_sub_one_eq_mod n 8
  refine UInt8.toNat.inj ?_
  cases size with
  | one =>
    simp only [checksumFixed, octetSum, LinkAddress.encodeTo, List.foldr_cons, List.foldr_nil,
      UInt16.toNat_toUInt8, UInt16.toNat_and, UInt16.toNat_add, UInt8.toNat_add,
      UInt8.toNat_toUInt16, UInt16.reduceToNat, UInt8.reduceToNat, hlow]
    omega
  | two =>
    simp only [checksumFixed, octetSum, LinkAddress.encodeTo, putLe, List.foldr_cons,
      List.foldr_nil, UInt16.toNat_toUInt8, UInt16.toNat_and, UInt16.toNat_add,
      UInt16.toNat_mod, UInt16.toNat_div, UInt8.toNat_add, UInt8.toNat_toUInt16,
      UInt8.toNat_ofNat', UInt16.reduceToNat, UInt8.reduceToNat, hlow]
    omega

theorem octetSum_nil : octetSum [] = 0 := rfl

theorem octetSum_append (as bs : Bytes) : octetSum (as ++ bs) = octetSum as + octetSum bs := by
  induction as with
  | nil => rw [List.nil_append, octetSum_nil, UInt8.zero_add]
  | cons a as ih => rw [List.cons_append, octetSum_cons, octetSum_cons, ih, UInt8.add_assoc]

/-- The loop of `checksum_variable` adds octets to the sum it begins with. -/
theorem foldl_checksum (bs : Bytes) (start : UInt8) :
    (bs.foldl (fun sum b => (sum + b.toUInt16) &&& 0xFF) start.toUInt16).toUInt8
      = start + octetSum bs := by
  have hstep : ∀ a b : UInt8, (a.toUInt16 + b.toUInt16) &&& 0xFF = (a + b).toUInt16 := by
    intro a b
    refine UInt16.toNat.inj ?_
    have ha := a.toNat_lt
    have hb := b.toNat_lt
    rw [UInt16.toNat_and, UInt16.toNat_add, UInt8.toNat_toUInt16, UInt8.toNat_toUInt16,
      UInt8.toNat_toUInt16, UInt8.toNat_add]
    show (a.toNat + b.toNat) % 2 ^ 16 &&& 2 ^ 8 - 1 = _
    rw [Nat.and_two_pow_sub_one_eq_mod]
    omega
  induction bs generalizing start with
  | nil =>
    rw [octetSum_nil, UInt8.add_zero]
    exact UInt8.toUInt8_toUInt16 start
  | cons b bs ih =>
    rw [List.foldl_cons, hstep, ih, octetSum_cons, UInt8.add_assoc]

/-- **So is that of a frame of variable length.** -/
theorem checksumVariable_eq (control : UInt8) (address : LinkAddress) (size : LinkAddressSize)
    (asdu : Bytes) : checksumVariable control address size asdu
      = octetSum (control :: address.encodeTo size ++ asdu) := by
  rw [octetSum_append, ← checksumFixed_eq]
  exact foldl_checksum asdu _

/-! ## A frame and its parts -/

/-- A buffer that begins with a frame of fixed length has its octets in these
places. -/
theorem encode_fixed (size : LinkAddressSize) (control : UInt8) (address : LinkAddress) :
    let core := control :: address.encodeTo size
    encode size (.fixedLength control address) = START_FIXED :: (core ++ [octetSum core, END]) := by
  rw [encode, checksumFixed_eq]
  rfl

theorem encode_variable (size : LinkAddressSize) (control : UInt8) (address : LinkAddress)
    (asdu : Bytes) :
    let core := control :: address.encodeTo size ++ asdu
    let length := UInt8.ofNat core.length
    encode size (.variableLength control address asdu)
      = START_VAR :: length :: length :: START_VAR :: (core ++ [octetSum core, END]) := by
  intro core length
  have hlength : UInt8.ofNat (1 + size.len + asdu.length) = length := by
    show _ = UInt8.ofNat (control :: address.encodeTo size ++ asdu).length
    rw [List.length_append, List.length_cons, length_encodeTo, Nat.add_comm 1]
  rw [encode, checksumVariable_eq, hlength]
  rfl

/-- Octets in the place of an address are an address that fits. -/
theorem exists_decodeFrom (h : bs.length = size.len) :
    ∃ address, LinkAddress.decodeFrom bs size = some address ∧ address.encodeTo size = bs
      ∧ FitsAddress size address := by
  cases size with
  | one =>
    match bs with
    | [b] =>
      refine ⟨⟨b.toUInt16⟩, rfl, congrArg (fun x => [x]) (UInt8.toUInt8_toUInt16 b), ?_⟩
      exact (UInt8.toNat_toUInt16 b).trans_lt b.toNat_lt
  | two =>
    match bs with
    | [lo, hi] =>
      refine ⟨⟨UInt16.ofNat (ofLe [lo, hi])⟩, rfl, ?_, trivial⟩
      show putLe 2 (UInt16.ofNat (ofLe [lo, hi])).toNat = [lo, hi]
      rw [UInt16.toNat_ofNat']
      exact (putLe_mod 2 _).trans (putLe_ofLe [lo, hi])

/-- **A buffer with the parts of a frame of fixed length.** -/
theorem exists_decodeSlice_fixed
    (hcore : core.length = 1 + size.len) (checksum stop : UInt8) (more : Bytes) :
    ∃ control address, core = control :: address.encodeTo size ∧ FitsAddress size address
      ∧ decodeSlice size (START_FIXED :: (core ++ [checksum, stop]) ++ more)
        = (checkEnd stop (octetSum core) checksum).map
            fun _ => some (.fixedLength control address, core.length + 3) := by
  obtain ⟨control, la, rfl⟩ : ∃ control la, core = control :: la :=
    List.exists_cons_of_length_pos (by omega)
  have hla : la.length = size.len := by
    rw [List.length_cons] at hcore
    omega
  obtain ⟨address, -, rfl, hfits⟩ := exists_decodeFrom hla
  refine ⟨control, address, rfl, hfits, ?_⟩
  have hslice := decodeSlice_fixed hfits control checksum stop more
  rw [checksumFixed_eq, show 1 + 1 + size.len + 1 + 1 = 1 + size.len + 3 by omega, ← hcore]
    at hslice
  exact hslice

/-- **A buffer with the parts of a frame of variable length.** -/
theorem exists_decodeSlice_variable (size : LinkAddressSize)
    (hcore : core.length = l.toNat) (hsize : 1 + size.len ≤ core.length)
    (second checksum stop : UInt8) (more : Bytes) :
    ∃ control address asdu, core = control :: address.encodeTo size ++ asdu
      ∧ FitsAddress size address ∧ decodeSlice size
          (START_VAR :: l :: l :: second :: (core ++ [checksum, stop]) ++ more)
        = if second ≠ START_VAR then .error (.invalidStartByte START_VAR second)
          else (checkEnd stop (octetSum core) checksum).map
            fun _ => some (.variableLength control address asdu, core.length + 6) := by
  obtain ⟨control, body, rfl⟩ : ∃ control body, core = control :: body :=
    List.exists_cons_of_length_pos (by omega)
  rw [List.length_cons] at hcore hsize
  have htake : (body.take size.len).length = size.len := by
    rw [List.length_take]
    omega
  obtain ⟨address, -, hla, hfits⟩ := exists_decodeFrom htake
  have hbody : body = address.encodeTo size ++ body.drop size.len := by
    rw [hla, List.take_append_drop]
  generalize body.drop size.len = asdu at hbody
  subst hbody
  rw [List.length_append, length_encodeTo] at hcore
  refine ⟨control, address, asdu, rfl, hfits, ?_⟩
  have hl : l.toNat = 1 + size.len + asdu.length := by omega
  have hslice := decodeSlice_variable hfits hl second control checksum stop more
  have htotal : (control :: (address.encodeTo size ++ asdu)).length + 6 = 4 + l.toNat + 2 := by
    rw [List.length_cons, List.length_append, length_encodeTo]
    omega
  rw [checksumVariable_eq, ← htotal] at hslice
  exact hslice

/-! ## A changed octet -/

/-- The checks at the end of a frame fail if one of them does. -/
theorem exists_checkEnd (stop computed wire : UInt8) (h : stop = END → computed ≠ wire) :
    ∃ e, checkEnd stop computed wire = .error e := by
  unfold checkEnd
  split
  · exact ⟨_, rfl⟩
  · rename_i hstop
    rw [if_pos (h (not_not.mp hstop))]
    exact ⟨_, rfl⟩

/-- **A changed octet behind the header fails the checks at the end**: it is
one of the core and changes the sum, or the checksum, or the end octet. -/
theorem exists_checkEnd_set (hj : j < (core ++ [octetSum core, END]).length)
    (hv : v ≠ octet (core ++ [octetSum core, END]) j) :
    ∃ core' checksum stop e, (core ++ [octetSum core, END]).set j v = core' ++ [checksum, stop]
      ∧ core'.length = core.length ∧ checkEnd stop (octetSum core') checksum = .error e := by
  by_cases hcore : j < core.length
  · rw [octet_append hcore] at hv
    obtain ⟨e, he⟩ := exists_checkEnd END _ _ fun _ => octetSum_set_ne hcore hv
    refine ⟨core.set j v, octetSum core, END, e, ?_, List.length_set, he⟩
    exact List.set_append_left _ _ hcore
  · obtain ⟨k, rfl⟩ := Nat.exists_eq_add_of_le (Nat.not_lt.mp hcore)
    rw [octet_append_right (j := k) _ _ rfl] at hv
    rw [List.length_append, List.length_cons, List.length_singleton] at hj
    have hset := List.set_append_right (s := core) (t := [octetSum core, END])
      (i := core.length + k) v (Nat.le_add_right _ _)
    rw [Nat.add_sub_cancel_left] at hset
    match k with
    | 0 =>
      obtain ⟨e, he⟩ := exists_checkEnd END (octetSum core) v fun _ => hv.symm
      exact ⟨core, v, END, e, hset, rfl, he⟩
    | 1 =>
      obtain ⟨e, he⟩ := exists_checkEnd v (octetSum core) (octetSum core)
        fun hstop => absurd hstop hv
      exact ⟨core, octetSum core, v, e, hset, rfl, he⟩
    | k + 2 => omega

/-- Length octets that differ are refused. -/
theorem decodeSlice_lengths (size : LinkAddressSize) {l l' : UInt8} (hne : l ≠ l') {rest : Bytes}
    (hrest : 3 ≤ rest.length) :
    decodeSlice size (START_VAR :: l :: l' :: rest) = .error (.lengthOctetsDiffer l l') := by
  have hlong : ¬ (START_VAR :: l :: l' :: rest).length < 6 := by
    rw [List.length_cons, List.length_cons, List.length_cons]
    omega
  show (if _ then _ else if l ≠ l' then _ else _) = _
  rw [if_neg hlong, if_pos hne]
  rfl

/-- A changed octet of a frame of fixed length is refused. -/
theorem exists_error_fixed (size : LinkAddressSize) (control : UInt8) (address : LinkAddress)
    (hj : j + 1 < (encode size (.fixedLength control address)).length)
    (hv : v ≠ octet (encode size (.fixedLength control address)) (j + 1)) (more : Bytes) :
    ∃ e, decodeSlice size ((encode size (.fixedLength control address)).set (j + 1) v ++ more)
      = .error e := by
  have hcore : (control :: address.encodeTo size).length = 1 + size.len := by
    rw [List.length_cons, length_encodeTo, Nat.add_comm]
  rw [encode_fixed] at hj hv ⊢
  obtain ⟨core, checksum, stop, e, hset, hlen, hcheck⟩ :=
    exists_checkEnd_set (Nat.lt_of_succ_lt_succ hj) hv
  obtain ⟨c, a, -, -, hdecode⟩ := exists_decodeSlice_fixed (hlen.trans hcore) checksum stop more
  refine ⟨e, ?_⟩
  rw [List.set_cons_succ, hset, hdecode, hcheck]
  rfl

/-- A changed octet of a frame of variable length is refused. -/
theorem exists_error_variable (size : LinkAddressSize) (control : UInt8) (address : LinkAddress)
    {asdu : Bytes} (hasdu : asdu.length ≤ 255 - 1 - size.len)
    (hj : j + 1 < (encode size (.variableLength control address asdu)).length)
    (hv : v ≠ octet (encode size (.variableLength control address asdu)) (j + 1)) (more : Bytes) :
    ∃ e, decodeSlice size
        ((encode size (.variableLength control address asdu)).set (j + 1) v ++ more)
      = .error e := by
  have hcore : (control :: address.encodeTo size ++ asdu).length = 1 + size.len + asdu.length := by
    rw [List.length_append, List.length_cons, length_encodeTo, Nat.add_comm 1]
  have hlength : (UInt8.ofNat (control :: address.encodeTo size ++ asdu).length).toNat
      = (control :: address.encodeTo size ++ asdu).length := by
    rw [hcore]
    exact toNat_length hasdu
  rw [encode_variable] at hj hv ⊢
  generalize control :: address.encodeTo size ++ asdu = core at hcore hlength hj hv ⊢
  have hrest : 3 ≤ (START_VAR :: (core ++ [octetSum core, END]) ++ more).length := by
    rw [List.length_append, List.length_cons, List.length_append]
    show 3 ≤ core.length + 2 + 1 + more.length
    omega
  match j with
  | 0 => exact ⟨_, decodeSlice_lengths size hv hrest⟩
  | 1 => exact ⟨_, decodeSlice_lengths size hv.symm hrest⟩
  | 2 =>
    obtain ⟨c, a, asdu', -, -, hdecode⟩ := exists_decodeSlice_variable size hlength.symm
      (by omega) v (octetSum core) END more
    have hsecond : v ≠ START_VAR := hv
    rw [if_pos hsecond] at hdecode
    exact ⟨_, hdecode⟩
  | j + 3 =>
    simp only [List.length_cons] at hj
    have hj' : j < (core ++ [octetSum core, END]).length := by omega
    obtain ⟨core', checksum, stop, e, hset, hlen, hcheck⟩ := exists_checkEnd_set hj' hv
    obtain ⟨c, a, asdu', -, -, hdecode⟩ := exists_decodeSlice_variable size
      (hlen.trans hlength.symm) (by omega) START_VAR checksum stop more
    rw [if_neg (not_not_intro rfl), hcheck] at hdecode
    refine ⟨e, ?_⟩
    simp only [List.set_cons_succ]
    rw [hset, hdecode]
    rfl

/-- **Every change of a single octet is refused.** In the octets of a frame of
fixed or variable length that fits, whatever octet behind the first is
replaced by another one, and whatever follows: the decoder answers with an
error. -/
theorem single_change_refused {size : LinkAddressSize} {frame : Frame Bytes}
    (hfits : Fits size frame) (hkind : ∀ char, frame ≠ .single char) {i : ℕ} (hi : 1 ≤ i)
    (hlen : i < (encode size frame).length) {v : UInt8} (hv : v ≠ octet (encode size frame) i)
    (more : Bytes) :
    ∃ e, decodeSlice size ((encode size frame).set i v ++ more) = .error e := by
  obtain ⟨j, rfl⟩ := Nat.exists_eq_add_of_le' hi
  cases frame with
  | single char => exact absurd rfl (hkind char)
  | fixedLength control address => exact exists_error_fixed size control address hlen hv more
  | variableLength control address asdu =>
    exact exists_error_variable size control address hfits.2 hlen hv more

/-- A changed octet of an ASDU, with an acknowledgement behind the frame. -/
theorem single_change_refused_asdu : encode .one (.variableLength 0x53 ⟨1⟩ [7, 8])
        = [0x68, 4, 4, 0x68, 0x53, 1, 7, 8, 0x63, 0x16]
      ∧ ∃ e, decodeSlice .one ((encode .one (.variableLength 0x53 ⟨1⟩ [7, 8])).set 7 0x16 ++ [0xE5])
        = .error e := by
  have hfits : Fits .one (.variableLength 0x53 ⟨1⟩ [7, 8]) :=
    ⟨show (1 : UInt16).toNat < 256 by decide, by decide⟩
  exact ⟨by decide, single_change_refused hfits nofun (by decide) (by decide) (by decide) [0xE5]⟩

end Codec

end Frame101
