import Iec60870.Chunked
import Iec60870.Error
import Iec60870.Frame101Control

/-!
# The FT 1.2 codec

The octets of a frame of the serial link (`frame101/codec.rs`). A single
octet acknowledges; a frame of fixed length has a control octet and the link
address; a frame of variable length says twice how long it is and has an ASDU
besides. The last two kinds end with a checksum, the sum of their octets
modulo 256, and an end octet.

`Codec.decodeSlice` looks at the front of a buffer. It first makes sure that
the frame is there as a whole and only then checks it, so that what arrives
later never changes its answer (`Codec.incremental_decodeSlice`). It refuses
a buffer whose first octet starts no frame (`Codec.decodeSlice_junk`), and
what it leaves undecided is shorter than the longest frame
(`Codec.length_of_none`). Behind an encoded frame it answers with that frame,
if the address fits its field and the ASDU the length octet
(`Codec.decodeSlice_encode`); so a stream of encoded frames is decoded into
them, wherever it is cut (`Codec.codec_on_streams`).
-/

namespace Frame101

open Iec60870 Wire

/-- The single-octet frame of an octet (`from_byte`). -/
def SingleChar.fromByte : UInt8 → Option SingleChar
  | 0xE5 => some .ack
  | 0xA2 => some .nack
  | _ => none

/-- The octet of a single-octet frame (`as_byte`). -/
def SingleChar.asByte : SingleChar → UInt8
  | .ack => 0xE5
  | .nack => 0xA2

/-- The width of a link address (`LinkAddressSize`). -/
inductive LinkAddressSize where
  | one
  | two
deriving DecidableEq, Repr

/-- The octets of a link address. -/
def LinkAddressSize.len : LinkAddressSize → ℕ
  | one => 1
  | two => 2

/-- The link address in the octets of its field (`decode_from`). -/
def LinkAddress.decodeFrom (buf : Bytes) (size : LinkAddressSize) :
    Option LinkAddress :=
  match size, buf with
  | .one, b :: _ => some ⟨b.toUInt16⟩
  | .two, lo :: hi :: _ => some ⟨UInt16.ofNat (ofLe [lo, hi])⟩
  | _, _ => none

/-- The octets of a link address (`encode_to`). -/
def LinkAddress.encodeTo (address : LinkAddress) (size : LinkAddressSize) : Bytes :=
  match size with
  | .one => [address.raw.toUInt8]
  | .two => putLe 2 address.raw.toNat

namespace Codec

/-- The start octet of a frame of fixed length. -/
def START_FIXED : UInt8 := 0x10

/-- The start octet of a frame of variable length. -/
def START_VAR : UInt8 := 0x68

/-- The end octet of both. -/
def END : UInt8 := 0x16

/-- The checksum of a frame of fixed length (`checksum_fixed`). -/
def checksumFixed (control : UInt8) (address : LinkAddress)
    (size : LinkAddressSize) : UInt8 :=
  let sum := match size with
    | .one => control.toUInt16 + address.raw
    | .two => control.toUInt16 + (address.raw % 256) + (address.raw / 256)
  (sum &&& 0xFF).toUInt8

/-- The checksum of a frame of variable length (`checksum_variable`). -/
def checksumVariable (control : UInt8) (address : LinkAddress)
    (size : LinkAddressSize) (asdu : Bytes) : UInt8 :=
  (asdu.foldl (fun sum b => (sum + b.toUInt16) &&& 0xFF)
    (checksumFixed control address size).toUInt16).toUInt8

/-! ## The decoder

The source takes octets of the buffer by their index, behind checks that the
buffer is long enough. `octet` and `slice` do the same and are total. -/

/-- The octet at an index. -/
def octet (buf : Bytes) (i : ℕ) : UInt8 := buf.getD i 0

/-- The octets between two indices. -/
def slice (buf : Bytes) (start stop : ℕ) : Bytes := (buf.drop start).take (stop - start)

/-- The link address that begins at an index. The slice is as long as the
address, so that the `unwrap` of the source does not fail. -/
def addressAt (buf : Bytes) (size : LinkAddressSize) (start : ℕ) : LinkAddress :=
  (LinkAddress.decodeFrom (slice buf start (start + size.len)) size).getD ⟨0⟩

/-- The checks at the end of a frame: the end octet, then the checksum. -/
def checkEnd (stop computed wire : UInt8) : Except Error Unit :=
  if stop ≠ END then .error (.invalidEndByte END stop)
  else if computed ≠ wire then .error (.checksumMismatch computed wire)
  else .ok ()

/-- The frame of fixed length in its octets. -/
def decodeFixed (size : LinkAddressSize) (buf : Bytes) :
    Except Error (Frame Bytes) := do
  let control := octet buf 1
  let laEnd := 2 + size.len
  let address := addressAt buf size 2
  checkEnd (octet buf (laEnd + 1)) (checksumFixed control address size) (octet buf laEnd)
  return .fixedLength control address

/-- The frame of variable length in its octets, with the length it states. -/
def decodeVariable (size : LinkAddressSize) (length : ℕ) (buf : Bytes) :
    Except Error (Frame Bytes) := do
  if octet buf 3 ≠ START_VAR then
    throw (.invalidStartByte START_VAR (octet buf 3))
  let control := octet buf 4
  let address := addressAt buf size 5
  let asduEnd := 4 + length
  let asdu := slice buf (5 + size.len) asduEnd
  checkEnd (octet buf (asduEnd + 1)) (checksumVariable control address size asdu)
    (octet buf asduEnd)
  return .variableLength control address asdu

/-- The frame that a buffer begins with, once it is there as a whole. -/
def whenComplete (buf : Bytes) (total : ℕ)
    (decode : Bytes → Except Error (Frame Bytes)) :
    Except Error (Option (Frame Bytes × ℕ)) :=
  if buf.length < total then .ok none
  else (decode (buf.take total)).map fun frame => some (frame, total)

/-- **The first frame of a buffer** and its length (`decode_slice`), or `none`
if it is not complete. -/
def decodeSlice (size : LinkAddressSize) (buf : Bytes) :
    Except Error (Option (Frame Bytes × ℕ)) :=
  match buf with
  | [] => .ok none
  | start :: _ =>
    match SingleChar.fromByte start with
    | some char => .ok (some (.single char, 1))
    | none =>
      if start = START_FIXED then
        whenComplete buf (1 + 1 + size.len + 1 + 1) (decodeFixed size)
      else if start = START_VAR then
        if buf.length < 6 then .ok none
        else if octet buf 1 ≠ octet buf 2 then
          .error (.lengthOctetsDiffer (octet buf 1) (octet buf 2))
        else
          let length := (octet buf 1).toNat
          if length < 1 + size.len then
            .error (.lengthMismatch length (1 + size.len))
          else whenComplete buf (4 + length + 2) (decodeVariable size length)
      else .error (.invalidStartByte START_FIXED start)

/-! ## What arrives later does not matter -/

variable {buf : Bytes} {i : ℕ} {total : ℕ} {decode : Bytes → Except Error (Frame Bytes)}
  {n : ℕ} {frame : Frame Bytes} {size : LinkAddressSize} {address : LinkAddress}

theorem octet_append (h : i < buf.length) (more : Bytes) : octet (buf ++ more) i = octet buf i := by
  rw [octet, octet, List.getD_eq_getElem?_getD, List.getD_eq_getElem?_getD,
    List.getElem?_append_left h]

theorem whenComplete_append (h : whenComplete buf total decode ≠ .ok none) (more : Bytes) :
    whenComplete (buf ++ more) total decode = whenComplete buf total decode := by
  have hle : ¬ buf.length < total := fun hlt => h (if_pos hlt)
  have hle' : ¬ (buf ++ more).length < total := by
    rw [List.length_append]
    omega
  rw [whenComplete, whenComplete, if_neg hle, if_neg hle',
    List.take_append_of_le_length (Nat.not_lt.mp hle)]

theorem whenComplete_none (h : whenComplete buf total decode = .ok none) : buf.length < total := by
  rw [whenComplete] at h
  split at h
  · assumption
  · cases hd : decode (buf.take total) with
    | error | ok => rw [hd] at h; cases h

theorem whenComplete_some (h : whenComplete buf total decode = .ok (some (frame, n))) :
    n = total ∧ total ≤ buf.length ∧ decode (buf.take total) = .ok frame := by
  rw [whenComplete] at h
  split at h
  · cases h
  · rename_i hle
    cases hd : decode (buf.take total) with
    | error e => rw [hd] at h; cases h
    | ok frame =>
      rw [hd] at h
      cases h
      exact ⟨rfl, Nat.not_lt.mp hle, rfl⟩

/-- A decided buffer is decided the same way with more behind it. -/
theorem decodeSlice_append (h : decodeSlice size buf ≠ .ok none) (more : Bytes) :
    decodeSlice size (buf ++ more) = decodeSlice size buf := by
  match buf with
  | [] => exact absurd rfl h
  | start :: rest =>
    rw [decodeSlice] at h ⊢
    rw [List.cons_append, decodeSlice]
    split
    · rfl
    · rename_i hchar
      rw [hchar] at h
      dsimp only at h ⊢
      split
      · rename_i hfixed
        rw [if_pos hfixed] at h
        exact whenComplete_append h more
      · rename_i hfixed
        rw [if_neg hfixed] at h
        split
        · rename_i hvar
          rw [if_pos hvar] at h
          -- A decided buffer holds the header, which is all that the checks
          -- before the length read.
          have h6 : ¬ (start :: rest).length < 6 := fun hlt => h (if_pos hlt)
          have h6' : ¬ (start :: (rest ++ more)).length < 6 := by
            rw [List.length_cons, List.length_append]
            rw [List.length_cons] at h6
            omega
          rw [if_neg h6] at h
          rw [if_neg h6, if_neg h6', ← List.cons_append,
            octet_append (by omega), octet_append (by omega)]
          split
          · rfl
          · rename_i hoctets
            rw [if_neg hoctets] at h
            split
            · rfl
            · rename_i hlen
              rw [if_neg hlen] at h
              exact whenComplete_append h more
        · rfl

/-- **What is decoded**: a single character, or a frame that is there as a whole. -/
theorem exists_of_decodeSlice (h : decodeSlice size buf = .ok (some (frame, n))) :
    0 < n ∧ n ≤ buf.length ∧ ((∃ char, frame = .single char)
      ∨ decodeFixed size (buf.take n) = .ok frame
      ∨ ∃ length ≤ 255, decodeVariable size length (buf.take n) = .ok frame) := by
  match buf with
  | [] => cases h
  | start :: rest =>
    rw [decodeSlice] at h
    split at h
    · cases h
      exact ⟨Nat.one_pos, Nat.succ_pos _, .inl ⟨_, rfl⟩⟩
    · split at h
      · obtain ⟨rfl, hle, hd⟩ := whenComplete_some h
        exact ⟨Nat.succ_pos _, hle, .inr (.inl hd)⟩
      · split at h
        · split at h
          · cases h
          · split at h
            · cases h
            · dsimp only at h
              split at h
              · cases h
              · obtain ⟨rfl, hle, hd⟩ := whenComplete_some h
                have hoctet := (octet (start :: rest) 1).toNat_lt
                exact ⟨Nat.succ_pos _, hle, .inr (.inr ⟨_, Nat.le_of_lt_succ hoctet, hd⟩)⟩
        · cases h

/-- **The decoder is incremental.** -/
theorem incremental_decodeSlice (size : LinkAddressSize) :
    Chunked.Incremental (decodeSlice size) where
  nil := rfl
  progress h := ⟨(exists_of_decodeSlice h).1, (exists_of_decodeSlice h).2.1⟩
  more_some h more := by
    rw [decodeSlice_append (by rw [h]; exact fun e => nomatch e), h]
  more_error h more := by
    rw [decodeSlice_append (by rw [h]; exact fun e => nomatch e), h]

/-- An undecided buffer is shorter than the longest frame. -/
theorem length_of_none (h : decodeSlice size buf = .ok none) : buf.length < 261 := by
  match buf with
  | [] => exact Nat.succ_pos _
  | start :: rest =>
    rw [decodeSlice] at h
    split at h
    · cases h
    · split at h
      · have hlt := whenComplete_none h
        cases size <;> exact hlt.trans (by decide)
      · split at h
        · split at h
          · exact lt_trans ‹_› (by decide)
          · split at h
            · cases h
            · dsimp only at h
              split at h
              · cases h
              · have hlt := whenComplete_none h
                have hoctet := (octet (start :: rest) 1).toNat_lt
                omega
        · cases h

/-- **A buffer that does not begin with a start octet is refused.** -/
theorem decodeSlice_junk (size : LinkAddressSize) {start : UInt8}
    (hchar : SingleChar.fromByte start = none) (hfixed : start ≠ START_FIXED)
    (hvar : start ≠ START_VAR) (rest : Bytes) : decodeSlice size (start :: rest)
      = .error (.invalidStartByte START_FIXED start) := by
  rw [decodeSlice, hchar]
  dsimp only
  rw [if_neg hfixed, if_neg hvar]

/-! ## Encoded frames are read back -/

/-- **The octets of a frame** (`encode`). The length octet is cut to eight
bits. -/
def encode (size : LinkAddressSize) : Frame Bytes → Bytes
  | .single char => [char.asByte]
  | .fixedLength control address =>
    START_FIXED :: control :: (address.encodeTo size ++ [checksumFixed control address size, END])
  | .variableLength control address asdu =>
    let length := UInt8.ofNat (1 + size.len + asdu.length)
    START_VAR :: length :: length :: START_VAR :: control :: (address.encodeTo size ++ asdu
        ++ [checksumVariable control address size asdu, END])

/-- The number of octets that `encode` says it has written. -/
def encodedLen (size : LinkAddressSize) : Frame Bytes → ℕ
  | .single _ => 1
  | .fixedLength _ _ => 2 + size.len + 2
  | .variableLength _ _ asdu => 4 + 1 + size.len + asdu.length + 1 + 1

/-- The address fits its field. -/
def FitsAddress (size : LinkAddressSize) (address : LinkAddress) : Prop :=
  match size with
  | .one => address.raw.toNat < 256
  | .two => True

/-- **A frame that can be encoded**: the address fits its field, and what the
length octet counts is at most 255. -/
def Fits (size : LinkAddressSize) : Frame Bytes → Prop
  | .single _ => True
  | .fixedLength _ address => FitsAddress size address
  | .variableLength _ address asdu =>
    FitsAddress size address ∧ asdu.length ≤ 255 - 1 - size.len

theorem length_encodeTo (address : LinkAddress) (size : LinkAddressSize) :
    (address.encodeTo size).length = size.len := by
  cases size <;> rfl

theorem length_encode (size : LinkAddressSize) (frame : Frame Bytes) :
    (encode size frame).length = encodedLen size frame := by
  cases frame with
  | single char => rfl
  | fixedLength | variableLength =>
    simp only [encode, encodedLen, List.length_cons, List.length_append,
      length_encodeTo, List.length_nil]
    omega

/-- An address that fits is read back. -/
theorem decodeFrom_encodeTo (h : FitsAddress size address) :
    LinkAddress.decodeFrom (address.encodeTo size) size = some address := by
  obtain ⟨raw⟩ := address
  cases size with
  | one =>
    have hraw : raw.toUInt8.toUInt16 = raw := by
      refine UInt16.toNat.inj ?_
      rw [UInt8.toNat_toUInt16, UInt16.toNat_toUInt8]
      exact Nat.mod_eq_of_lt h
    exact congrArg (fun r => some (LinkAddress.mk r)) hraw
  | two =>
    have hraw : UInt16.ofNat (ofLe (putLe 2 raw.toNat)) = raw := by
      have hlt : raw.toNat < 256 ^ 2 := raw.toNat_lt
      rw [ofLe_putLe, Nat.mod_eq_of_lt hlt, UInt16.ofNat_toNat]
    exact congrArg (fun r => some (LinkAddress.mk r)) hraw

/-- What stands between two parts of a buffer. -/
theorem slice_middle (front mid back : Bytes) {stop : ℕ} (h : stop = front.length + mid.length) :
    slice (front ++ mid ++ back) front.length stop = mid := by
  rw [slice, h, Nat.add_sub_cancel_left, List.append_assoc, List.drop_left, List.take_left]

/-- What stands behind a part of a buffer. -/
theorem octet_append_right (front back : Bytes) {i j : ℕ} (h : i = front.length + j) :
    octet (front ++ back) i = octet back j := by
  rw [octet, octet, List.getD_eq_getElem?_getD, List.getD_eq_getElem?_getD,
    List.getElem?_append_right (by omega), h, Nat.add_sub_cancel_left]

theorem checkEnd_self (checksum : UInt8) : checkEnd END checksum checksum = .ok () := by
  rw [checkEnd, if_neg (not_not_intro rfl), if_neg (not_not_intro rfl)]

/-- The address in a buffer that has it behind `front`. -/
theorem addressAt_encodeTo (h : FitsAddress size address) (front back : Bytes) {start : ℕ}
    (hstart : start = front.length) :
    addressAt (front ++ address.encodeTo size ++ back) size start = address := by
  rw [addressAt, hstart, slice_middle, decodeFrom_encodeTo h, Option.getD_some]
  rw [length_encodeTo]

/-- A buffer that holds the octets of a frame is decided by them. -/
theorem whenComplete_of_length {octets : Bytes} (htotal : octets.length = total)
    (decode : Bytes → Except Error (Frame Bytes)) (more : Bytes) :
    whenComplete (octets ++ more) total decode
      = (decode octets).map fun frame => some (frame, total) := by
  rw [whenComplete, if_neg, ← htotal, List.take_left]
  rw [List.length_append]
  omega

section Parts

variable {size : LinkAddressSize} {address : LinkAddress} {l : UInt8}

/-- **The decoder on the parts of a frame of fixed length**: all that is left
to it is the test of the last two octets. -/
theorem decodeSlice_fixed (h : FitsAddress size address) (control checksum stop : UInt8)
    (more : Bytes) :
    decodeSlice size ([START_FIXED, control] ++ address.encodeTo size ++ [checksum, stop] ++ more)
      = (checkEnd stop (checksumFixed control address size) checksum).map
          fun _ => some (.fixedLength control address, 1 + 1 + size.len + 1 + 1) := by
  have hfront : 2 + size.len = ([START_FIXED, control] ++ address.encodeTo size).length := by
    rw [List.length_append, length_encodeTo]
    rfl
  generalize hbuf : [START_FIXED, control] ++ address.encodeTo size ++ [checksum, stop] = buf
  have hlen : buf.length = 1 + 1 + size.len + 1 + 1 := by
    rw [← hbuf, List.length_append, ← hfront]
    show 2 + size.len + 2 = _
    omega
  have hcontrol : octet buf 1 = control := by
    rw [← hbuf]
    rfl
  have haddress : addressAt buf size 2 = address := by
    rw [← hbuf]
    exact addressAt_encodeTo h [START_FIXED, control] _ rfl
  have hchecksum : octet buf (2 + size.len) = checksum := by
    rw [← hbuf]
    exact octet_append_right (j := 0) _ _ hfront
  have hstop : octet buf (2 + size.len + 1) = stop := by
    rw [← hbuf]
    exact octet_append_right (j := 1) _ _ (by rw [hfront])
  have hslice : decodeSlice size (buf ++ more)
      = whenComplete (buf ++ more) (1 + 1 + size.len + 1 + 1) (decodeFixed size) := by
    rw [← hbuf]
    rfl
  rw [hslice, whenComplete_of_length hlen]
  unfold decodeFixed
  dsimp only
  rw [hcontrol, haddress, hchecksum, hstop]
  cases checkEnd stop (checksumFixed control address size) checksum with
  | error | ok => rfl

/-- Length octets that agree, and leave room for the address. -/
theorem decodeSlice_lengths_eq (hl : 1 + size.len ≤ l.toNat) {rest : Bytes}
    (hrest : 3 ≤ rest.length) : decodeSlice size (START_VAR :: l :: l :: rest)
      = whenComplete (START_VAR :: l :: l :: rest) (4 + l.toNat + 2)
          (decodeVariable size l.toNat) := by
  have hlong : ¬ (START_VAR :: l :: l :: rest).length < 6 := by
    rw [List.length_cons, List.length_cons, List.length_cons]
    omega
  show (if _ then _ else if l ≠ l then _ else if l.toNat < _ then _ else _) = _
  rw [if_neg hlong, if_neg (not_not_intro rfl), if_neg (Nat.not_lt.mpr hl)]
  rfl

/-- **The decoder on the parts of a frame of variable length** whose length
octets agree with each other and with what stands there. -/
theorem decodeSlice_variable (h : FitsAddress size address) {asdu : Bytes}
    (hl : l.toNat = 1 + size.len + asdu.length) (second control checksum stop : UInt8)
    (more : Bytes) :
    decodeSlice size ([START_VAR, l, l, second, control] ++ address.encodeTo size ++ asdu
        ++ [checksum, stop] ++ more)
      = if second ≠ START_VAR then .error (.invalidStartByte START_VAR second)
        else (checkEnd stop (checksumVariable control address size asdu) checksum).map
          fun _ => some (.variableLength control address asdu, 4 + l.toNat + 2) := by
  obtain ⟨header, hheader⟩ : ∃ header, header = [START_VAR, l, l, second, control] := ⟨_, rfl⟩
  have hhead : header.length = 5 := by rw [hheader]; rfl
  have hfront : (header ++ address.encodeTo size).length = 5 + size.len := by
    rw [List.length_append, length_encodeTo, hhead]
  have hall : (header ++ address.encodeTo size ++ asdu).length = 4 + l.toNat := by
    rw [List.length_append, hfront]
    omega
  rw [← hheader]
  generalize hbuf : header ++ address.encodeTo size ++ asdu ++ [checksum, stop] = buf
  have hlen : buf.length = 4 + l.toNat + 2 := by
    rw [← hbuf, List.length_append, hall]
    rfl
  have hsecond : octet buf 3 = second := by
    rw [← hbuf, hheader]
    rfl
  have hcontrol : octet buf 4 = control := by
    rw [← hbuf, hheader]
    rfl
  have haddress : addressAt buf size 5 = address := by
    rw [← hbuf, List.append_assoc]
    exact addressAt_encodeTo h _ _ hhead.symm
  have hasdu : slice buf (5 + size.len) (4 + l.toNat) = asdu := by
    rw [← hbuf, ← hfront]
    exact slice_middle _ _ _ (by rw [hfront]; omega)
  have hchecksum : octet buf (4 + l.toNat) = checksum := by
    rw [← hbuf]
    exact octet_append_right (j := 0) _ _ hall.symm
  have hstop : octet buf (4 + l.toNat + 1) = stop := by
    rw [← hbuf]
    exact octet_append_right (j := 1) _ _ (by rw [hall])
  have hslice : decodeSlice size (buf ++ more)
      = whenComplete (buf ++ more) (4 + l.toNat + 2) (decodeVariable size l.toNat) := by
    obtain ⟨rest, hrest⟩ : ∃ rest, buf ++ more = START_VAR :: l :: l :: rest := by
      rw [← hbuf, hheader]
      exact ⟨_, rfl⟩
    have hlong : 3 ≤ rest.length := by
      have hboth := congrArg List.length hrest
      rw [List.length_append, hlen, List.length_cons, List.length_cons, List.length_cons] at hboth
      omega
    rw [hrest]
    exact decodeSlice_lengths_eq (by omega) hlong
  rw [hslice, whenComplete_of_length hlen]
  unfold decodeVariable
  dsimp only
  rw [hsecond, hcontrol, haddress, hasdu, hchecksum, hstop]
  split
  · rfl
  · cases checkEnd stop (checksumVariable control address size asdu) checksum with
    | error | ok => rfl

end Parts

/-- The length octets of a frame whose ASDU fits. -/
theorem toNat_length {asdu : Bytes} (hasdu : asdu.length ≤ 255 - 1 - size.len) :
    (UInt8.ofNat (1 + size.len + asdu.length)).toNat = 1 + size.len + asdu.length := by
  rw [UInt8.toNat_ofNat']
  refine Nat.mod_eq_of_lt ?_
  cases size <;> simp only [LinkAddressSize.len] at hasdu ⊢ <;> omega

/-- **An encoded frame is read back**, whatever follows it. -/
theorem decodeSlice_encode (h : Fits size frame) (more : Bytes) :
    decodeSlice size (encode size frame ++ more)
      = .ok (some (frame, (encode size frame).length)) := by
  rw [length_encode]
  cases frame with
  | single char => cases char <;> rfl
  | fixedLength control address =>
    refine (decodeSlice_fixed h control _ END more).trans ?_
    rw [checkEnd_self]
    rfl
  | variableLength control address asdu =>
    obtain ⟨haddress, hasdu⟩ := h
    have hlength := toNat_length hasdu
    refine (decodeSlice_variable haddress hlength START_VAR control _ END more).trans ?_
    have htotal : 4 + (1 + size.len + asdu.length) + 2
        = encodedLen size (.variableLength control address asdu) := by
      rw [encodedLen]
      omega
    rw [if_neg (not_not_intro rfl), checkEnd_self, hlength, htotal]
    rfl

/-- **The codec on streams.** A stream of encoded frames is decoded into them,
to its last octet; a strict front part of an encoded frame is undecided; and a
buffer that is decided stays so, whatever arrives behind it. -/
theorem codec_on_streams (size : LinkAddressSize) :
    (∀ frames : List (Frame Bytes), (∀ frame ∈ frames, Fits size frame) →
      Chunked.decodeAll (decodeSlice size) (frames.flatMap (encode size))
        = ⟨frames, [], none⟩) ∧ (∀ frame, Fits size frame → ∀ front back, back ≠ [] →
        encode size frame = front ++ back → decodeSlice size front = .ok none)
      ∧ ∀ buf, decodeSlice size buf ≠ .ok none → ∀ more,
        decodeSlice size (buf ++ more) = decodeSlice size buf := by
  refine ⟨fun frames hfits => ?_, fun frame hfits front back hback henc => ?_,
    fun buf h more => decodeSlice_append h more⟩
  · rw [List.flatMap_def]
    refine Chunked.decodeAll_flatten (incremental_decodeSlice size) ?_
    rw [List.forall₂_map_right_iff, List.forall₂_same]
    exact fun frame hframe => decodeSlice_encode (hfits frame hframe)
  · have hread := decodeSlice_encode hfits []
    rw [List.append_nil] at hread
    have hlt : front.length < (encode size frame).length := by
      rw [henc, List.length_append]
      exact Nat.lt_add_of_pos_right (List.length_pos_of_ne_nil hback)
    have hnone := (incremental_decodeSlice size).none_of_take hread hlt
    rwa [henc, List.take_left] at hnone

/-- One frame of each kind, with addresses of one octet. -/
theorem codec_on_streams_eachKind : Chunked.decodeAll (decodeSlice .one)
        ([.single .ack, .fixedLength 0x49 ⟨3⟩, .variableLength 0x53 ⟨255⟩ [1, 0x16]].flatMap
          (encode .one))
      = ⟨[.single .ack, .fixedLength 0x49 ⟨3⟩, .variableLength 0x53 ⟨255⟩ [1, 0x16]],
        [], none⟩ := by
  refine (codec_on_streams .one).1 _ ?_
  simp [Fits, FitsAddress, LinkAddressSize.len]

end Codec

end Frame101
