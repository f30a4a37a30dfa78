import Iec60870.Chunked
import Iec60870.Error
import Iec60870.Frame104

/-!
# The APDU codec

The octets of an APDU (`frame104/codec.rs`): the start octet, the number of
octets that follow, four control octets and, in an I-frame, the ASDU. The low
two bits of the first control octet tell the three formats apart.

`Codec.decodeSlice` looks at the front of a buffer. It is incremental
(`Codec.incremental_decodeSlice`): as soon as it has seen the two octets of
the header and what they announce, nothing that comes later changes its
answer. Behind an encoded APDU it answers with that APDU, whatever follows
(`Codec.decodeSlice_encode`), and what it leaves undecided is never longer
than one APDU (`Codec.length_of_none`).
-/

namespace Frame104

open Iec60870 Wire

/-! ## Control octets -/

/-- The 16-bit wire form of a sequence number (`to_wire`). -/
def SeqNo.toWire (s : SeqNo) : ℕ := s.value <<< 1

/-- The sequence number of a 16-bit wire form (`from_wire`). -/
def SeqNo.fromWire (w : ℕ) : SeqNo := ⟨(w >>> 1) &&& SeqNo.MAX, SeqNo.and_max_lt _⟩

theorem SeqNo.toWire_eq (s : SeqNo) : s.toWire = 2 * s.value := by
  rw [toWire, Nat.shiftLeft_eq, Nat.mul_comm]

/-- A sequence number is read back. -/
theorem SeqNo.fromWire_toWire (s : SeqNo) : fromWire s.toWire = s := by
  refine ext_value ?_
  show (s.toWire >>> 1) &&& MAX = s.value
  rw [and_max, toWire_eq, Nat.shiftRight_eq_div_pow]
  have h := s.value_lt
  omega

namespace UFunction

/-- The first control octet of a function (`first_octet`). -/
def firstOctet : UFunction → UInt8
  | startDtAct => 0x07
  | startDtCon => 0x0B
  | stopDtAct => 0x13
  | stopDtCon => 0x23
  | testFrAct => 0x43
  | testFrCon => 0x83

/-- The function of a first control octet (`from_first_octet`). -/
def fromFirstOctet : UInt8 → Option UFunction
  | 0x07 => some startDtAct
  | 0x0B => some startDtCon
  | 0x13 => some stopDtAct
  | 0x23 => some stopDtCon
  | 0x43 => some testFrAct
  | 0x83 => some testFrCon
  | _ => none

end UFunction

namespace Codec

/-! ## The codec -/

/-- The start octet of an APDU. -/
def START : UInt8 := 0x68

/-- The longest ASDU of an APDU. -/
def MAX_ASDU_LEN : ℕ := 249

/-- The octets of an APDU (`encode`). -/
def encode : Apdu → Except Error Bytes
  | .i send recv asdu =>
    if asdu.length > MAX_ASDU_LEN then
      .error (.asduTooLong asdu.length MAX_ASDU_LEN)
    else
      .ok (START :: (4 + UInt8.ofNat asdu.length)
        :: (putLe 2 send.toWire ++ putLe 2 recv.toWire ++ asdu))
  | .s recv => .ok (START :: 4 :: 0x01 :: 0x00 :: putLe 2 recv.toWire)
  | .u function => .ok [START, 4, function.firstOctet, 0x00, 0x00, 0x00]

/-- The APDU of its control octets and ASDU (`decode_payload`). The source
takes the four control octets without a check; `decodeSlice` passes no
fewer. -/
def decodePayload (buf : Bytes) (length : ℕ) : Except Error Apdu :=
  match buf with
  | c₁ :: c₂ :: c₃ :: c₄ :: rest =>
    if c₁ &&& 0x01 = 0 then
      .ok (.i (SeqNo.fromWire (ofLe [c₁, c₂])) (SeqNo.fromWire (ofLe [c₃, c₄]))
        (rest.take (length - 4)))
    else if c₁ &&& 0x03 = 0x01 then
      if length ≠ 4 then .error (.lengthMismatch length 4)
      else .ok (.s (SeqNo.fromWire (ofLe [c₃, c₄])))
    else if length ≠ 4 then .error (.lengthMismatch length 4)
    else
      match UFunction.fromFirstOctet c₁ with
      | some function => .ok (.u function)
      | none => .error .unsupportedFormat
  | _ => .error (.incomplete 4 buf.length)

/-- **The first APDU of a buffer** and its length (`decode_slice`), or `none`
if it is not complete. -/
def decodeSlice (buf : Bytes) : Except Error (Option (Apdu × ℕ)) :=
  match buf with
  | start :: len :: rest =>
    if start ≠ START then .error (.invalidStartByte START start)
    else
      let length := len.toNat
      if length < 4 then .error (.lengthMismatch length 4)
      else if rest.length < length then .ok none
      else
        (decodePayload (rest.take length) length).map fun apdu => some (apdu, 2 + length)
  | _ => .ok none

/-! ## What arrives later does not matter -/

/-- An undecided buffer is shorter than the longest APDU that two octets can
announce. -/
theorem length_of_none {buf : Bytes} (h : decodeSlice buf = .ok none) : buf.length ≤ 256 := by
  match buf with
  | [] => exact Nat.zero_le _
  | [_] => show 1 ≤ 256; omega
  | start :: len :: rest =>
    have hlen : len.toNat < 2 ^ 8 := len.toNat_lt
    rw [decodeSlice] at h
    split at h
    · cases h
    · dsimp only at h
      split at h
      · cases h
      · split at h
        · show rest.length + 1 + 1 ≤ 256
          omega
        · cases hp : decodePayload (rest.take len.toNat) len.toNat with
          | error | ok => rw [hp] at h; cases h

/-- A decided buffer is decided the same way with more behind it. -/
theorem decodeSlice_append {buf : Bytes} (h : decodeSlice buf ≠ .ok none)
    (more : Bytes) : decodeSlice (buf ++ more) = decodeSlice buf := by
  match buf with
  | [] => exact absurd rfl h
  | [_] => exact absurd rfl h
  | start :: len :: rest =>
    rw [List.cons_append, List.cons_append]
    rw [decodeSlice] at h ⊢
    rw [decodeSlice]
    split
    · rfl
    · rename_i hs
      rw [if_neg hs] at h
      dsimp only at h ⊢
      split
      · rfl
      · rename_i h4
        rw [if_neg h4] at h
        have hle : ¬ rest.length < len.toNat := fun hlt => h (if_pos hlt)
        have hle' : ¬ (rest ++ more).length < len.toNat := by
          rw [List.length_append]
          omega
        rw [if_neg hle, if_neg hle', List.take_append_of_le_length (Nat.not_lt.mp hle)]

/-- **What is decoded**: the header, and the payload that it announces. -/
theorem exists_of_decodeSlice {buf : Bytes} {apdu : Apdu} {n : ℕ}
    (h : decodeSlice buf = .ok (some (apdu, n))) :
    ∃ start len rest, buf = start :: len :: rest ∧ n = 2 + len.toNat ∧ len.toNat ≤ rest.length
      ∧ decodePayload (rest.take len.toNat) len.toNat = .ok apdu := by
  match buf with
  | [] => cases h
  | [_] => cases h
  | start :: len :: rest =>
    rw [decodeSlice] at h
    split at h
    · cases h
    · dsimp only at h
      split at h
      · cases h
      · split at h
        · cases h
        · rename_i hle
          cases hp : decodePayload (rest.take len.toNat) len.toNat with
          | error e => rw [hp] at h; cases h
          | ok apdu =>
            rw [hp] at h
            cases h
            exact ⟨start, len, rest, rfl, rfl, Nat.not_lt.mp hle, hp⟩

/-- **The decoder is incremental.** -/
theorem incremental_decodeSlice : Chunked.Incremental decodeSlice where
  nil := rfl
  progress h := by
    obtain ⟨start, len, rest, rfl, rfl, hle, -⟩ := exists_of_decodeSlice h
    rw [List.length_cons, List.length_cons]
    omega
  more_some h more := by
    rw [decodeSlice_append (by rw [h]; exact fun e => nomatch e), h]
  more_error h more := by
    rw [decodeSlice_append (by rw [h]; exact fun e => nomatch e), h]

/-! ## Encoded APDUs are read back -/

/-- The two octets of a sequence number are read back. -/
theorem fromWire_ofLe (s : SeqNo) : SeqNo.fromWire (ofLe (putLe 2 s.toWire)) = s := by
  have hlt : s.toWire < 256 ^ 2 := by
    have h := s.value_lt
    rw [SeqNo.toWire_eq]
    omega
  rw [ofLe_putLe, Nat.mod_eq_of_lt hlt, SeqNo.fromWire_toWire]

/-- The first octet of a sequence number is even, which marks an I-frame. -/
theorem and_one_toWire (s : SeqNo) : UInt8.ofNat s.toWire &&& 0x01 = 0 := by
  refine UInt8.toNat.inj ?_
  rw [UInt8.toNat_and, UInt8.toNat_ofNat', SeqNo.toWire_eq]
  show 2 * s.value % 2 ^ 8 &&& 1 = 0
  rw [Nat.and_one_is_mod]
  omega

/-- The length octet of an I-frame. -/
theorem toNat_length {n : ℕ} (h : n ≤ MAX_ASDU_LEN) : (4 + UInt8.ofNat n).toNat = 4 + n := by
  have hn : n ≤ 249 := h
  rw [UInt8.toNat_add, UInt8.toNat_ofNat']
  show (4 + n % 2 ^ 8) % 2 ^ 8 = 4 + n
  omega

theorem decodePayload_i (send recv : SeqNo) (asdu : Bytes) :
    decodePayload (putLe 2 send.toWire ++ putLe 2 recv.toWire ++ asdu)
        (4 + asdu.length) = .ok (.i send recv asdu) := by
  show (if UInt8.ofNat send.toWire &&& 0x01 = 0 then
    Except.ok (Apdu.i _ _ (asdu.take (4 + asdu.length - 4))) else _) = _
  rw [if_pos (and_one_toWire send), Nat.add_sub_cancel_left, List.take_length]
  exact congrArg Except.ok
    (congrArg₂ (fun s r => Apdu.i s r asdu) (fromWire_ofLe send) (fromWire_ofLe recv))

theorem decodePayload_s (recv : SeqNo) :
    decodePayload (0x01 :: 0x00 :: putLe 2 recv.toWire) 4 = .ok (.s recv) := by
  show Except.ok (Apdu.s (SeqNo.fromWire (ofLe (putLe 2 recv.toWire)))) = _
  rw [fromWire_ofLe]

theorem decodePayload_u (function : UFunction) :
    decodePayload [function.firstOctet, 0x00, 0x00, 0x00] 4 = .ok (.u function) := by
  cases function <;> decide

/-- A complete frame is decided by its payload. -/
theorem decodeSlice_frame {len : UInt8} {payload : Bytes}
    (hlen : payload.length = len.toNat) (h4 : 4 ≤ payload.length) (more : Bytes) :
    decodeSlice (START :: len :: payload ++ more) = (decodePayload payload payload.length).map
          fun apdu => some (apdu, 2 + payload.length) := by
  rw [List.cons_append, List.cons_append, decodeSlice, if_neg (not_not_intro rfl)]
  dsimp only
  rw [← hlen, if_neg (Nat.not_lt.mpr h4), if_neg, List.take_left]
  rw [List.length_append]
  omega

/-- **An encoded APDU is read back**, whatever follows it. -/
theorem decodeSlice_encode {apdu : Apdu} {bs : Bytes} (h : encode apdu = .ok bs)
    (more : Bytes) : decodeSlice (bs ++ more) = .ok (some (apdu, bs.length)) := by
  cases apdu with
  | i send recv asdu =>
    rw [encode] at h
    split at h
    · cases h
    · rename_i hle
      have hle : asdu.length ≤ MAX_ASDU_LEN := Nat.not_lt.mp hle
      have hlen : (putLe 2 send.toWire ++ putLe 2 recv.toWire ++ asdu).length
          = 4 + asdu.length := by
        rw [List.length_append, List.length_append, length_putLe, length_putLe]
      cases h
      rw [decodeSlice_frame (hlen.trans (toNat_length hle).symm) (by omega), hlen,
        decodePayload_i, List.length_cons, List.length_cons, hlen]
      show Except.ok (some (_, _)) = _
      rw [Nat.add_comm 2]
  | s recv =>
    have hlen : (0x01 :: 0x00 :: putLe 2 recv.toWire).length = (4 : UInt8).toNat := rfl
    cases h
    rw [decodeSlice_frame hlen (Nat.le_refl 4)]
    show (decodePayload (0x01 :: 0x00 :: putLe 2 recv.toWire) 4).map _ = _
    rw [decodePayload_s]
    rfl
  | u function =>
    have hlen : [function.firstOctet, 0x00, 0x00, 0x00].length = (4 : UInt8).toNat := rfl
    cases h
    rw [decodeSlice_frame hlen (Nat.le_refl 4)]
    show (decodePayload [function.firstOctet, 0x00, 0x00, 0x00] 4).map _ = _
    rw [decodePayload_u]
    rfl

/-- **A stream of encoded APDUs is decoded into them.** -/
theorem decodeAll_encode {apdus : List Apdu} {parts : List Bytes}
    (h : apdus.mapM encode = .ok parts) :
    Chunked.decodeAll decodeSlice parts.flatten = ⟨apdus, [], none⟩ := by
  refine Chunked.decodeAll_flatten incremental_decodeSlice ?_
  induction apdus generalizing parts with
  | nil =>
    rw [List.mapM_nil] at h
    cases h
    exact .nil
  | cons apdu apdus ih =>
    rw [List.mapM_cons] at h
    cases hb : encode apdu with
    | error e => rw [hb] at h; cases h
    | ok bs =>
      cases hp : apdus.mapM encode with
      | error e => rw [hb, hp] at h; cases h
      | ok rest =>
        rw [hb, hp] at h
        cases h
        exact .cons (decodeSlice_encode hb) (ih hp)

end Codec

end Frame104
