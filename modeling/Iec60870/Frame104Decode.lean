import Iec60870.Frame104Codec

/-!
# Decoding twice, and encoding again

There are two decoders of APDUs in `frame104/codec.rs`. `decode_slice` looks
at the front of a byte slice and is the one the driver uses; `decode` is
handed a buffer and consumes it. They are written separately, and where a
frame is not complete they answer differently: `decode` has consumed the
header by then and can only fail. Everywhere else they agree
(`Codec.decoders_agree`).

What is decoded is not always what could have been encoded. The length octet
of an APDU is at most 253, and `encode` keeps to it (`MAX_ASDU_LEN`). The
decoders do not look: they take an I-frame of 254 or 255 octets as well, and
its ASDU cannot be sent again (`Codec.reencode_iff`).
-/

namespace Frame104

open Iec60870 Wire

namespace Codec

/-- The part of `decode` behind the header: the control octets, and what they
announce. -/
def decodeBody {β : Type} [Buf β] (length : ℕ) (buf : β) :
    Except Error (Option Apdu) × β :=
  let (c₁, buf) := Buf.getU8 buf
  let (c₂, buf) := Buf.getU8 buf
  let (c₃, buf) := Buf.getU8 buf
  let (c₄, buf) := Buf.getU8 buf
  if c₁ &&& 0x01 = 0 then
    let (asdu, buf) := Buf.copyToSlice (length - 4) buf
    (.ok (some (.i (SeqNo.fromWire (ofLe [c₁, c₂])) (SeqNo.fromWire (ofLe [c₃, c₄])) asdu)), buf)
  else if c₁ &&& 0x03 = 0x01 then
    if length ≠ 4 then (.error (.lengthMismatch length 4), buf)
    else (.ok (some (.s (SeqNo.fromWire (ofLe [c₃, c₄])))), buf)
  else if length ≠ 4 then (.error (.lengthMismatch length 4), buf)
  else
    match UFunction.fromFirstOctet c₁ with
    | some function => (.ok (some (.u function)), buf)
    | none => (.error .unsupportedFormat, buf)

/-- **The first APDU of a buffer, consuming it** (`decode`). -/
def decode {β : Type} [Buf β] (buf : β) : Except Error (Option Apdu) × β :=
  if Buf.remaining buf < 2 then (.ok none, buf)
  else
    let (header, buf) := Buf.copyToSlice 2 buf
    if header.getD 0 0 ≠ START then
      (.error (.invalidStartByte START (header.getD 0 0)), buf)
    else
      let length := (header.getD 1 0).toNat
      if length < 4 then (.error (.lengthMismatch length 4), buf)
      else if Buf.remaining buf < length then
        (.error (.incomplete length (Buf.remaining buf)), buf)
      else decodeBody length buf

/-! ## The two decoders -/

section Agree

variable {β : Type} [Buf β] {buf : β}

/-- **Behind the header the two decoders do the same**: one answers as the
other does, and has consumed the ASDU if it answers with an APDU. -/
theorem decodeBody_eq {length : ℕ} (hlen : 4 ≤ length)
    (hbuf : length ≤ (Buf.contents buf).length) : (decodeBody length buf).1
        = (decodePayload ((Buf.contents buf).take length) length).map some
      ∧ ∀ apdu, (decodeBody length buf).1 = .ok (some apdu) →
        Buf.contents (decodeBody length buf).2 = (Buf.contents buf).drop length := by
  obtain ⟨c₁, c₂, c₃, c₄, rest, hc⟩ : ∃ c₁ c₂ c₃ c₄ rest,
      Buf.contents buf = c₁ :: c₂ :: c₃ :: c₄ :: rest := by
    match hc : Buf.contents buf with
    | [] | [_] | [_, _] | [_, _, _] =>
      rw [hc] at hbuf
      simp only [List.length_cons, List.length_nil] at hbuf
      omega
    | c₁ :: c₂ :: c₃ :: c₄ :: rest => exact ⟨c₁, c₂, c₃, c₄, rest, rfl⟩
  obtain ⟨more, rfl⟩ := Nat.exists_eq_add_of_le' hlen
  rw [hc] at hbuf ⊢
  have hmore : more ≤ rest.length := by
    simp only [List.length_cons] at hbuf
    omega
  -- what the five reads give, and leave
  obtain ⟨h₁, hb₁⟩ := Buf.getU8_eq hc
  obtain ⟨h₂, hb₂⟩ := Buf.getU8_eq hb₁
  obtain ⟨h₃, hb₃⟩ := Buf.getU8_eq hb₂
  obtain ⟨h₄, hb₄⟩ := Buf.getU8_eq hb₃
  have hasdu := Buf.copyToSlice_eq (n := more) (hb₄ ▸ hmore)
  rw [hb₄] at hasdu
  unfold decodeBody
  dsimp only
  rw [h₁, h₂, h₃, h₄, Nat.add_sub_cancel]
  simp only [List.take_succ_cons, List.drop_succ_cons, decodePayload, Nat.add_sub_cancel,
    List.take_take, Nat.min_self]
  split
  · exact ⟨by rw [hasdu.1]; rfl, fun _ _ => hasdu.2⟩
  · split
    · split
      · exact ⟨rfl, fun _ h => by cases h⟩
      · rename_i h4
        obtain rfl : more = 0 := by omega
        exact ⟨rfl, fun _ _ => hb₄⟩
    · split
      · exact ⟨rfl, fun _ h => by cases h⟩
      · rename_i h4
        obtain rfl : more = 0 := by omega
        cases UFunction.fromFirstOctet c₁ with
        | none => exact ⟨rfl, fun _ h => by cases h⟩
        | some function => exact ⟨rfl, fun _ _ => hb₄⟩

/-- Fewer than two octets are left alone. -/
theorem decode_short (h : (Buf.contents buf).length < 2) : decode buf = (.ok none, buf) := by
  rw [decode, if_pos (by rw [Buf.remaining_eq]; exact h)]

/-- `decode` on a buffer that holds a header, check by check. -/
theorem decode_header {start len : UInt8} {rest : Bytes}
    (h : Buf.contents buf = start :: len :: rest) : decode buf
      = if start ≠ START then (.error (.invalidStartByte START start), (Buf.copyToSlice 2 buf).2)
        else if len.toNat < 4 then
          (.error (.lengthMismatch len.toNat 4), (Buf.copyToSlice 2 buf).2)
        else if rest.length < len.toNat then
          (.error (.incomplete len.toNat rest.length), (Buf.copyToSlice 2 buf).2)
        else decodeBody len.toNat (Buf.copyToSlice 2 buf).2 := by
  have hlen : ¬ Buf.remaining buf < 2 := by
    rw [Buf.remaining_eq, h, List.length_cons, List.length_cons]
    omega
  obtain ⟨hread, hleft⟩ := Buf.copyToSlice_eq (b := buf) (n := 2) (by
    rw [h, List.length_cons, List.length_cons]
    omega)
  rw [h] at hread hleft
  rw [decode, if_neg hlen]
  dsimp only
  rw [hread, Buf.remaining_eq, hleft]
  rfl

/-- **The three answers of the slice decoder, with those of the other.** -/
theorem decode_cases (buf : β) : (∃ apdu n, decodeSlice (Buf.contents buf) = .ok (some (apdu, n))
        ∧ (decode buf).1 = .ok (some apdu)
        ∧ Buf.remaining buf = Buf.remaining (decode buf).2 + n)
      ∨ (∃ e, decodeSlice (Buf.contents buf) = .error e ∧ (decode buf).1 = .error e)
      ∨ (decodeSlice (Buf.contents buf) = .ok none ∧ (decode buf = (.ok none, buf)
          ∨ ∃ needed available, (decode buf).1 = .error (.incomplete needed available))) := by
  match hc : Buf.contents buf with
  | [] => exact Or.inr (Or.inr ⟨rfl, Or.inl (decode_short (by rw [hc]; exact Nat.two_pos))⟩)
  | [_] => exact Or.inr (Or.inr ⟨rfl, Or.inl (decode_short (by rw [hc]; exact Nat.one_lt_two))⟩)
  | start :: len :: rest =>
    have hleft : Buf.contents (Buf.copyToSlice 2 buf).2 = rest := by
      have h := (Buf.copyToSlice_eq (b := buf) (n := 2) (by
        rw [hc, List.length_cons, List.length_cons]
        omega)).2
      rwa [hc] at h
    rw [decode_header hc, decodeSlice]
    dsimp only
    split
    · exact Or.inr (Or.inl ⟨_, rfl, rfl⟩)
    · split
      · exact Or.inr (Or.inl ⟨_, rfl, rfl⟩)
      · split
        · exact Or.inr (Or.inr ⟨rfl, Or.inr ⟨_, _, rfl⟩⟩)
        · -- the frame is complete, and both look at what is behind the header
          rename_i h4 hcomplete
          have hlong : len.toNat ≤ (Buf.contents (Buf.copyToSlice 2 buf).2).length := by
            rw [hleft]
            exact Nat.not_lt.mp hcomplete
          obtain ⟨hbody, hrest⟩ := decodeBody_eq (Nat.not_lt.mp h4) hlong
          rw [hleft] at hbody hrest
          cases hp : decodePayload (rest.take len.toNat) len.toNat with
          | error e =>
            rw [hp] at hbody
            exact Or.inr (Or.inl ⟨e, rfl, hbody⟩)
          | ok apdu =>
            rw [hp] at hbody
            refine Or.inl ⟨apdu, 2 + len.toNat, rfl, hbody, ?_⟩
            rw [Buf.remaining_eq, Buf.remaining_eq, hrest apdu hbody, hc, List.length_drop,
              List.length_cons, List.length_cons]
            omega

/-- **The two decoders agree.** On every buffer `decode` answers with an APDU
and has consumed `n` octets exactly if `decode_slice` answers with that APDU
and `n`; it fails as `decode_slice` fails; and where `decode_slice` asks for
more it does the same and consumes nothing, or says that the frame is
incomplete. -/
theorem decoders_agree (buf : β) : (∀ apdu n, ((decode buf).1 = .ok (some apdu)
          ∧ Buf.remaining buf = Buf.remaining (decode buf).2 + n)
        ↔ decodeSlice (Buf.contents buf) = .ok (some (apdu, n)))
      ∧ (∀ e, decodeSlice (Buf.contents buf) = .error e → (decode buf).1 = .error e)
      ∧ (decodeSlice (Buf.contents buf) = .ok none → decode buf = (.ok none, buf)
          ∨ ∃ needed available, (decode buf).1 = .error (.incomplete needed available)) := by
  obtain ⟨apdu, n, hslice, hdecode, hleft⟩ | ⟨e, hslice, hdecode⟩ | ⟨hslice, hdecode⟩ :=
    decode_cases buf
  · rw [hslice, hdecode]
    refine ⟨fun apdu' n' => ⟨?_, ?_⟩, nofun, nofun⟩
    · rintro ⟨happdu, hleft'⟩
      cases happdu
      rw [show n' = n by omega]
    · rintro ⟨⟩
      exact ⟨rfl, hleft⟩
  · rw [hslice, hdecode]
    refine ⟨fun apdu' n' => iff_of_false nofun nofun, fun e' he => ?_, nofun⟩
    rw [Except.error.inj he]
  · rw [hslice]
    refine ⟨fun apdu' n' => iff_of_false ?_ nofun, nofun, fun _ => hdecode⟩
    rintro ⟨happdu, -⟩
    obtain hnone | ⟨needed, available, herror⟩ := hdecode
    · rw [hnone] at happdu
      cases happdu
    · rw [herror] at happdu
      cases happdu

end Agree

/-! ## Encoding what was decoded -/

/-- What the length octet of a frame says. -/
def declaredLength (buf : Bytes) : ℕ := (buf.getD 1 0).toNat

/-- What a payload is decoded to: an I-frame has all octets behind the control
octets for its ASDU, and the other formats have none. -/
theorem decodePayload_some {buf : Bytes} {length : ℕ} {apdu : Apdu} (hlen : buf.length = length)
    (h : decodePayload buf length = .ok apdu) :
    (∃ send recv asdu, apdu = .i send recv asdu ∧ length = 4 + asdu.length)
      ∨ (apdu.iframe? = none ∧ length = 4) := by
  match buf with
  | [] | [_] | [_, _] | [_, _, _] => cases h
  | c₁ :: c₂ :: c₃ :: c₄ :: rest =>
    have hrest : length = 4 + rest.length := by
      rw [← hlen]
      exact Nat.add_comm _ 4
    rw [decodePayload] at h
    split at h
    · obtain rfl := Except.ok.inj h
      refine Or.inl ⟨_, _, _, rfl, ?_⟩
      rw [hrest, Nat.add_sub_cancel_left, List.take_length]
    · split at h
      · split at h
        · cases h
        · rename_i h4
          obtain rfl := Except.ok.inj h
          exact Or.inr ⟨rfl, not_not.mp h4⟩
      · split at h
        · cases h
        · rename_i h4
          split at h
          · obtain rfl := Except.ok.inj h
            exact Or.inr ⟨rfl, not_not.mp h4⟩
          · cases h

/-- What a buffer is decoded to is as long as its length octet says. -/
theorem decodeSlice_some {buf : Bytes} {apdu : Apdu} {n : ℕ}
    (h : decodeSlice buf = .ok (some (apdu, n))) :
    (∃ send recv asdu, apdu = .i send recv asdu ∧ declaredLength buf = 4 + asdu.length)
      ∨ (apdu.iframe? = none ∧ declaredLength buf = 4) := by
  obtain ⟨start, len, rest, rfl, -, hle, hp⟩ := exists_of_decodeSlice h
  exact decodePayload_some (List.length_take_of_le hle) hp

/-- An APDU is encoded unless its ASDU is too long. -/
theorem exists_encode_iff (apdu : Apdu) :
    (∃ bs, encode apdu = .ok bs) ↔ ∀ f ∈ apdu.iframe?, f.asdu.length ≤ MAX_ASDU_LEN := by
  cases apdu with
  | i send recv asdu =>
    rw [encode]
    split
    · rename_i hlong
      refine iff_of_false ?_ fun h => Nat.not_lt.mpr (h _ rfl) hlong
      rintro ⟨bs, ⟨⟩⟩
    · rename_i hshort
      refine iff_of_true ⟨_, rfl⟩ ?_
      rintro f ⟨⟩
      exact Nat.not_lt.mp hshort
  | s | u => exact iff_of_true ⟨_, rfl⟩ fun f hf => by cases hf

/-- **What was decoded can be sent again exactly if its length octet is one
that `encode` writes.** -/
theorem reencode_iff {buf : Bytes} {apdu : Apdu} {n : ℕ}
    (h : decodeSlice buf = .ok (some (apdu, n))) :
    (∃ bs, encode apdu = .ok bs ∧ decodeSlice bs = .ok (some (apdu, bs.length)))
      ↔ declaredLength buf ≤ 4 + MAX_ASDU_LEN := by
  have hread : (∃ bs, encode apdu = .ok bs ∧ decodeSlice bs = .ok (some (apdu, bs.length)))
      ↔ ∃ bs, encode apdu = .ok bs := by
    refine exists_congr fun bs => and_iff_left_of_imp fun hbs => ?_
    have := decodeSlice_encode hbs []
    rwa [List.append_nil] at this
  rw [hread, exists_encode_iff]
  obtain ⟨send, recv, asdu, rfl, hlen⟩ | ⟨hnone, hlen⟩ := decodeSlice_some h
  · rw [hlen, Nat.add_le_add_iff_left]
    exact ⟨fun hall => hall _ rfl, by rintro hle f ⟨⟩; exact hle⟩
  · rw [hnone, hlen]
    exact iff_of_true nofun (Nat.le_add_right 4 _)

/-- An S-frame with its reserved octet set, which is sent without it. -/
theorem reencode_reserved : decodeSlice [0x68, 4, 0x01, 0xFF, 0x0F, 0x00]
        = .ok (some (.s (SeqNo.new 7), 6)) ∧ ∃ bs, encode (.s (SeqNo.new 7)) = .ok bs
        ∧ decodeSlice bs = .ok (some (.s (SeqNo.new 7), bs.length)) := by
  have h : decodeSlice [0x68, 4, 0x01, 0xFF, 0x0F, 0x00]
      = .ok (some (.s (SeqNo.new 7), 6)) := by decide
  exact ⟨h, (reencode_iff h).mpr (by decide)⟩

/-- **An I-frame of 254 octets is decoded, and its ASDU cannot be sent
again.** -/
theorem reencode_tooLong :
    ¬ ∀ (buf : Bytes) (apdu : Apdu) (n : ℕ), decodeSlice buf = .ok (some (apdu, n)) →
      ∃ bs, encode apdu = .ok bs ∧ decodeSlice bs = .ok (some (apdu, bs.length)) := by
  intro h
  have hdecode : decodeSlice (0x68 :: 254 :: List.replicate 254 0)
      = .ok (some (.i (SeqNo.new 0) (SeqNo.new 0) (List.replicate 250 0), 256)) := by
    decide +kernel
  obtain ⟨bs, hbs, -⟩ := h _ _ _ hdecode
  have hshort := (exists_encode_iff _).mp ⟨bs, hbs⟩ _ rfl
  rw [List.length_replicate] at hshort
  exact absurd hshort (by decide)

end Codec

end Frame104
