import Iec60870.AsduEnvelope
import Iec60870.WireExact

/-!
# The envelope loses nothing

An ASDU of a type that nobody here knows is kept as its header and the octets
behind it (`asdu/envelope.rs`), and may be passed on. The header is taken apart
into fields and put together again, by functions that mention each bit twice:
the qualifier has its flag and its count, the cause its two flags beside the
number, the common address its octets. There are no reserved bits, so all
of an octet has to come back.

`Asdu.round_trip` is about the headers that fit their widths, and says that
they are read back. Here it is the other way round, about the octets: whatever
is read is written back as it was, under each of the twelve addressings, and
nothing but a string shorter than the header is refused.
-/

namespace Iec60870

open Wire

/-! ## The fields of the header -/

theorem Vsq.restores : Restores Vsq.decode Vsq.encode := by
  have hoctet : ∀ b : UInt8, flagged (b &&& 0x7F) (b &&& 0x80 != 0) = b := by
    decide +kernel
  exact Restores.ensure (restores_getU8.map fun b => congrArg (fun x => [x]) (hoctet b))

theorem Vsq.fixed : Fixed Vsq.decode 1 :=
  Fixed.ensure le_rfl fixed_getU8.map

namespace Cot

/-- Packing the first octet undoes unpacking it. -/
theorem firstOctet_parse : ∀ b : UInt8, firstOctet (parseFirstOctet b) = b := by
  decide +kernel

theorem restores (size : CotSize) : Restores (decode size) fun c => c.encode size := by
  cases size with
  | one =>
    exact Restores.ensure (restores_getU8.map fun b => congrArg (fun x => [x]) (firstOctet_parse b))
  | two =>
    refine Restores.ensure fun s c t hrun => ?_
    obtain ⟨first, r, hfirst, hrun⟩ := run_bind_eq_ok.mp hrun
    obtain ⟨originator, r', horiginator, hrun⟩ := run_bind_eq_ok.mp hrun
    obtain ⟨rfl, rfl⟩ := run_pure_eq_ok.mp hrun
    have hs : [first] ++ r = s := restores_getU8 s first r hfirst
    have hr : [originator] ++ r' = r := restores_getU8 r originator r' horiginator
    rw [← hs, ← hr]
    show firstOctet (parseFirstOctet first) :: originator :: r' = _
    rw [firstOctet_parse]
    rfl

theorem fixed (a : AsduAddressing) : Fixed (decode a.cotSize) a.cotLen := by
  obtain ⟨cotSize, caSize, ioaSize⟩ := a
  cases cotSize with
  | one => exact Fixed.ensure le_rfl fixed_getU8.map
  | two => exact Fixed.ensure le_rfl (fixed_getU8.bind fun _ => fixed_getU8.map)

/-- A cause that has been read is one of six bits. -/
theorem yields (size : CotSize) : Yields (decode size) fun c => c.cause.raw < 64 := by
  have hmask : ∀ b : UInt8, b &&& 0x3F < 64 := by decide +kernel
  cases size with
  | one => exact Yields.ensure ((Yields.trivial getU8).map fun b _ => hmask b)
  | two =>
    exact Yields.ensure ((Yields.trivial getU8).bind fun b _ =>
      (Yields.trivial getU8).map fun _ _ => hmask b)

end Cot

theorem restores_ca (size : CaSize) : Restores (decodeCa size) fun ca => encodeCa ca size := by
  have hoctet : ∀ b : UInt8, b.toUInt16.toUInt8 = b := by decide +kernel
  cases size with
  | one =>
    exact Restores.ensure (restores_getU8.map fun b => congrArg (fun x => [x]) (hoctet b))
  | two => exact Restores.ensure (restores_getU16Le.map fun _ => rfl)

theorem fixed_ca (a : AsduAddressing) : Fixed (decodeCa a.caSize) a.caLen := by
  obtain ⟨cotSize, caSize, ioaSize⟩ := a
  cases caSize with
  | one => exact Fixed.ensure le_rfl fixed_getU8.map
  | two => exact Fixed.ensure le_rfl fixed_getU16Le.map

/-! ## The envelope -/

namespace Asdu

variable {addressing : AsduAddressing} {s t : Bytes} {a : Asdu}

/-- **What has been read is written as it was**, and nothing is left. -/
theorem encode_of_decode (h : (decode addressing).run s = .ok (a, t)) :
    a.encode addressing = s ∧ t = [] ∧ a.cot.cause.raw < 64 := by
  obtain ⟨_, r₀, hensure, hfields⟩ := run_bind_eq_ok.mp h
  obtain ⟨-, rfl⟩ := run_ensure_eq_ok hensure
  obtain ⟨typeId, r₁, htype, hfields⟩ := run_bind_eq_ok.mp hfields
  obtain ⟨vsq, r₂, hvsq, hfields⟩ := run_bind_eq_ok.mp hfields
  obtain ⟨cot, r₃, hcot, hfields⟩ := run_bind_eq_ok.mp hfields
  obtain ⟨ca, r₄, hca, hfields⟩ := run_bind_eq_ok.mp hfields
  -- the payload is all that the header leaves
  obtain ⟨rfl, rfl⟩ : Asdu.mk typeId vsq cot ca r₄ = a ∧ [] = t := run_pure_eq_ok.mp hfields
  refine ⟨?_, rfl, Cot.yields _ _ _ _ hcot⟩
  show [typeId] ++ (vsq.encode ++ (cot.encode _ ++ (encodeCa ca _ ++ r₄))) = r₀
  rw [restores_ca _ _ _ _ hca, Cot.restores _ _ _ _ hcot, Vsq.restores _ _ _ hvsq,
    restores_getU8 _ _ _ htype]

/-- **A string that has room for the header is read.** -/
theorem exists_decode (h : headerLen addressing ≤ s.length) :
    ∃ a, (decode addressing).run s = .ok (a, []) := by
  have hfields : Fixed (do
      let typeId ← getU8
      let vsq ← Vsq.decode
      let cot ← Cot.decode addressing.cotSize
      let ca ← decodeCa addressing.caSize
      return (typeId, vsq, cot, ca) : Decoder (UInt8 × Vsq × Cot × CommonAddress))
      (1 + (1 + (addressing.cotLen + addressing.caLen))) :=
    fixed_getU8.bind fun _ => Vsq.fixed.bind fun _ =>
      (Cot.fixed addressing).bind fun _ => (fixed_ca addressing).map
  obtain ⟨_, hrun⟩ := hfields.enough s (by unfold headerLen at h; omega)
  obtain ⟨typeId, r₁, htype, hrun⟩ := run_bind_eq_ok.mp hrun
  obtain ⟨vsq, r₂, hvsq, hrun⟩ := run_bind_eq_ok.mp hrun
  obtain ⟨cot, r₃, hcot, hrun⟩ := run_bind_eq_ok.mp hrun
  obtain ⟨ca, r₄, hca, -⟩ := run_bind_eq_ok.mp hrun
  refine ⟨⟨typeId, vsq, cot, ca, r₄⟩, ?_⟩
  unfold decode
  rw [run_ensure h]
  exact run_bind_eq_ok.mpr ⟨typeId, r₁, htype, run_bind_eq_ok.mpr ⟨vsq, r₂, hvsq,
    run_bind_eq_ok.mpr ⟨cot, r₃, hcot, run_bind_eq_ok.mpr ⟨ca, r₄, hca, rfl⟩⟩⟩⟩

/-- **The envelope loses nothing**: under every addressing, whatever octets are
read as an ASDU are what the ASDU is written as, and every string with as many
octets as the header is read. -/
theorem lossless (addressing : AsduAddressing) (s : Bytes) :
    (∀ a t, (decode addressing).run s = .ok (a, t) → a.encode addressing = s ∧ t = [])
      ∧ (headerLen addressing ≤ s.length → ∃ a, (decode addressing).run s = .ok (a, [])) :=
  ⟨fun _ _ h => ⟨(encode_of_decode h).1, (encode_of_decode h).2.1⟩, exists_decode⟩

/-- An ASDU of a type without a name, with all bits of its header set, in the
narrowest header. -/
theorem lossless_allOnes :
    ∃ a, (decode ⟨.one, .one, .one⟩).run [255, 255, 255, 255, 1, 2] = .ok (a, [])
      ∧ a.cot = ⟨⟨63⟩, true, true, 0⟩
      ∧ a.encode ⟨.one, .one, .one⟩ = [255, 255, 255, 255, 1, 2] := by
  obtain ⟨hback, hread⟩ := lossless ⟨.one, .one, .one⟩ [255, 255, 255, 255, 1, 2]
  obtain ⟨a, ha⟩ := hread (by decide)
  refine ⟨a, ha, ?_, (hback a [] ha).1⟩
  cases ha
  decide

end Asdu

end Iec60870
