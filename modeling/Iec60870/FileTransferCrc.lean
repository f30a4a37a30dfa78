import Iec60870.Crc
import Iec60870.FileTransferFs

/-!
# The check behind the file names

The index of the file system provider gives a file the CRC-16 of its name
(`crc16_ibm` of `file_transfer/fs.rs`), computed an octet at a time from a table
that the compiler fills in. The check is CRC-16/ARC: the generator is
`X ^ 16 + X ^ 15 + X ^ 2 + 1`, in hexadecimal `8005` without the leading term,
the register starts at zero, the bits of an octet are taken from the least
significant one on, and nothing is added at the end.
-/

namespace FileTransfer

open Iec60870 Polynomial

/-- The generator of CRC-16/ARC, backwards. -/
def arcGenerator : BitVec 16 := (0x8005#16).reverse

/-- The bits of a message, in the order in which the check takes them. -/
def messageBits (data : Bytes) : List Bool := data.flatMap fun b => Crc.bits b.toBitVec

/-- **CRC-16/ARC**, bit by bit. -/
def crc16Arc (data : Bytes) : BitVec 16 := Crc.serial arcGenerator (messageBits data)

theorem arcGenerator_eq : arcGenerator = 0xA001#16 := by decide

/-- One step of the loop that fills in a row of the table. -/
theorem toBitVec_tableStep (c : UInt16) :
    (if c &&& 1 ≠ 0 then (c >>> 1) ^^^ 0xA001 else c >>> 1 : UInt16).toBitVec
      = Crc.shift arcGenerator c.toBitVec := by
  have hbit : (c &&& 1 ≠ 0) ↔ c.toBitVec.getLsbD 0 = true := by
    rw [ne_eq, ← UInt16.toBitVec_inj]
    show ¬ c.toBitVec &&& 1#16 = 0#16 ↔ _
    rw [BitVec.and_one_eq_setWidth_ofBool_getLsbD]
    cases c.toBitVec.getLsbD 0 <;> decide
  rw [Crc.shift, arcGenerator_eq]
  by_cases h : c &&& 1 ≠ 0
  · rw [if_pos h, hbit.mp h]
    rfl
  · rw [if_neg h, Bool.eq_false_iff.mpr (mt hbit.mpr h)]
    exact (BitVec.xor_zero).symm

/-- A row of the table is eight steps of the register. -/
theorem toBitVec_crc16IbmTable (i : UInt8) :
    (crc16IbmTable i).toBitVec = (Crc.shift arcGenerator)^[8] (i.toBitVec.setWidth 16) := by
  have hsemi : Function.Semiconj UInt16.toBitVec
      (fun c => if c &&& 1 ≠ 0 then (c >>> 1) ^^^ 0xA001 else c >>> 1)
      (Crc.shift arcGenerator) := toBitVec_tableStep
  exact hsemi.iterate_right 8 i.toUInt16

/-- **One look-up in the table is eight steps of the register.** -/
theorem toBitVec_crcStep (crc : UInt16) (b : UInt8) :
    ((crc >>> 8) ^^^ crc16IbmTable (crc.toUInt8 ^^^ b)).toBitVec
      = (Crc.bits b.toBitVec).foldl (Crc.bitStep arcGenerator) crc.toBitVec := by
  rw [Crc.foldl_bitStep_table arcGenerator (by decide), UInt16.toBitVec_xor, toBitVec_crc16IbmTable]
  rfl

theorem toBitVec_crc16Ibm (data : Bytes) : (crc16Ibm data).toBitVec = crc16Arc data := by
  have hfold (crc : UInt16) :
      (data.foldl (fun (crc : UInt16) b => (crc >>> 8) ^^^ crc16IbmTable (crc.toUInt8 ^^^ b))
        crc).toBitVec
        = (messageBits data).foldl (Crc.bitStep arcGenerator) crc.toBitVec := by
    induction data generalizing crc with
    | nil => rfl
    | cons b data ih =>
      have hbits : messageBits (b :: data) = Crc.bits b.toBitVec ++ messageBits data :=
        List.flatMap_cons
      rw [List.foldl_cons, ih, toBitVec_crcStep, hbits, List.foldl_append]
  exact hfold 0

/-! ## Linearity -/

theorem crc16IbmTable_xor (a b : UInt8) :
    crc16IbmTable (a ^^^ b) = crc16IbmTable a ^^^ crc16IbmTable b := by
  rw [← UInt16.toBitVec_inj, UInt16.toBitVec_xor, toBitVec_crc16IbmTable,
    toBitVec_crc16IbmTable, toBitVec_crc16IbmTable, UInt8.toBitVec_xor, BitVec.setWidth_xor,
    Crc.shift_iterate_xor]

/-- One octet of two messages at once. -/
theorem crcStep_xor (crc crc' : UInt16) (x y : UInt8) :
    ((crc ^^^ crc') >>> 8) ^^^ crc16IbmTable ((crc ^^^ crc').toUInt8 ^^^ (x ^^^ y))
      = ((crc >>> 8) ^^^ crc16IbmTable (crc.toUInt8 ^^^ x))
        ^^^ ((crc' >>> 8) ^^^ crc16IbmTable (crc'.toUInt8 ^^^ y)) := by
  have hoctet : (crc ^^^ crc').toUInt8 ^^^ (x ^^^ y)
      = (crc.toUInt8 ^^^ x) ^^^ (crc'.toUInt8 ^^^ y) := by
    rw [UInt16.toUInt8_xor]
    ac_rfl
  rw [hoctet, crc16IbmTable_xor, UInt16.shiftRight_xor]
  ac_rfl

/-- **The check is linear**: the check of the exclusive or of two messages of one
length is the exclusive or of their checks. -/
theorem crc16Ibm_zipWith_xor {a b : Bytes} (h : a.length = b.length) :
    crc16Ibm (a.zipWith (· ^^^ ·) b) = crc16Ibm a ^^^ crc16Ibm b := by
  have hfold (crc crc' : UInt16) : (a.zipWith (· ^^^ ·) b).foldl (fun (crc : UInt16) b =>
          (crc >>> 8) ^^^ crc16IbmTable (crc.toUInt8 ^^^ b)) (crc ^^^ crc')
        = a.foldl (fun (crc : UInt16) b =>
            (crc >>> 8) ^^^ crc16IbmTable (crc.toUInt8 ^^^ b)) crc
          ^^^ b.foldl (fun (crc : UInt16) b =>
            (crc >>> 8) ^^^ crc16IbmTable (crc.toUInt8 ^^^ b)) crc' := by
    induction a generalizing b crc crc' with
    | nil =>
      obtain rfl := List.length_eq_zero_iff.mp h.symm
      rfl
    | cons x a ih =>
      cases b with
      | nil => cases h
      | cons y b =>
        rw [List.zipWith_cons_cons, List.foldl_cons, crcStep_xor, ih (Nat.succ.inj h)]
        rfl
  exact hfold 0 0

/-! ## The remainder -/

/-- The generator as a polynomial. -/
theorem modulus_arcGenerator : Crc.modulus arcGenerator = X ^ 16 + X ^ 15 + X ^ 2 + 1 := by
  rw [Crc.modulus, arcGenerator_eq, Crc.toPoly]
  simp [Finset.sum_range_succ]
  ring

/-- **The check of the index is CRC-16/ARC**, as a register computes it bit by bit
and as the remainder of a division: the message, read as a polynomial whose first
bit is the leading coefficient, is multiplied by `X ^ 16` and divided by
`X ^ 16 + X ^ 15 + X ^ 2 + 1`. -/
theorem crc16Ibm_correct (data : Bytes) : (crc16Ibm data).toBitVec = crc16Arc data
      ∧ Crc.toPoly (crc16Ibm data).toBitVec
        = (Crc.message (messageBits data) * X ^ 16)
          %ₘ (X ^ 16 + X ^ 15 + X ^ 2 + 1) := by
  refine ⟨toBitVec_crc16Ibm data, ?_⟩
  rw [toBitVec_crc16Ibm, crc16Arc, Crc.toPoly_serial, modulus_arcGenerator]

example : crc16Ibm [49, 50, 51, 52, 53, 54, 55, 56, 57] = 0xBB3D := by decide +kernel

end FileTransfer
