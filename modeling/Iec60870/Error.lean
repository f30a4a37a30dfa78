import Iec60870.Wire

/-!
# Codec errors

The error type every codec of the crate fails with (`error.rs`), and the
readers that fail with it. A reader that finds too few octets reports how
many it needed and how many there were: this is how `Error` is an
`Underrun` of `Iec60870.Wire`, and `Wire.ensure` at this type is the helper
`ensure` that each file of the source's `asdu` directory repeats.

The `Buf::get_*` calls of the source panic on a buffer that is too short.
Every one of them stands behind an `ensure` for at least the octets it
takes, and `Wire.getU8` and its relatives report an underrun there, so the
readers below agree with the source on every input.
-/

namespace Iec60870

/-- Errors produced by the codecs (`Error`). -/
inductive Error where
  /-- The buffer is too short. -/
  | incomplete (needed available : ℕ)
  /-- A frame does not start with its start octet. -/
  | invalidStartByte (expected got : UInt8)
  /-- A frame does not end with its end octet. -/
  | invalidEndByte (expected got : UInt8)
  /-- A length octet disagrees with the frame's body. -/
  | lengthMismatch (declared actual : ℕ)
  /-- The two length octets of a frame disagree. -/
  | lengthOctetsDiffer (first second : UInt8)
  /-- The checksum of a frame is wrong. -/
  | checksumMismatch (expected got : UInt8)
  /-- The type identification is not the expected one. -/
  | unknownAsduType (typeId : UInt8)
  /-- A field holds a value it cannot hold. -/
  | invalidValue (field : String) (value : Int)
  /-- The frame format is not supported. -/
  | unsupportedFormat
  /-- An ASDU does not fit a frame. -/
  | asduTooLong (len max : ℕ)
deriving DecidableEq, Repr

instance : Wire.Underrun Error := ⟨.incomplete⟩

/-- The readers of the crate: `fn decode<B: Buf>(buf: &mut B) -> Result<α>`
consumes octets of the buffer and returns a value or an `Error`. -/
abbrev Decoder (α : Type) := Wire.Decoder Error α

/-- The codecs of the crate. -/
abbrev Codec (α : Type) := Wire.Codec Error α

end Iec60870
