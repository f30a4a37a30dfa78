import Iec60870.Frame101Codec
import Iec60870.Frame101Link
import Iec60870.Resync

/-!
# The receive loop of the serial driver

The serial driver works as the one of the other transport does
(`driver101.rs`, the inbound branch of `run`), but it does not end when the
buffer does not begin with a frame: it drops octets up to the next one that
can start a frame, and waits for the next read. It ends when the link layer
reports an error, when the stream ends, and when more than
`MAX_RX_BUFFERED_101` octets are left.

That it *waits* is where the way the stream is cut shows. The octets behind
the dropped ones stay in the buffer unread, although a frame may be complete
among them: junk and an acknowledgement that come in one read hand nothing
to the link, and hand it the acknowledgement if they come in two
(`receive_resync_oneRead`). And the cap on the buffer is compared with octets
that have never been looked at.

What every way of cutting the stream should lead to are the frames that a
decoder finds which drops a refused octet and goes on (`Chunked.frames`). The
loop gets there exactly if no read leaves more behind a refused frame than
the buffer may hold, and the last one no frame (`receive_resync`).
-/

namespace Frame101

open Iec60870 Chunked

/-- How much may be buffered without a complete frame. -/
def MAX_RX_BUFFERED_101 : ℕ := 1024

/-- The octets a frame can start with. -/
def FT12_START_BYTES : List UInt8 := [0x10, 0x68, 0xE5, 0xA2]

/-- Whether a frame can start with an octet. -/
def isStart (b : UInt8) : Bool := FT12_START_BYTES.contains b

/-- **What the driver does with a buffer it cannot decode**: skip past the
offending octet to the next start octet, or drop everything. -/
def resynchronise {σ : Type} (_ : Error) (r : Receiver σ UInt8 Error (Frame Bytes)) :
    Receiver σ UInt8 Error (Frame Bytes) :=
  if r.buf.isEmpty then r
  else
    let afterFirst := r.buf.drop 1
    let next := ((afterFirst.findIdx? isStart).map (· + 1)).getD r.buf.length
    { r with buf := r.buf.drop next }

/-- **One read of the driver**, with the consumer of the frames. -/
def receive {σ : Type} (size : LinkAddressSize)
    (handle : σ → Frame Bytes → σ × Bool) :
    Receiver σ UInt8 Error (Frame Bytes) → Bytes → Receiver σ UInt8 Error (Frame Bytes) :=
  Receiver.read (Codec.decodeSlice size) resynchronise MAX_RX_BUFFERED_101 handle

/-- The link layer as a consumer, with the readings of the clock to come: it
goes on unless it reports an error. -/
def deliver (s : Connection Bytes × List Instant) (frame : Frame Bytes) :
    (Connection Bytes × List Instant) × Bool :=
  let r := s.1.handle (.frameReceived frame, s.2.headD 0)
  ((r.1, s.2.tail), !r.2.any fun a => a matches .linkError _)

/-! ## The loop is a resynchronising one -/

/-- The octets from the first start octet on. -/
theorem dropWhile_eq_drop_findIdx? (bs : Bytes) : bs.dropWhile (fun b => !isStart b)
      = bs.drop ((bs.findIdx? isStart).getD bs.length) := by
  rw [List.dropWhile_eq_drop_findIdx_not]
  have hnot : (fun b => !!isStart b) = isStart := funext fun b => Bool.not_not _
  rw [hnot]
  cases hf : bs.findIdx? isStart with
  | none => rw [List.findIdx_eq_length.mpr (List.findIdx?_eq_none_iff.mp hf)]; rfl
  | some i => rw [(List.findIdx?_eq_some_iff_findIdx_eq.mp hf).2]; rfl

/-- Skipping by position is dropping what is no start. -/
theorem resynchronise_eq {σ : Type} : resynchronise (σ := σ) = Receiver.skipAhead isStart := by
  funext e r
  obtain ⟨node, buf, handed, status⟩ := r
  cases buf with
  | nil => rfl
  | cons b bs =>
    show Receiver.mk _ ((b :: bs).drop _) _ _ = Receiver.mk _ (bs.dropWhile fun b => !isStart b) _ _
    rw [dropWhile_eq_drop_findIdx?]
    show Receiver.mk _ ((b :: bs).drop (((bs.findIdx? isStart).map (· + 1)).getD
      (bs.length + 1))) _ _ = _
    cases bs.findIdx? isStart with
    | none | some => rfl

/-- Only a start octet begins a frame. -/
theorem decodeSlice_of_not_isStart (size : LinkAddressSize) (b : UInt8)
    (rest : Bytes) (h : isStart b = false) :
    ∃ e, Codec.decodeSlice size (b :: rest) = .error e := by
  have hmem : ∀ c ∈ FT12_START_BYTES, b ≠ c := by
    rintro c hc rfl
    rw [isStart, List.contains_iff_mem.mpr hc] at h
    cases h
  have hchar : SingleChar.fromByte b = none := by
    unfold SingleChar.fromByte
    split
    · exact absurd rfl (hmem 0xE5 (by decide))
    · exact absurd rfl (hmem 0xA2 (by decide))
    · rfl
  exact ⟨_, Codec.decodeSlice_junk size hchar (hmem 0x10 (by decide)) (hmem 0x68 (by decide)) rest⟩

/-- **The reads leave nothing to catch up with.** After each read – given
what was in the buffer before it, and unless the link layer stops the driver
in it – the octets from the next start octet on behind a refused frame are no
more than the buffer may hold, and behind the last read there is no frame
among them. -/
def CatchesUp {σ : Type} (size : LinkAddressSize)
    (handle : σ → Frame Bytes → σ × Bool) (node : σ) (reads : List Bytes) : Prop :=
  Chunked.CatchesUp (Codec.decodeSlice size) isStart MAX_RX_BUFFERED_101 handle node reads

instance {σ : Type} (size : LinkAddressSize) (handle : σ → Frame Bytes → σ × Bool)
    (node : σ) (reads : List Bytes) : Decidable (CatchesUp size handle node reads) :=
  inferInstanceAs (Decidable (_ ∧ _))

/-- **The receive loop resynchronises, up to what it leaves unread.** Whatever
consumes the frames: after the last read the loop has handed over the frames
of the stream, and has not been ended by the cap on its buffer, exactly if
the reads leave nothing to catch up with. So two ways of cutting one stream
that both leave nothing lead to the same frames, and neither to the error. -/
theorem receive_resync {σ : Type} (size : LinkAddressSize)
    (handle : σ → Frame Bytes → σ × Bool) (node : σ) {reads : List Bytes}
    (hne : ∀ c ∈ reads, c ≠ []) :
    let received := fun reads : List Bytes =>
      reads.foldl (receive size handle) (.start node)
    let whole := consume handle node (frames (Codec.decodeSlice size) reads.flatten)
    (((received reads).handed = whole.handed
        ∧ (received reads).status = if whole.goOn then .running else .stopped)
      ↔ CatchesUp size handle node reads)
    ∧ ∀ reads' : List Bytes, (∀ c ∈ reads', c ≠ []) →
      reads'.flatten = reads.flatten → CatchesUp size handle node reads →
      CatchesUp size handle node reads' →
      (received reads).handed = (received reads').handed
        ∧ (received reads).status ≠ .overflow
        ∧ (received reads').status ≠ .overflow := by
  intro received whole
  have hfeed : received = Receiver.feed (Codec.decodeSlice size) isStart
      MAX_RX_BUFFERED_101 handle node := by
    funext rs
    show rs.foldl (Receiver.read _ resynchronise _ handle) _ = _
    rw [resynchronise_eq]
    rfl
  have hcap : ∀ buf : Bytes, Codec.decodeSlice size buf = .ok none →
      buf.length ≤ MAX_RX_BUFFERED_101 :=
    fun buf h => (Nat.le_of_lt (Codec.length_of_none h)).trans (by decide)
  have hiff := fun {rs : List Bytes} (hrs : ∀ c ∈ rs, c ≠ []) =>
    feed_resync_iff handle node (Codec.incremental_decodeSlice size)
      (decodeSlice_of_not_isStart size) hcap hrs
  rw [hfeed]
  refine ⟨hiff hne, fun reads' hne' heq hup hup' => ?_⟩
  -- both lead to what the whole stream leads to
  obtain ⟨hh, hs⟩ := (hiff hne).mpr hup
  obtain ⟨hh', hs'⟩ := (hiff hne').mpr hup'
  rw [heq] at hh' hs'
  rw [hs, hs']
  refine ⟨hh.trans hh'.symm, ?_, ?_⟩ <;>
  · split
    · exact fun e => nomatch e
    · exact fun e => nomatch e

/-- A junk octet and then a request for the status of the link, which is
handed over however it is cut. -/
theorem receive_resync_afterJunk :
    let reads : List Bytes := [[0x00], [0x10, 0x49, 0x01, 0x4A, 0x16]]
    let reads' : List Bytes := [[0x00], [0x10, 0x49], [0x01, 0x4A, 0x16]]
    let node := (Connection.unbalanced .outstation .default, [0, 1])
    let received := fun reads : List Bytes =>
      reads.foldl (receive .one deliver) (.start node)
    (received reads).handed = [.fixedLength 0x49 ⟨1⟩]
      ∧ (received reads).handed = (received reads').handed := by
  intro reads reads' node received
  have hne : ∀ c ∈ reads, c ≠ [] := by decide
  have h := (receive_resync .one deliver node hne).2 reads' (by decide) rfl
    (by decide +kernel) (by decide +kernel)
  exact ⟨by decide +kernel, h.1⟩

/-- **An acknowledgement behind junk is not handed over in the same read**,
and is in the next one. -/
theorem receive_resync_oneRead :
    let node := (Connection.unbalanced .master .default, [0, 1])
    let received := fun reads : List Bytes =>
      reads.foldl (receive .one deliver) (.start node)
    [[0x00, 0xE5]].flatten = ([[0x00], [0xE5]] : List Bytes).flatten
      ∧ (received [[0x00, 0xE5]]).handed = []
      ∧ (received [[0x00], [0xE5]]).handed = [.single .ack]
      ∧ ¬ CatchesUp .one deliver node [[0x00, 0xE5]] := by
  intro node received
  exact ⟨rfl, by decide +kernel, by decide +kernel, by decide +kernel⟩

end Frame101
