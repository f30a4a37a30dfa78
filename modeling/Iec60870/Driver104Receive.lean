import Iec60870.Frame104Codec

/-!
# The receive loop of the driver

The driver of a connection reads octets from its transport as they come,
appends them to a buffer and hands every APDU the buffer begins with to the
connection (`driver.rs`, the inbound branch of `run`). It ends when the
connection asks for a disconnect, when the buffer does not begin with an
APDU, when the stream ends, and – as a guard against a peer that never
finishes a frame – when more than `MAX_RX_BUFFERED` octets are left.

How the transport cuts the stream into reads makes no difference
(`receive_chunking`), and the guard never acts: what is left after a read is
less than one APDU of the longest kind. The statement is about every
consumer in place of the connection, whatever else it does between two
APDUs; `deliver` is the connection itself.
-/

namespace Frame104

open Iec60870 Chunked

/-- How much may be buffered without a complete APDU. -/
def MAX_RX_BUFFERED : ℕ := 4 * 1024

/-- **One read of the driver**, with the consumer of the APDUs. -/
def receive {σ : Type} (handle : σ → Apdu → σ × Bool) :
    Receiver σ UInt8 Error Apdu → Bytes → Receiver σ UInt8 Error Apdu :=
  Receiver.read Codec.decodeSlice .fail MAX_RX_BUFFERED handle

/-- The connection as a consumer, with the readings of the clock to come: it
goes on unless it asks for a disconnect. -/
def deliver (s : Connection × List Instant) (apdu : Apdu) :
    (Connection × List Instant) × Bool :=
  let r := s.1.handle (.apdu apdu) (s.2.headD 0)
  ((r.1, s.2.tail), !disconnects r.2)

/-- **The receive loop does not depend on how the stream is cut.** Whatever
consumes the APDUs, after any reads of a stream the loop is where decoding
the whole stream at once leads: it has handed over a beginning of the
stream's APDUs, all of them unless the consumer asked to stop, and has failed
exactly if the stream is refused, with the same error. A stream of encoded
APDUs is decoded into them. And after each read fewer than 257 octets are
left, so that the guard does not act. -/
theorem receive_chunking {σ : Type} (handle : σ → Apdu → σ × Bool) (node : σ)
    {reads : List Bytes} (hne : ∀ c ∈ reads, c ≠ []) :
    let r := reads.foldl (receive handle) (.start node)
    let whole := decodeAll Codec.decodeSlice reads.flatten
    r = finish .fail handle node [] whole
      ∧ r.handed <+: whole.items
      ∧ (r.status = .stopped ∨ r.handed = whole.items
          ∧ r.status = whole.error.elim .running .failed)
      ∧ (∀ apdus parts, apdus.mapM Codec.encode = .ok parts →
          reads.flatten = parts.flatten → whole = ⟨apdus, [], none⟩)
      ∧ ∀ n, ((reads.take n).foldl (receive handle) (.start node)).buf.length < 257
          ∧ ((reads.take n).foldl (receive handle) (.start node)).status
            ≠ .overflow := by
  intro r whole
  have hcap : ∀ buf : Bytes, Codec.decodeSlice buf = .ok none →
      buf.length ≤ 256 := fun buf h => Codec.length_of_none h
  have hcap' : ∀ buf : Bytes, Codec.decodeSlice buf = .ok none →
      buf.length ≤ MAX_RX_BUFFERED :=
    fun buf h => (hcap buf h).trans (by decide)
  have hfeed : ∀ {rs : List Bytes}, (∀ c ∈ rs, c ≠ []) →
      rs.foldl (receive handle) (.start node)
        = finish .fail handle node [] (decodeAll Codec.decodeSlice rs.flatten) :=
    fun h => feed_eq Codec.incremental_decodeSlice hcap' node h
  have hr : r = finish .fail handle node [] whole := hfeed hne
  obtain ⟨hpre, hall⟩ := handed_finish (σ := σ) node whole
  refine ⟨hr, hr ▸ hpre, hr ▸ hall, ?_, fun n => ?_⟩
  · rintro apdus parts h heq
    exact (congrArg _ heq).trans (Codec.decodeAll_encode h)
  · rw [hfeed fun c hc => hne c (List.mem_of_mem_take hc)]
    refine ⟨Nat.lt_succ_of_le (length_buf_finish Codec.incremental_decodeSlice hcap
      node [] _), ?_⟩
    -- a loop that has only decoded has not been ended by the guard
    obtain ⟨-, h | ⟨-, h⟩⟩ := handed_finish (σ := σ) node
      (decodeAll Codec.decodeSlice (reads.take n).flatten)
    · rw [h]
      exact fun e => nomatch e
    · rw [h]
      cases (decodeAll Codec.decodeSlice (reads.take n).flatten).error with
      | none | some e => exact fun e => nomatch e

/-- STARTDT and an I-frame, cut in the middle of both. -/
theorem receive_chunking_cutFrames :
    let reads : List Bytes :=
      [[0x68, 0x04, 0x07], [0x00, 0x00, 0x00, 0x68], [0x05, 0x00, 0x00, 0x00],
       [0x00, 0x2A]]
    let node := (Connection.new .server .default, [0, 1])
    let r := reads.foldl (receive deliver) (.start node)
    r.handed = [.u .startDtAct, .i (SeqNo.new 0) (SeqNo.new 0) [0x2A]]
      ∧ r.handed <+: (decodeAll Codec.decodeSlice reads.flatten).items := by
  intro reads node r
  exact ⟨by decide +kernel, (receive_chunking deliver node (by decide)).2.1⟩

end Frame104
