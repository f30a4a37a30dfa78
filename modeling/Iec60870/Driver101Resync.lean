import Iec60870.Driver101Receive
import Iec60870.ResyncLoop

/-!
# The serial driver resynchronises soundly

What `Driver101Receive` says of the serial driver's receive loop is about what
it leaves unread. This module is about what it never does wrong, in whatever
way the stream is cut into reads (`driver101.rs`, the inbound branch of `run`).

The stream of an honest peer on a noisy line is some junk and then frames. As
long as no octet of the junk can start a frame, the driver hands the link
nothing but these frames, in their order, and has handed over every frame that
is there as a whole whenever its loop waits for more. On any stream at all, it
begins its next loop with a start octet, an iteration that goes on shortens the
buffer, and the link is closed for too much buffered data only behind a frame
that was refused.
-/

namespace Frame101

open Iec60870 Chunked

/-- One iteration of the driver's loop. -/
def iterate {σ : Type} (size : LinkAddressSize) (handle : σ → Frame Bytes → σ × Bool)
    (r : Receiver σ UInt8 Error (Frame Bytes)) : Iteration σ UInt8 Error (Frame Bytes) :=
  r.iterate (Codec.decodeSlice size) resynchronise handle

/-- How the loop of a read ends. -/
def loopEnd {σ : Type} (size : LinkAddressSize) (handle : σ → Frame Bytes → σ × Bool)
    (r : Receiver σ UInt8 Error (Frame Bytes)) (chunk : Bytes) : Option (LoopEnd Error) :=
  r.loopEnd (Codec.decodeSlice size) resynchronise handle chunk

section Resync

variable {σ : Type} (size : LinkAddressSize) (handle : σ → Frame Bytes → σ × Bool) (node : σ)

theorem received_eq (reads : List Bytes) : reads.foldl (receive size handle) (.start node)
      = Receiver.feed (Codec.decodeSlice size) isStart MAX_RX_BUFFERED_101 handle node reads := by
  show reads.foldl (Receiver.read _ resynchronise _ handle) _ = _
  rw [resynchronise_eq]
  rfl

theorem loopEnd_eq (r : Receiver σ UInt8 Error (Frame Bytes)) (chunk : Bytes) :
    loopEnd size handle r chunk
      = r.loopEnd (Codec.decodeSlice size) (.skipAhead isStart) handle chunk := by
  rw [loopEnd, resynchronise_eq]

/-- What the decoder leaves undecided fits the buffer. -/
theorem length_le_cap {buf : Bytes} (h : Codec.decodeSlice size buf = .ok none) :
    buf.length ≤ MAX_RX_BUFFERED_101 :=
  (Nat.le_of_lt (Codec.length_of_none h)).trans (by decide)

/-- After some reads the buffer is empty or begins with a start octet. -/
theorem atStart_received (reads : List Bytes) :
    AtStart isStart (reads.foldl (receive size handle) (.start node)).buf := by
  rw [received_eq]
  induction reads using List.reverseRecOn with
  | nil => exact atStart_nil
  | append_singleton reads chunk ih =>
    rw [feed_concat]
    exact buf_read (Codec.incremental_decodeSlice size) (decodeSlice_of_not_isStart size) ih chunk

/-- Junk that starts no frame, and then frames: what has been handed over. -/
theorem handed_received {junk : Bytes} {frames : List (Frame Bytes)} {before after : List Bytes}
    {chunk : Bytes} (hclean : ∀ b ∈ junk, b ∉ FT12_START_BYTES)
    (hfits : ∀ f ∈ frames, Codec.Fits size f) (hne : ∀ c ∈ before ++ chunk :: after, c ≠ [])
    (hstream : (before ++ chunk :: after).flatten = junk ++ frames.flatMap (Codec.encode size)) :
    let received := fun reads : List Bytes =>
      reads.foldl (receive size handle) (.start node)
    (received (before ++ [chunk])).handed <+: frames
      ∧ (loopEnd size handle (received before) chunk = some .needMore →
        (received (before ++ [chunk])).handed = complete (Codec.encode size) frames
              ((before ++ [chunk]).flatten.length - junk.length)) := by
  intro received
  have hdec := Codec.incremental_decodeSlice size
  have hnot := decodeSlice_of_not_isStart size
  have hrec : ∀ reads, received reads = _ := received_eq size handle node
  have hclean' : ∀ b ∈ junk, isStart b = false := fun b hb =>
    (List.contains_eq_mem b _).trans (decide_eq_false (hclean b hb))
  have henc : ∀ f ∈ frames, ∀ more, Codec.decodeSlice size (Codec.encode size f ++ more)
      = .ok (some (f, (Codec.encode size f).length)) :=
    fun f hf more => Codec.decodeSlice_encode (hfits f hf) more
  have hsplit : (before ++ [chunk]).flatten ++ after.flatten
      = junk ++ frames.flatMap (Codec.encode size) := by
    rw [← hstream, ← List.flatten_append, List.append_assoc]
    rfl
  have hbefore : ∀ c ∈ before, c ≠ [] := fun c hc => hne c (List.mem_append_left _ hc)
  have hchunk : chunk ≠ [] := hne chunk (List.mem_append_right _ List.mem_cons_self)
  have hreads : ∀ c ∈ before ++ [chunk], c ≠ [] := by
    intro c hc
    obtain hc | hc := List.mem_append.mp hc
    · exact hbefore c hc
    · exact List.mem_singleton.mp hc ▸ hchunk
  rw [hrec, hrec, loopEnd_eq]
  constructor
  · rw [← frames_stream hdec hnot hclean' henc, ← hsplit]
    exact handed_prefix hdec hnot hreads after.flatten
  · intro hend
    rw [handed_of_needMore hdec hnot hbefore hchunk hend]
    exact frames_cut hdec hnot hclean' henc hsplit

/-- **The driver resynchronises soundly**, whatever consumes the frames.

On junk without a start octet and then the encodings of frames, cut into reads
in any way: after each read the frames handed over are a beginning of these
frames, and if the loop of that read asked for more, they are all that have
been received completely.

On any reads: after each the buffer is empty or begins with a start octet; an
iteration of the loop that goes on shortens the buffer; and the buffer
overflows only in a read whose loop ended with a decoding error. -/
theorem receive_sound :
    let received := fun reads : List Bytes =>
      reads.foldl (receive size handle) (.start node)
    (∀ (junk : Bytes) (frames : List (Frame Bytes)) (before after : List Bytes) (chunk : Bytes),
      (∀ b ∈ junk, b ∉ FT12_START_BYTES) → (∀ f ∈ frames, Codec.Fits size f) →
      (∀ c ∈ before ++ chunk :: after, c ≠ []) →
      (before ++ chunk :: after).flatten = junk ++ frames.flatMap (Codec.encode size) →
      (received (before ++ [chunk])).handed <+: frames
        ∧ (loopEnd size handle (received before) chunk = some .needMore →
          (received (before ++ [chunk])).handed
            = complete (Codec.encode size) frames
                ((before ++ [chunk]).flatten.length - junk.length)))
    ∧ (∀ reads : List Bytes,
      (received reads).buf = [] ∨ ∃ b ∈ (received reads).buf.head?, b ∈ FT12_START_BYTES)
    ∧ (∀ r r' : Receiver σ UInt8 Error (Frame Bytes),
      iterate size handle r = .again r' → r'.buf.length < r.buf.length)
    ∧ ∀ (before : List Bytes) (chunk : Bytes), (received before).status = .running →
      (received (before ++ [chunk])).status = .overflow →
      ∃ e, loopEnd size handle (received before) chunk = some (.refused e) := by
  intro received
  have hdec := Codec.incremental_decodeSlice size
  have hrec : ∀ reads, received reads = _ := received_eq size handle node
  refine ⟨?_, fun reads => ?_, fun r r' h => length_of_again hdec h, ?_⟩
  · intro junk frames before after chunk hclean hfits hne hstream
    exact handed_received size handle node hclean hfits hne hstream
  · have hstart := atStart_received size handle node reads
    cases hb : (received reads).buf with
    | nil => exact Or.inl rfl
    | cons b rest =>
      exact Or.inr ⟨b, rfl, List.contains_iff_mem.mp (hstart b (congrArg List.head? hb))⟩
  · intro before chunk hr hover
    rw [hrec, feed_concat] at hover
    rw [hrec] at hr ⊢
    rw [loopEnd_eq]
    exact refused_of_overflow hdec (fun _ => length_le_cap size) hr hover

end Resync

/-- Two octets of junk, a request for the status of the link and an
acknowledgement, cut behind the first octet of the request. -/
theorem receive_sound_afterJunk :
    let frames : List (Frame Bytes) := [.fixedLength 0x49 ⟨1⟩, .single .ack]
    let node := (Connection.unbalanced .outstation .default, [0, 1])
    let received := fun reads : List Bytes =>
      reads.foldl (receive .one deliver) (.start node)
    let first : Bytes := [0x00, 0x01, 0x10]
    let second : Bytes := [0x49, 0x01, 0x4A, 0x16, 0xE5]
    (received [first]).buf = [0x10]
      ∧ loopEnd .one deliver (received [first]) second = some .needMore
      ∧ (received [first, second]).handed = complete (Codec.encode .one) frames 6 := by
  intro frames node received first second
  have hend : loopEnd .one deliver (received [first]) second = some .needMore := by
    decide +kernel
  have hfits : ∀ f ∈ frames, Codec.Fits .one f := by
    intro f hf
    obtain rfl | hf := List.mem_cons.mp hf
    · exact show (1 : UInt16).toNat < 256 by decide
    · rw [List.mem_singleton.mp hf]
      trivial
  exact ⟨by decide +kernel, hend, ((receive_sound .one deliver node).1 [0x00, 0x01] frames
    [first] [] second (by decide +kernel) hfits (by decide) (by decide +kernel)).2 hend⟩

end Frame101
