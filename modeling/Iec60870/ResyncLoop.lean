import Mathlib.Data.List.TakeWhile
import Iec60870.Resync

/-!
# How the loop of a read goes and ends

`Receiver.read` says what a read leads to. This module looks into the loop it
runs: one iteration decodes the front of the buffer and either goes on or
leaves the loop, and it is left for one of three reasons (`LoopEnd`). Only an
item the consumer takes lets it go on, and that shortens the buffer
(`length_of_again`).

What a resynchronising loop keeps begins with a start or is empty
(`buf_read`), and it grows beyond the cap only if the loop has been left with
a refusal (`refused_of_overflow`): a decoder that asks for more asks for a
bounded amount.

What the loop hands over is a beginning of what the careful decoder finds in
the stream (`handed_prefix`), and all of it if the loop has been left because
more is needed (`handed_of_needMore`). In a stream that is junk first and then
nothing but encoded items, the careful decoder finds these, and in any
beginning of it those that are complete there (`frames_cut`).
-/

namespace Chunked

variable {β ε α σ : Type}

/-! ## One iteration -/

/-- **Why the loop of a read is left.** -/
inductive LoopEnd (ε : Type) where
  /-- The decoder asks for more. -/
  | needMore
  /-- The consumer asks to stop. -/
  | stopped
  /-- The decoder refuses the buffer. -/
  | refused (e : ε)
deriving DecidableEq, Repr

/-- What an iteration comes to. -/
inductive Iteration (σ β ε α : Type) where
  | again (r : Receiver σ β ε α)
  | leave (why : LoopEnd ε) (r : Receiver σ β ε α)

namespace Receiver

/-- **One iteration of the loop.** -/
def iterate (dec : Decode β ε α) (onError : ε → Receiver σ β ε α → Receiver σ β ε α)
    (handle : σ → α → σ × Bool) (r : Receiver σ β ε α) : Iteration σ β ε α :=
  match dec r.buf with
  | .error e => .leave (.refused e) (onError e r)
  | .ok none => .leave .needMore r
  | .ok (some (a, n)) =>
    let (node, goOn) := handle r.node a
    let r := { r with
      node := node
      buf := r.buf.drop n
      handed := r.handed ++ [a] }
    if goOn then .again r else .leave .stopped (r.endWith .stopped)

/-- **The loop**: at most `fuel` iterations, with the reason it is left for. -/
def loop (dec : Decode β ε α) (onError : ε → Receiver σ β ε α → Receiver σ β ε α)
    (handle : σ → α → σ × Bool) : ℕ → Receiver σ β ε α → Option (LoopEnd ε) × Receiver σ β ε α
  | 0, r => (none, r)
  | fuel + 1, r =>
    match r.iterate dec onError handle with
    | .again r => loop dec onError handle fuel r
    | .leave why r => (some why, r)

/-- **How the loop of a read ends**, if there is one. -/
def loopEnd (dec : Decode β ε α) (onError : ε → Receiver σ β ε α → Receiver σ β ε α)
    (handle : σ → α → σ × Bool) (r : Receiver σ β ε α) (chunk : List β) :
    Option (LoopEnd ε) :=
  match r.status with
  | .running =>
    let r := { r with buf := r.buf ++ chunk }
    (loop dec onError handle (r.buf.length + 1) r).1
  | _ => none

end Receiver

section Loop

variable {dec : Decode β ε α} {onError : ε → Receiver σ β ε α → Receiver σ β ε α}
  {handle : σ → α → σ × Bool}

/-- The loop is the one of a read. -/
theorem loop_eq_drain (fuel : ℕ) (r : Receiver σ β ε α) :
    (r.loop dec onError handle fuel).2 = r.drain dec onError handle fuel := by
  induction fuel generalizing r with
  | zero => rfl
  | succ fuel ih =>
    rw [Receiver.loop, Receiver.iterate, Receiver.drain]
    cases dec r.buf with
    | error e => rfl
    | ok answer =>
      cases answer with
      | none => rfl
      | some item =>
        dsimp only
        cases (handle r.node item.1).2 with
        | true => exact ih _
        | false => rfl

/-- **An iteration that goes on shortens the buffer.** -/
theorem length_of_again (hdec : Incremental dec) {r r' : Receiver σ β ε α}
    (h : r.iterate dec onError handle = .again r') : r'.buf.length < r.buf.length := by
  rw [Receiver.iterate] at h
  split at h
  · cases h
  · cases h
  · rename_i a n hd
    dsimp only at h
    split at h
    · cases h
      exact hdec.length_drop_lt hd
    · cases h

/-- How the loop ends that decodes a whole buffer. -/
def endOf (handle : σ → α → σ × Bool) (node : σ) (o : Outcome β ε α) : LoopEnd ε :=
  if (consume handle node o.items).goOn then o.error.elim .needMore .refused else .stopped

theorem loop_fst (hdec : Incremental dec) (r : Receiver σ β ε α) {fuel : ℕ}
    (hfuel : r.buf.length < fuel) :
    (r.loop dec onError handle fuel).1 = some (endOf handle r.node (decodeAll dec r.buf)) := by
  induction fuel generalizing r with
  | zero => exact absurd hfuel (Nat.not_lt_zero _)
  | succ fuel ih =>
    rw [Receiver.loop, Receiver.iterate]
    cases hd : dec r.buf with
    | error e => rw [decodeAll_error hd]; rfl
    | ok answer =>
      cases answer with
      | none => rw [decodeAll_none hd]; rfl
      | some item =>
        obtain ⟨a, n⟩ := item
        have hlt := hdec.length_drop_lt hd
        rw [decodeAll_some hdec hd, endOf, Outcome.cons, consume]
        dsimp only
        cases hgo : (handle r.node a).2 with
        | true => exact ih _ (show (r.buf.drop n).length < fuel by omega)
        | false => rfl

/-- **The loop of a read is left** for the reason that the whole buffer
gives. -/
theorem loopEnd_running (hdec : Incremental dec) {r : Receiver σ β ε α}
    (hr : r.status = .running) (chunk : List β) : r.loopEnd dec onError handle chunk
      = some (endOf handle r.node (decodeAll dec (r.buf ++ chunk))) := by
  rw [Receiver.loopEnd, hr]
  exact loop_fst hdec _ (Nat.lt_succ_self _)

theorem loopEnd_of_ne {r : Receiver σ β ε α} (hr : r.status ≠ .running) (chunk : List β) :
    r.loopEnd dec onError handle chunk = none := by
  rw [Receiver.loopEnd]
  split
  · exact absurd ‹_› hr
  · rfl

end Loop

/-! ## What a resynchronising loop keeps -/

section Kept

variable {dec : Decode β ε α} {isStart : β → Bool} {cap : ℕ} {handle : σ → α → σ × Bool}

/-- A buffer that is empty or begins with a start. -/
def AtStart (isStart : β → Bool) (buf : List β) : Prop :=
  ∀ b ∈ buf.head?, isStart b = true

theorem atStart_nil : AtStart isStart [] := nofun

theorem atStart_dropWhile (buf : List β) : AtStart isStart (buf.dropWhile fun b => !isStart b) := by
  intro b hb
  have h := List.head?_dropWhile_not (fun b => !isStart b) buf
  rw [hb] at h
  simpa using h

variable (hdec : Incremental dec)
  (hjunk : ∀ b rest, isStart b = false → ∃ e, dec (b :: rest) = .error e)

include hjunk in
/-- A buffer that is not refused begins with a start. -/
theorem atStart_of_ok {buf : List β} {answer : Option (α × ℕ)} (h : dec buf = .ok answer) :
    AtStart isStart buf := by
  cases buf with
  | nil => exact atStart_nil
  | cons b rest =>
    intro c hc
    obtain rfl : b = c := Option.some.inj hc
    by_contra hno
    obtain ⟨e, he⟩ := hjunk b rest (Bool.not_eq_true _ ▸ hno)
    rw [he] at h
    cases h

include hdec

include hjunk in
theorem atStart_kept (buf : List β) : AtStart isStart (kept isStart (decodeAll dec buf)) := by
  unfold kept
  cases he : (decodeAll dec buf).error with
  | none => exact atStart_of_ok hjunk (dec_rest hdec buf he)
  | some e => exact atStart_dropWhile _

include hjunk in
/-- **After a read the buffer is empty or begins with a start.** -/
theorem buf_read {r : Receiver σ β ε α} (h : AtStart isStart r.buf) (chunk : List β) :
    AtStart isStart (r.read dec (.skipAhead isStart) cap handle chunk).buf := by
  by_cases hr : r.status = .running
  · by_cases hne : chunk = []
    · rw [Receiver.read, hr, hne]
      exact atStart_nil
    · cases hgo : (consume handle r.node (decodeAll dec (r.buf ++ chunk)).items).goOn with
      | false =>
        rw [read_stop hdec hr hne hgo]
        exact atStart_nil
      | true =>
        rw [read_goOn hdec hr hne hgo]
        dsimp only
        split
        · exact atStart_nil
        · exact atStart_kept hdec hjunk _
  · rw [read_of_ne hr]
    exact h

variable (hcap : ∀ buf : List β, dec buf = .ok none → buf.length ≤ cap)

include hcap in
/-- **The buffer overflows only in a read whose loop is left with a refusal.** -/
theorem refused_of_overflow {r : Receiver σ β ε α} (hr : r.status = .running) {chunk : List β}
    (h : (r.read dec (.skipAhead isStart) cap handle chunk).status = .overflow) :
    ∃ e, r.loopEnd dec (.skipAhead isStart) handle chunk = some (.refused e) := by
  have hne : chunk ≠ [] := by
    rintro rfl
    rw [Receiver.read, hr] at h
    cases h
  rw [loopEnd_running hdec hr, endOf]
  cases hgo : (consume handle r.node (decodeAll dec (r.buf ++ chunk)).items).goOn with
  | false =>
    rw [read_stop hdec hr hne hgo] at h
    cases h
  | true =>
    cases he : (decodeAll dec (r.buf ++ chunk)).error with
    | some e => exact ⟨e, rfl⟩
    | none =>
      rw [read_goOn hdec hr hne hgo] at h
      dsimp only at h
      have hle : (kept isStart (decodeAll dec (r.buf ++ chunk))).length ≤ cap := by
        rw [kept, he]
        exact hcap _ (dec_rest hdec _ he)
      rw [if_neg (Nat.not_lt.mpr hle)] at h
      cases h

end Kept

/-! ## Junk, then encoded items -/

/-- The items that are complete in the first `n` elements of their encodings. -/
def complete (enc : α → List β) : List α → ℕ → List α
  | [], _ => []
  | a :: as, n =>
    if (enc a).length ≤ n then a :: complete enc as (n - (enc a).length) else []

/-- All items are complete in the whole of their encodings. -/
theorem complete_length (enc : α → List β) (as : List α) :
    complete enc as (as.flatMap enc).length = as := by
  induction as with
  | nil => rfl
  | cons a as ih =>
    rw [List.flatMap_cons, List.length_append, complete, if_pos (Nat.le_add_right _ _),
      Nat.add_sub_cancel_left, ih]

section Stream

variable {dec : Decode β ε α} {isStart : β → Bool} {enc : α → List β} {junk : List β}
  {as : List α} (hdec : Incremental dec)
  (hjunk : ∀ b rest, isStart b = false → ∃ e, dec (b :: rest) = .error e)
  (hclean : ∀ b ∈ junk, isStart b = false)
  (henc : ∀ a ∈ as, ∀ more, dec (enc a ++ more) = .ok (some (a, (enc a).length)))

include hdec

include henc in
/-- **The items of a cut stream of items** are those that are complete. -/
theorem frames_take (n : ℕ) : frames dec ((as.flatMap enc).take n) = complete enc as n := by
  induction as generalizing n with
  | nil =>
    rw [List.flatMap_nil, List.take_nil, frames_none hdec.nil]
    rfl
  | cons a as ih =>
    have ha := henc a List.mem_cons_self
    rw [List.flatMap_cons, List.take_append, complete]
    split
    · rename_i hle
      rw [List.take_of_length_le hle, frames_some hdec (ha _), List.drop_left,
        ih fun b hb => henc b (List.mem_cons_of_mem _ hb)]
    · rename_i hlt
      have hone := ha []
      rw [List.append_nil] at hone
      rw [Nat.sub_eq_zero_of_le (Nat.le_of_not_le hlt), List.take_zero, List.append_nil,
        frames_none (hdec.none_of_take hone (Nat.lt_of_not_le hlt))]

include hjunk hclean in
/-- There is no item in the junk. -/
theorem frames_junk (more : List β) : frames dec (junk ++ more) = frames dec more := by
  have hnone : (junk.dropWhile fun b => !isStart b) = [] :=
    List.dropWhile_eq_nil_iff.mpr fun b hb => by rw [hclean b hb]; rfl
  rw [frames_dropWhile hdec hjunk junk more, hnone, List.nil_append]

include hjunk hclean henc in
theorem frames_cut {received later : List β}
    (hstream : received ++ later = junk ++ as.flatMap enc) :
    frames dec received = complete enc as (received.length - junk.length) := by
  have hcut : received = junk.take received.length
      ++ (as.flatMap enc).take (received.length - junk.length) := by
    rw [← List.take_append, ← hstream, List.take_left]
  have hclean' : ∀ b ∈ junk.take received.length, isStart b = false :=
    fun b hb => hclean b (List.mem_of_mem_take hb)
  rw [hcut, frames_junk hdec hjunk hclean', ← hcut]
  exact frames_take hdec henc _

include hjunk hclean henc in
theorem frames_stream : frames dec (junk ++ as.flatMap enc) = as := by
  have hwhole : (junk ++ as.flatMap enc) ++ [] = junk ++ as.flatMap enc := List.append_nil _
  have hcut := frames_cut hdec hjunk hclean henc hwhole
  rw [hcut, List.length_append, Nat.add_sub_cancel_left, complete_length]

end Stream

section Handed

variable {dec : Decode β ε α} {isStart : β → Bool} {cap : ℕ} {handle : σ → α → σ × Bool}
  {node : σ} {reads : List (List β)} (hdec : Incremental dec)

include hdec in
/-- What a read hands over. -/
theorem handed_read {r : Receiver σ β ε α} (hr : r.status = .running) {chunk : List β}
    (hne : chunk ≠ []) : (r.read dec (.skipAhead isStart) cap handle chunk).handed
      = r.handed ++ (consume handle r.node (decodeAll dec (r.buf ++ chunk)).items).handed := by
  cases hgo : (consume handle r.node (decodeAll dec (r.buf ++ chunk)).items).goOn with
  | false => rw [read_stop hdec hr hne hgo]
  | true =>
    rw [read_goOn hdec hr hne hgo]
    dsimp only
    split <;> rfl

variable (hjunk : ∀ b rest, isStart b = false → ∃ e, dec (b :: rest) = .error e)
  (hne : ∀ c ∈ reads, c ≠ [])

include hdec hjunk hne

/-- While a loop runs it has handed over the items in front of its buffer. -/
theorem frames_feed
    (hr : (Receiver.feed dec isStart cap handle node reads).status = .running) (more : List β) :
    frames dec (reads.flatten ++ more) = (Receiver.feed dec isStart cap handle node reads).handed
        ++ frames dec ((Receiver.feed dec isStart cap handle node reads).buf ++ more) := by
  have hfollows : Follows dec handle node reads.flatten
      (Receiver.feed dec isStart cap handle node reads) :=
    follows_feed handle node hdec hjunk hne
  cases hfollows with
  | running as hs hc hf =>
    have has : (consume handle node as).handed = as :=
      (handed_consume node as).2 (congrArg Consumed.goOn hc)
    rw [hc] at has
    rw [hf, ← has]
  | stopped as hs | overflow hs => rw [hs] at hr; cases hr

/-- One read more of a loop that runs. -/
theorem frames_feed_concat
    (hr : (Receiver.feed dec isStart cap handle node reads).status = .running)
    (chunk more : List β) :
    let r := Receiver.feed dec isStart cap handle node reads
    frames dec (reads.flatten ++ chunk ++ more)
      = r.handed ++ ((decodeAll dec (r.buf ++ chunk)).items
        ++ frames dec (kept isStart (decodeAll dec (r.buf ++ chunk)) ++ more)) := by
  rw [List.append_assoc, frames_feed hdec hjunk hne hr, ← List.append_assoc _ chunk,
    frames_append hdec hjunk]

/-- **What a loop hands over is a beginning of what the careful decoder finds**,
also after it has been ended. -/
theorem handed_prefix (later : List β) : (Receiver.feed dec isStart cap handle node reads).handed
      <+: frames dec (reads.flatten ++ later) := by
  induction reads using List.reverseRecOn generalizing later with
  | nil => exact List.nil_prefix
  | append_singleton reads chunk ih =>
    have hne' : ∀ c ∈ reads, c ≠ [] := fun c hc => hne c (List.mem_append_left _ hc)
    have hchunk := hne chunk List.mem_concat_self
    rw [feed_concat, List.flatten_append, List.flatten_singleton]
    by_cases hr : (Receiver.feed dec isStart cap handle node reads).status = .running
    · rw [frames_feed_concat hdec hjunk hne' hr, handed_read hdec hr hchunk]
      refine (List.prefix_append_right_inj _).mpr ?_
      exact (handed_consume _ _).1.trans (List.prefix_append _ _)
    · rw [read_of_ne hr, List.append_assoc]
      exact ih hne' _

/-- **A loop that is left because more is needed has handed over everything the
careful decoder finds.** -/
theorem handed_of_needMore {chunk : List β} (hchunk : chunk ≠ [])
    (hend : (Receiver.feed dec isStart cap handle node reads).loopEnd dec (.skipAhead isStart)
      handle chunk = some .needMore) :
    (Receiver.feed dec isStart cap handle node (reads ++ [chunk])).handed
      = frames dec (reads ++ [chunk]).flatten := by
  by_cases hr : (Receiver.feed dec isStart cap handle node reads).status = .running
  · rw [loopEnd_running hdec hr, endOf] at hend
    have hframes := frames_feed_concat hdec hjunk hne hr chunk []
    rw [feed_concat, handed_read hdec hr hchunk, List.flatten_append, List.flatten_singleton,
      ← List.append_nil (reads.flatten ++ chunk), hframes, kept]
    split at hend
    · rename_i hgo
      rw [(handed_consume _ _).2 hgo]
      cases he : (decodeAll dec ((Receiver.feed dec isStart cap handle node reads).buf
          ++ chunk)).error with
      | some e => rw [he] at hend; cases hend
      | none =>
        rw [Option.elim_none, List.append_nil _, frames_none (dec_rest hdec _ he), List.append_nil]
    · cases hend
  · rw [loopEnd_of_ne hr] at hend
    cases hend

end Handed

end Chunked
