import Iec60870.Chunked
import Iec60870.Machine

/-!
# Decoding a stream with junk in it

A decoder that refuses a buffer leaves open where the next item begins. The
careful answer is to drop one element and to look again (`skipping`); the
items found that way are a function of the stream (`frames`). A receive loop
does less: it drops everything up to the next element an item can start with
(`skipTo`) and waits for the next read.

Where nothing but a start is the beginning of an item, dropping that much
loses nothing (`frames_append`). What the loop hands over is then what the
careful decoder finds, up to what it has not looked at again by the end of
the last read (`Follows`). Exactly if that holds no item and never grows
beyond the cap, the loop and the careful decoder agree (`feed_resync_iff`).
-/

namespace Chunked

open Machine

variable {β ε α σ : Type}

/-! ## The careful decoder -/

/-- **Drop an element of a refused buffer** and go on. -/
def skipping (dec : Decode β ε α) : Decode β ε (Option α) := fun buf =>
  match dec buf with
  | .ok none => .ok none
  | .ok (some (a, n)) => .ok (some (some a, n))
  | .error _ => .ok (some (none, 1))

/-- **The items of a stream with junk in it.** -/
def frames (dec : Decode β ε α) (buf : List β) : List α :=
  (decodeAll (skipping dec) buf).items.filterMap id

section Frames

variable {dec : Decode β ε α} {buf : List β} {a : α} {n : ℕ} {e : ε}

theorem skipping_none (h : dec buf = .ok none) : skipping dec buf = .ok none := by
  rw [skipping, h]

theorem skipping_some (h : dec buf = .ok (some (a, n))) :
    skipping dec buf = .ok (some (some a, n)) := by
  rw [skipping, h]

theorem skipping_error (h : dec buf = .error e) : skipping dec buf = .ok (some (none, 1)) := by
  rw [skipping, h]

theorem frames_none (h : dec buf = .ok none) : frames dec buf = [] := by
  rw [frames, decodeAll_none (skipping_none h)]
  rfl

variable (hdec : Incremental dec)

include hdec

/-- A refused buffer is not empty. -/
theorem Incremental.ne_nil_of_error (h : dec buf = .error e) : buf ≠ [] := by
  rintro rfl
  rw [hdec.nil] at h
  cases h

/-- The careful decoder is incremental too. -/
theorem Incremental.skipping : Incremental (skipping dec) where
  nil := skipping_none hdec.nil
  progress {buf a n} h := by
    cases hd : dec buf with
    | error e =>
      rw [skipping_error hd] at h
      cases h
      exact ⟨Nat.one_pos, List.length_pos_iff.mpr (hdec.ne_nil_of_error hd)⟩
    | ok o =>
      cases o with
      | none => rw [skipping_none hd] at h; cases h
      | some p =>
        rw [skipping_some hd] at h
        cases h
        exact hdec.progress hd
  more_some {buf a n} h more := by
    cases hd : dec buf with
    | error e =>
      rw [skipping_error hd] at h
      rw [skipping_error (hdec.more_error hd more), h]
    | ok o =>
      cases o with
      | none => rw [skipping_none hd] at h; cases h
      | some p =>
        rw [skipping_some hd] at h
        rw [skipping_some (hdec.more_some hd more), h]
  more_error {buf e} h := by
    cases hd : dec buf with
    | error e => rw [skipping_error hd] at h; cases h
    | ok o =>
      cases o with
      | none => rw [skipping_none hd] at h; cases h
      | some p => rw [skipping_some hd] at h; cases h

theorem frames_some (h : dec buf = .ok (some (a, n))) :
    frames dec buf = a :: frames dec (buf.drop n) := by
  rw [frames, decodeAll_some hdec.skipping (skipping_some h)]
  rfl

theorem frames_error (h : dec buf = .error e) : frames dec buf = frames dec (buf.drop 1) := by
  rw [frames, decodeAll_some hdec.skipping (skipping_error h)]
  rfl

end Frames

/-! ## Skipping to the next start -/

/-- **Drop the first element and everything up to the next start.** -/
def skipTo (isStart : β → Bool) (buf : List β) : List β :=
  (buf.drop 1).dropWhile fun b => !isStart b

/-- What a loop keeps of a buffer: what is left of it, from the next start on
if it is refused. -/
def kept (isStart : β → Bool) (o : Outcome β ε α) : List β :=
  o.error.elim o.rest fun _ => skipTo isStart o.rest

section Skip

variable {dec : Decode β ε α} {isStart : β → Bool} (hdec : Incremental dec)
  (hjunk : ∀ b rest, isStart b = false → ∃ e, dec (b :: rest) = .error e)

include hdec hjunk

/-- There is no item in front of the next start. -/
theorem frames_dropWhile (buf more : List β) : frames dec (buf ++ more)
      = frames dec (buf.dropWhile (fun b => !isStart b) ++ more) := by
  induction buf with
  | nil => rfl
  | cons b buf ih =>
    rw [List.dropWhile_cons]
    split
    · rename_i hb
      obtain ⟨e, he⟩ := hjunk b (buf ++ more) (by simpa using hb)
      rw [List.cons_append, frames_error hdec he]
      exact ih
    · rfl

theorem frames_skipTo {buf : List β} {e : ε} (h : dec buf = .error e) (more : List β) :
    frames dec (buf ++ more) = frames dec (skipTo isStart buf ++ more) := by
  have hlen : 1 ≤ buf.length := List.length_pos_iff.mpr (hdec.ne_nil_of_error h)
  rw [frames_error hdec (hdec.more_error h more), List.drop_append_of_le_length hlen]
  exact frames_dropWhile hdec hjunk _ more

/-- **A stream in two parts**: the items of the first, then those of what is
kept of it and the second. -/
theorem frames_append (buf more : List β) : frames dec (buf ++ more) = (decodeAll dec buf).items
        ++ frames dec (kept isStart (decodeAll dec buf) ++ more) := by
  induction buf using decodeAll_induction hdec with
  | none buf hd => rw [decodeAll_none hd]; rfl
  | error buf e hd => rw [decodeAll_error hd]; exact frames_skipTo hdec hjunk hd more
  | some buf a n hd ih =>
    have hdrop : (buf ++ more).drop n = buf.drop n ++ more :=
      List.drop_append_of_le_length (hdec.progress hd).2
    rw [frames_some hdec (hdec.more_some hd more), hdrop, ih, decodeAll_some hdec hd]
    rfl

end Skip

/-! ## The resynchronising loop -/

namespace Receiver

/-- Go on from the next start. -/
def skipAhead (isStart : β → Bool) (_ : ε) (r : Receiver σ β ε α) :
    Receiver σ β ε α :=
  { r with buf := skipTo isStart r.buf }

/-- **What a read leaves behind a refused item**, from the next start on: it
is in the buffer and has not been looked at. -/
def leftBehind (dec : Decode β ε α) (isStart : β → Bool)
    (handle : σ → α → σ × Bool) (r : Receiver σ β ε α) (chunk : List β) :
    List β :=
  let o := decodeAll dec (r.buf ++ chunk)
  match r.status with
  | .running =>
    if (consume handle r.node o.items).goOn then
      o.error.elim [] fun _ => skipTo isStart o.rest
    else []
  | _ => []

/-- The loop after some reads. -/
def feed (dec : Decode β ε α) (isStart : β → Bool) (cap : ℕ)
    (handle : σ → α → σ × Bool) (node : σ) (reads : List (List β)) :
    Receiver σ β ε α :=
  reads.foldl (read dec (skipAhead isStart) cap handle) (.start node)

end Receiver

theorem feed_concat {dec : Decode β ε α} {isStart : β → Bool} {cap : ℕ}
    {handle : σ → α → σ × Bool} {node : σ} {reads : List (List β)} (chunk : List β) :
    Receiver.feed dec isStart cap handle node (reads ++ [chunk])
      = (Receiver.feed dec isStart cap handle node reads).read dec (.skipAhead isStart) cap
          handle chunk := by
  rw [Receiver.feed, List.foldl_append]
  rfl

section Loop

variable {dec : Decode β ε α} {isStart : β → Bool} {cap : ℕ}
  {handle : σ → α → σ × Bool} {node : σ}

/-- **Where a resynchronising loop is in its stream.** While it runs, the
items of the stream are those it has handed over and those of its buffer;
when it is stopped, they begin with those it has handed over. -/
inductive Follows (dec : Decode β ε α) (handle : σ → α → σ × Bool) (node : σ)
    (stream : List β) (r : Receiver σ β ε α) : Prop
  | running (as : List α) (hs : r.status = .running)
    (hc : consume handle node as = ⟨r.node, r.handed, true⟩)
    (hf : ∀ more, frames dec (stream ++ more) = as ++ frames dec (r.buf ++ more))
  | stopped (as : List α) (hs : r.status = .stopped) (hb : r.buf = [])
    (hc : consume handle node as = ⟨r.node, r.handed, false⟩)
    (hf : ∀ more, as <+: frames dec (stream ++ more))
  | overflow (hs : r.status = .overflow)

theorem Follows.start : Follows (ε := ε) dec handle node [] (.start node) :=
  .running [] rfl rfl fun _ => rfl

/-- **The reads leave nothing to catch up with**: each leaves no more behind
than fits the buffer, and the last one no item. -/
def CatchesUp (dec : Decode β ε α) (isStart : β → Bool) (cap : ℕ)
    (handle : σ → α → σ × Bool) (node : σ) (reads : List (List β)) : Prop :=
  Throughout (fun before chunk =>
      ((Receiver.feed dec isStart cap handle node before).leftBehind dec isStart
        handle chunk).length ≤ cap) reads
    ∧ ∀ chunk ∈ reads.getLast?, frames dec ((Receiver.feed dec isStart cap handle node
        reads.dropLast).leftBehind dec isStart handle chunk) = []

theorem leftBehind_of_ne {r : Receiver σ β ε α} (hr : r.status ≠ .running)
    (chunk : List β) : r.leftBehind dec isStart handle chunk = [] := by
  rw [Receiver.leftBehind]
  split
  · exact absurd ‹_› hr
  · rfl

section Read

variable (hdec : Incremental dec) {r : Receiver σ β ε α} (hr : r.status = .running)
  {chunk : List β}

include hr in
theorem leftBehind_running : r.leftBehind dec isStart handle chunk
      = if (consume handle r.node (decodeAll dec (r.buf ++ chunk)).items).goOn then
          (decodeAll dec (r.buf ++ chunk)).error.elim []
            fun _ => skipTo isStart (decodeAll dec (r.buf ++ chunk)).rest
        else [] := by
  rw [Receiver.leftBehind, hr]

include hdec hr

variable (isStart) in
/-- **What is kept after a read** is what was left behind, unless it is the
beginning of an item. -/
theorem kept_cases (hgo : (consume handle r.node
      (decodeAll dec (r.buf ++ chunk)).items).goOn = true) :
    kept isStart (decodeAll dec (r.buf ++ chunk)) = r.leftBehind dec isStart handle chunk
      ∨ r.leftBehind dec isStart handle chunk = []
        ∧ dec (kept isStart (decodeAll dec (r.buf ++ chunk))) = .ok none := by
  rw [leftBehind_running hr, if_pos hgo, kept]
  cases he : (decodeAll dec (r.buf ++ chunk)).error with
  | none => exact Or.inr ⟨rfl, dec_rest hdec _ he⟩
  | some e => exact Or.inl rfl

variable (hne : chunk ≠ [])

include hne

/-- A read that the consumer takes to its end keeps what may be an item. -/
theorem read_goOn (hgo : (consume handle r.node
      (decodeAll dec (r.buf ++ chunk)).items).goOn = true) :
    let c := consume handle r.node (decodeAll dec (r.buf ++ chunk)).items
    let r' : Receiver σ β ε α :=
      ⟨c.node, kept isStart (decodeAll dec (r.buf ++ chunk)), r.handed ++ c.handed, .running⟩
    r.read dec (.skipAhead isStart) cap handle chunk
      = if r'.buf.length > cap then r'.endWith .overflow else r' := by
  intro c r'
  have hfin : finish (.skipAhead isStart) handle r.node r.handed
      (decodeAll dec (r.buf ++ chunk)) = r' := by
    cases he : (decodeAll dec (r.buf ++ chunk)).error with
    | none =>
      rw [finish_running hgo he]
      show _ = Receiver.mk _ (kept isStart _) _ _
      rw [kept, he]
      rfl
    | some e =>
      rw [finish_error hgo he]
      show _ = Receiver.mk _ (kept isStart _) _ _
      rw [kept, he]
      rfl
  rw [read_running hdec _ hr hne, hfin]

/-- A read that the consumer does not take to its end ends the loop. -/
theorem read_stop (hgo : (consume handle r.node
      (decodeAll dec (r.buf ++ chunk)).items).goOn = false) :
    let c := consume handle r.node (decodeAll dec (r.buf ++ chunk)).items
    r.read dec (.skipAhead isStart) cap handle chunk
      = ⟨c.node, [], r.handed ++ c.handed, .stopped⟩ := by
  rw [read_running hdec _ hr hne, finish_stopped hgo]
  exact if_neg (Nat.not_lt_zero _)

end Read

variable (hdec : Incremental dec)
  (hjunk : ∀ b rest, isStart b = false → ∃ e, dec (b :: rest) = .error e)
  (hcap : ∀ buf : List β, dec buf = .ok none → buf.length ≤ cap)

section Step

variable {stream : List β} {r : Receiver σ β ε α} {chunk : List β}
  (h : Follows dec handle node stream r) (hne : chunk ≠ [])

include hdec h hne

include hjunk in
/-- **A read follows the stream.** -/
theorem Follows.read : Follows dec handle node (stream ++ chunk)
      (r.read dec (.skipAhead isStart) cap handle chunk) := by
  cases h with
  | running as hs hc hf =>
    have hnode : (consume handle node as).node = r.node := congrArg _ hc
    have hcons := consume_append (congrArg Consumed.goOn hc) (decodeAll dec (r.buf ++ chunk)).items
    have hframes : ∀ more, frames dec (stream ++ chunk ++ more)
        = (as ++ (decodeAll dec (r.buf ++ chunk)).items)
          ++ frames dec (kept isStart (decodeAll dec (r.buf ++ chunk)) ++ more) := by
      intro more
      rw [List.append_assoc, hf, ← List.append_assoc r.buf,
        frames_append hdec hjunk, List.append_assoc]
    rw [hnode, hc] at hcons
    dsimp only at hcons
    cases hgo : (consume handle r.node (decodeAll dec (r.buf ++ chunk)).items).goOn with
    | false =>
      rw [hgo] at hcons
      rw [read_stop hdec hs hne hgo]
      exact .stopped _ rfl rfl hcons fun more => hframes more ▸ List.prefix_append _ _
    | true =>
      rw [hgo] at hcons
      rw [read_goOn hdec hs hne hgo]
      dsimp only
      split
      · exact .overflow rfl
      · exact .running _ rfl hcons hframes
  | stopped as hs hb hc hf =>
    rw [read_of_ne (hs ▸ fun e => nomatch e)]
    exact .stopped as hs hb hc fun more => List.append_assoc stream _ _ ▸ hf _
  | overflow hs =>
    rw [read_of_ne (hs ▸ fun e => nomatch e)]
    exact .overflow hs

include hcap in
/-- **A read overflows the buffer exactly if it leaves too much behind.** -/
theorem overflow_read_iff (hno : r.status ≠ .overflow) :
    (r.read dec (.skipAhead isStart) cap handle chunk).status = .overflow
      ↔ cap < (r.leftBehind dec isStart handle chunk).length := by
  cases h with
  | running as hs hc hf =>
    cases hgo : (consume handle r.node (decodeAll dec (r.buf ++ chunk)).items).goOn with
    | false =>
      rw [read_stop hdec hs hne hgo, leftBehind_running hs, hgo]
      exact iff_of_false (fun e => nomatch e) (Nat.not_lt_zero _)
    | true =>
      rw [read_goOn hdec hs hne hgo]
      dsimp only
      rcases kept_cases isStart hdec hs hgo with hk | ⟨hk, hd⟩
      · rw [hk]
        split
        · rename_i hlt
          exact iff_of_true rfl hlt
        · rename_i hlt
          exact iff_of_false (fun e => nomatch e) hlt
      · rw [hk, if_neg (Nat.not_lt.mpr (hcap _ hd))]
        exact iff_of_false (fun e => nomatch e) (Nat.not_lt_zero _)
  | stopped as hs hb hc hf =>
    have hs' : r.status ≠ .running := hs ▸ fun e => nomatch e
    rw [read_of_ne hs', leftBehind_of_ne hs']
    exact iff_of_false hno (Nat.not_lt_zero _)
  | overflow hs => exact absurd hs hno

/-- The buffer has the items that were left behind, after a read that does not
overflow it. -/
theorem frames_buf_read
    (hno : (r.read dec (.skipAhead isStart) cap handle chunk).status ≠ .overflow) :
    frames dec (r.read dec (.skipAhead isStart) cap handle chunk).buf
      = frames dec (r.leftBehind dec isStart handle chunk) := by
  cases h with
  | running as hs hc hf =>
    cases hgo : (consume handle r.node (decodeAll dec (r.buf ++ chunk)).items).goOn with
    | false => rw [read_stop hdec hs hne hgo, leftBehind_running hs, hgo]; rfl
    | true =>
      rw [read_goOn hdec hs hne hgo] at hno ⊢
      dsimp only at hno ⊢
      split at hno
      · exact absurd rfl hno
      · rename_i hle
        rw [if_neg hle]
        rcases kept_cases isStart hdec hs hgo with hk | ⟨hk, hd⟩
        · rw [hk]
        · rw [hk, frames_none hd, frames_none hdec.nil]
  | stopped as hs hb hc hf =>
    have hs' : r.status ≠ .running := hs ▸ fun e => nomatch e
    rw [read_of_ne hs', leftBehind_of_ne hs', hb]
  | overflow hs =>
    rw [read_of_ne (hs ▸ fun e => nomatch e)] at hno
    exact absurd hs hno

end Step

/-- A consumer is handed something if there is something. -/
theorem handed_consume_eq_nil {node : σ} {as : List α}
    (h : (consume handle node as).handed = []) : as = [] := by
  cases as with
  | nil => rfl
  | cons a as =>
    rw [consume] at h
    split at h
    · cases h
    · cases h

/-- **A loop agrees with the careful decoder** exactly if it has not
overflowed and has no item left in its buffer. -/
theorem Follows.agrees_iff {stream : List β} {r : Receiver σ β ε α}
    (h : Follows dec handle node stream r) (hnil : dec [] = .ok none) :
    (r.handed = (consume handle node (frames dec stream)).handed
        ∧ r.status = if (consume handle node (frames dec stream)).goOn
          then .running else .stopped)
      ↔ r.status ≠ .overflow ∧ frames dec r.buf = [] := by
  cases h with
  | running as hs hc hf =>
    have hstream : frames dec stream = as ++ frames dec r.buf := by
      have := hf []
      rwa [List.append_nil, List.append_nil] at this
    have hcons := consume_append (congrArg Consumed.goOn hc) (frames dec r.buf)
    rw [hc, ← hstream] at hcons
    dsimp only at hcons
    rw [hcons, hs]
    constructor
    · rintro ⟨hh, -⟩
      exact ⟨(fun e => nomatch e), handed_consume_eq_nil (List.self_eq_append_right.mp hh)⟩
    · rintro ⟨-, hnone⟩
      rw [hnone]
      exact ⟨(List.append_nil _).symm, rfl⟩
  | stopped as hs hb hc hf =>
    obtain ⟨later, hlater⟩ := hf []
    rw [List.append_nil] at hlater
    rw [← hlater, consume_append_of_stop (congrArg Consumed.goOn hc), hc, hs, hb, frames_none hnil]
    exact iff_of_true ⟨rfl, rfl⟩ ⟨(fun e => nomatch e), rfl⟩
  | overflow hs =>
    rw [hs]
    refine iff_of_false (fun h => ?_) fun h => h.1 rfl
    have h := h.2
    split at h
    · cases h
    · cases h

section Feed

variable (handle) (node)

include hdec

include hjunk in
theorem follows_feed {reads : List (List β)} (hne : ∀ c ∈ reads, c ≠ []) :
    Follows dec handle node reads.flatten (Receiver.feed dec isStart cap handle node reads) := by
  induction reads using List.reverseRecOn with
  | nil => exact .start
  | append_singleton reads chunk ih =>
    rw [feed_concat, List.flatten_append, List.flatten_singleton]
    exact (ih fun c hc => hne c (List.mem_append_left _ hc)).read hdec hjunk
      (hne chunk List.mem_concat_self)

include hjunk hcap

/-- **The buffer overflows exactly if some read leaves too much behind.** -/
theorem feed_overflow_iff {reads : List (List β)} (hne : ∀ c ∈ reads, c ≠ []) :
    (Receiver.feed dec isStart cap handle node reads).status ≠ .overflow
      ↔ Throughout (fun before chunk =>
          ((Receiver.feed dec isStart cap handle node before).leftBehind dec
            isStart handle chunk).length ≤ cap) reads := by
  induction reads using List.reverseRecOn with
  | nil => exact iff_of_true (fun e => nomatch e) (throughout_nil _)
  | append_singleton reads chunk ih =>
    have hne' : ∀ c ∈ reads, c ≠ [] := fun c hc =>
      hne c (List.mem_append_left _ hc)
    have hchunk := hne chunk List.mem_concat_self
    rw [throughout_snoc, ← ih hne', feed_concat]
    by_cases hno : (Receiver.feed dec isStart cap handle node reads).status = .overflow
    · rw [read_of_ne (hno ▸ fun e => nomatch e)]
      exact iff_of_false (not_not_intro hno) fun h => h.1 hno
    · rw [ne_eq, overflow_read_iff hdec hcap
        (follows_feed handle node hdec hjunk hne') hchunk hno, Nat.not_lt]
      exact (and_iff_right hno).symm

/-- **The loop finds the items of its stream, and all of them, exactly if the
reads leave nothing to catch up with.** -/
theorem feed_resync_iff {reads : List (List β)} (hne : ∀ c ∈ reads, c ≠ []) :
    ((Receiver.feed dec isStart cap handle node reads).handed
          = (consume handle node (frames dec reads.flatten)).handed
        ∧ (Receiver.feed dec isStart cap handle node reads).status
          = if (consume handle node (frames dec reads.flatten)).goOn
            then .running else .stopped)
      ↔ CatchesUp dec isStart cap handle node reads := by
  rw [(follows_feed handle node hdec hjunk hne).agrees_iff hdec.nil, CatchesUp,
    feed_overflow_iff handle node hdec hjunk hcap hne]
  refine and_congr_right fun hthrough => ?_
  have hno := (feed_overflow_iff handle node hdec hjunk hcap hne).mpr hthrough
  induction reads using List.reverseRecOn with
  | nil => exact iff_of_true (frames_none hdec.nil) fun c hc => nomatch hc
  | append_singleton reads chunk _ =>
    rw [List.getLast?_concat, List.dropLast_concat]
    have hchunk := hne chunk List.mem_concat_self
    rw [feed_concat] at hno ⊢
    have hbuf := frames_buf_read hdec (follows_feed handle node hdec hjunk
      fun c hc => hne c (List.mem_append_left _ hc)) hchunk hno
    constructor
    · rintro h c ⟨⟩
      exact hbuf ▸ h
    · intro h
      exact hbuf.trans (h chunk rfl)

end Feed

end Loop

end Chunked
