import Mathlib.Data.List.Induction

/-!
# Decoding a stream that arrives in chunks

A byte stream is cut into frames by a *decoder* that looks at the front of a
buffer. It answers with the first item and the number of elements it takes,
asks for more, or refuses the buffer (`Decode`). How the stream is cut into
reads is none of its business, and what it answers must not depend on it: an
`Incremental` decoder takes something whenever it answers with an item, and
never changes its mind when more arrives.

`decodeAll` is what such a decoder makes of a whole stream. `Receiver` is a
loop that gets the stream read by read, decodes what it has and hands each
item to a consumer, until the consumer asks it to stop, the stream ends or
too much is left undecoded. What the loop does when the decoder refuses is a
parameter; if it ends there, then **the loop does with the reads what
`decodeAll` does with the stream** (`feed_eq`).
-/

namespace Chunked

variable {β ε α σ : Type}

/-- What a decoder says about the front of a buffer: the first item and its
length, or that it needs more, or that the buffer is malformed. -/
abbrev Decode (β ε α : Type) := List β → Except ε (Option (α × ℕ))

/-- **A decoder that does not mind how its input is cut.** -/
structure Incremental (dec : Decode β ε α) : Prop where
  nil : dec [] = .ok none
  progress {buf : List β} {a : α} {n : ℕ} : dec buf = .ok (some (a, n)) → 0 < n ∧ n ≤ buf.length
  more_some {buf : List β} {a : α} {n : ℕ} :
    dec buf = .ok (some (a, n)) → ∀ more, dec (buf ++ more) = .ok (some (a, n))
  more_error {buf : List β} {e : ε} : dec buf = .error e → ∀ more, dec (buf ++ more) = .error e

/-! ## A whole stream -/

/-- What a decoder makes of a stream. -/
structure Outcome (β ε α : Type) where
  /-- The items, in order. -/
  items : List α
  /-- What is left of the stream. -/
  rest : List β
  /-- Why it was refused, if it was. -/
  error : Option ε
deriving DecidableEq, Repr

/-- One item more at the front. -/
def Outcome.cons (a : α) (o : Outcome β ε α) : Outcome β ε α :=
  { o with items := a :: o.items }

/-- Decode at most `fuel` items. -/
def decodeUpTo (dec : Decode β ε α) : ℕ → List β → Outcome β ε α
  | 0, buf => ⟨[], buf, none⟩
  | fuel + 1, buf =>
    match dec buf with
    | .error e => ⟨[], buf, some e⟩
    | .ok none => ⟨[], buf, none⟩
    | .ok (some (a, n)) => (decodeUpTo dec fuel (buf.drop n)).cons a

/-- **Decode a whole stream.** There are no more items than elements. -/
def decodeAll (dec : Decode β ε α) (buf : List β) : Outcome β ε α :=
  decodeUpTo dec (buf.length + 1) buf

section DecodeAll

variable {dec : Decode β ε α} {buf : List β} {a : α} {n : ℕ} {e : ε}

theorem decodeAll_none (h : dec buf = .ok none) : decodeAll dec buf = ⟨[], buf, none⟩ := by
  rw [decodeAll, decodeUpTo, h]

theorem decodeAll_error (h : dec buf = .error e) : decodeAll dec buf = ⟨[], buf, some e⟩ := by
  rw [decodeAll, decodeUpTo, h]

variable (hdec : Incremental dec)

include hdec

/-- Taking an item leaves a shorter buffer. -/
theorem Incremental.length_drop_lt (h : dec buf = .ok (some (a, n))) :
    (buf.drop n).length < buf.length := by
  obtain ⟨hpos, hle⟩ := hdec.progress h
  rw [List.length_drop]
  omega

/-- More fuel than elements is enough. -/
theorem decodeUpTo_of_length_lt {fuel : ℕ} (h : buf.length < fuel) :
    decodeUpTo dec fuel buf = decodeAll dec buf := by
  have key : ∀ (f g : ℕ) (buf : List β), buf.length < f → buf.length < g →
      decodeUpTo dec f buf = decodeUpTo dec g buf := by
    intro f
    induction f with
    | zero => exact fun g buf hf => absurd hf (Nat.not_lt_zero _)
    | succ f ih =>
      intro g buf hf hg
      obtain ⟨g, rfl⟩ := Nat.exists_eq_succ_of_ne_zero (Nat.ne_of_gt (Nat.zero_lt_of_lt hg))
      rw [decodeUpTo, decodeUpTo]
      split
      · rfl
      · rfl
      · rename_i a n hd
        have hlt := hdec.length_drop_lt hd
        rw [ih g (buf.drop n) (by omega) (by omega)]
  exact key fuel (buf.length + 1) buf h (Nat.lt_succ_self _)

/-- **The first item, then the rest.** -/
theorem decodeAll_some (h : dec buf = .ok (some (a, n))) :
    decodeAll dec buf = (decodeAll dec (buf.drop n)).cons a := by
  rw [decodeAll, decodeUpTo, h]
  exact congrArg (Outcome.cons a) (decodeUpTo_of_length_lt hdec (hdec.length_drop_lt h))

/-- A strict front part of what an item takes is undecided. -/
theorem Incremental.none_of_take (h : dec buf = .ok (some (a, buf.length)))
    (hn : n < buf.length) : dec (buf.take n) = .ok none := by
  cases hd : dec (buf.take n) with
  | error e =>
    have hmore := hdec.more_error hd (buf.drop n)
    rw [List.take_append_drop, h] at hmore
    cases hmore
  | ok answer =>
    cases answer with
    | none => rfl
    | some item =>
      obtain ⟨a', n'⟩ := item
      have hmore := hdec.more_some hd (buf.drop n)
      rw [List.take_append_drop, h] at hmore
      cases hmore
      have hle := (hdec.progress hd).2
      rw [List.length_take] at hle
      omega

/-- **A stream of encoded items is decoded into them**, if each is read back
whatever follows it. -/
theorem decodeAll_flatten {items : List α} {parts : List (List β)}
    (h : List.Forall₂ (fun a bs => ∀ more, dec (bs ++ more) = .ok (some (a, bs.length)))
      items parts) : decodeAll dec parts.flatten = ⟨items, [], none⟩ := by
  induction h with
  | nil => exact decodeAll_none hdec.nil
  | cons hread _ ih =>
    rw [List.flatten_cons, decodeAll_some hdec (hread _), List.drop_left, ih]
    rfl

/-- Induction along the items of a stream. -/
theorem decodeAll_induction {P : List β → Prop} (none : ∀ buf, dec buf = .ok none → P buf)
    (error : ∀ buf e, dec buf = .error e → P buf)
    (some : ∀ buf a n, dec buf = .ok (some (a, n)) → P (buf.drop n) → P buf)
    (buf : List β) : P buf := by
  generalize hlen : buf.length = len
  induction len using Nat.strongRecOn generalizing buf with
  | ind len ih =>
    cases hd : dec buf with
    | error e => exact error buf e hd
    | ok o =>
      cases o with
      | none => exact none buf hd
      | some p =>
        have hlt := hdec.length_drop_lt hd
        exact some buf p.1 p.2 hd (ih _ (hlen ▸ hlt) (buf.drop p.2) rfl)

/-- What is left of a stream that is not refused is the beginning of an
item. -/
theorem dec_rest (buf : List β) (h : (decodeAll dec buf).error = none) :
    dec (decodeAll dec buf).rest = .ok none := by
  induction buf using decodeAll_induction hdec with
  | none buf hd => rw [decodeAll_none hd]; exact hd
  | error buf e hd => rw [decodeAll_error hd] at h; cases h
  | some buf a n hd ih =>
    rw [decodeAll_some hdec hd] at h ⊢
    exact ih h

/-- **A stream in two parts**: what is refused stays refused, and otherwise
decoding goes on with what was left. -/
theorem decodeAll_append (buf more : List β) : decodeAll dec (buf ++ more)
      = match (decodeAll dec buf).error with
        | some e => ⟨(decodeAll dec buf).items, (decodeAll dec buf).rest ++ more, some e⟩
        | none =>
          let o := decodeAll dec ((decodeAll dec buf).rest ++ more)
          { o with items := (decodeAll dec buf).items ++ o.items } := by
  induction buf using decodeAll_induction hdec with
  | none buf hd => rw [decodeAll_none hd]; rfl
  | error buf e hd =>
    rw [decodeAll_error hd, decodeAll_error (hdec.more_error hd more)]
  | some buf a n hd ih =>
    have hdrop : (buf ++ more).drop n = buf.drop n ++ more :=
      List.drop_append_of_le_length (hdec.progress hd).2
    rw [decodeAll_some hdec hd, decodeAll_some hdec (hdec.more_some hd more), hdrop, ih]
    unfold Outcome.cons
    dsimp only
    split <;> rfl

end DecodeAll

/-! ## The receive loop -/

/-- Where a receive loop is. -/
inductive Status (ε : Type) where
  /-- It waits for the next read. -/
  | running
  /-- The consumer has asked it to stop. -/
  | stopped
  /-- The stream is malformed. -/
  | failed (e : ε)
  /-- The stream has ended. -/
  | closed
  /-- Too much is buffered without a complete item. -/
  | overflow
deriving DecidableEq, Repr

/-- **A receive loop**: the consumer, what is buffered, and the items handed
over so far. A loop that has ended buffers nothing. -/
structure Receiver (σ β ε α : Type) where
  node : σ
  buf : List β
  handed : List α
  status : Status ε
deriving DecidableEq, Repr

namespace Receiver

/-- A loop that has not read anything. -/
def start (node : σ) : Receiver σ β ε α := ⟨node, [], [], .running⟩

/-- End the loop. -/
def endWith (r : Receiver σ β ε α) (status : Status ε) : Receiver σ β ε α :=
  { r with buf := [], status := status }

/-- End the loop with an error. -/
def fail (e : ε) (r : Receiver σ β ε α) : Receiver σ β ε α :=
  r.endWith (.failed e)

/-- Decode what is buffered and hand it over, at most `fuel` items. The
consumer answers whether to go on. -/
def drain (dec : Decode β ε α) (onError : ε → Receiver σ β ε α → Receiver σ β ε α)
    (handle : σ → α → σ × Bool) : ℕ → Receiver σ β ε α → Receiver σ β ε α
  | 0, r => r
  | fuel + 1, r =>
    match dec r.buf with
    | .error e => onError e r
    | .ok none => r
    | .ok (some (a, n)) =>
      let (node, goOn) := handle r.node a
      let r := { r with
        node := node
        buf := r.buf.drop n
        handed := r.handed ++ [a] }
      if goOn then drain dec onError handle fuel r else r.endWith .stopped

/-- **One read**: append it, decode, and check how much is left. An empty
read is the end of the stream. -/
def read (dec : Decode β ε α) (onError : ε → Receiver σ β ε α → Receiver σ β ε α)
    (cap : ℕ) (handle : σ → α → σ × Bool) (r : Receiver σ β ε α)
    (chunk : List β) : Receiver σ β ε α :=
  match r.status with
  | .running =>
    if chunk.isEmpty then r.endWith .closed
    else
      let r := { r with buf := r.buf ++ chunk }
      let r := drain dec onError handle (r.buf.length + 1) r
      if r.buf.length > cap then r.endWith .overflow else r
  | _ => r

end Receiver

/-! ## The loop against the whole stream -/

/-- How far a consumer gets with a list of items. -/
structure Consumed (σ α : Type) where
  node : σ
  /-- The items it was handed. -/
  handed : List α
  /-- Whether it would take more. -/
  goOn : Bool

/-- Hand over items until the consumer asks to stop. -/
def consume (handle : σ → α → σ × Bool) : σ → List α → Consumed σ α
  | node, [] => ⟨node, [], true⟩
  | node, a :: as =>
    if (handle node a).2 then
      let c := consume handle (handle node a).1 as
      { c with handed := a :: c.handed }
    else ⟨(handle node a).1, [a], false⟩

section Consume

variable {handle : σ → α → σ × Bool}

/-- A consumer that stops does so whatever comes later. -/
theorem consume_append_of_stop {node : σ} {as : List α}
    (h : (consume handle node as).goOn = false) (bs : List α) :
    consume handle node (as ++ bs) = consume handle node as := by
  induction as generalizing node with
  | nil => cases h
  | cons a as ih =>
    rw [List.cons_append, consume, consume]
    split
    · rename_i hgo
      rw [consume, if_pos hgo] at h
      rw [ih h]
    · rfl

/-- A consumer that goes on is handed what comes later. -/
theorem consume_append {node : σ} {as : List α}
    (h : (consume handle node as).goOn = true) (bs : List α) :
    consume handle node (as ++ bs) = let c := consume handle (consume handle node as).node bs
        { c with handed := (consume handle node as).handed ++ c.handed } := by
  induction as generalizing node with
  | nil => rfl
  | cons a as ih =>
    rw [List.cons_append, consume, consume]
    split
    · rename_i hgo
      rw [consume, if_pos hgo] at h
      rw [ih h]
      rfl
    · rename_i hgo
      rw [consume, if_neg hgo] at h
      cases h

/-- What a consumer is handed is the beginning of what there is, and all of
it if it goes on. -/
theorem handed_consume (node : σ) (as : List α) :
    (consume handle node as).handed <+: as ∧ ((consume handle node as).goOn = true →
          (consume handle node as).handed = as) := by
  induction as generalizing node with
  | nil => exact ⟨List.nil_prefix, fun _ => rfl⟩
  | cons a as ih =>
    rw [consume]
    split
    · obtain ⟨hpre, hall⟩ := ih (handle node a).1
      exact ⟨List.cons_prefix_cons.mpr ⟨rfl, hpre⟩, fun hgo => congrArg (a :: ·) (hall hgo)⟩
    · exact ⟨List.cons_prefix_cons.mpr ⟨rfl, List.nil_prefix⟩, fun hgo => nomatch hgo⟩

end Consume

/-- **The loop that a whole stream leads to**, for a consumer that has been
handed some items already. -/
def finish (onError : ε → Receiver σ β ε α → Receiver σ β ε α)
    (handle : σ → α → σ × Bool) (node : σ) (before : List α)
    (o : Outcome β ε α) : Receiver σ β ε α :=
  let c := consume handle node o.items
  let r : Receiver σ β ε α := ⟨c.node, o.rest, before ++ c.handed, .running⟩
  if c.goOn then o.error.elim r (fun e => onError e r) else r.endWith .stopped

section Finish

variable {onError : ε → Receiver σ β ε α → Receiver σ β ε α}
  {handle : σ → α → σ × Bool} {node : σ} {before : List α} {o : Outcome β ε α}

theorem finish_stopped (h : (consume handle node o.items).goOn = false) :
    finish onError handle node before o = ⟨(consume handle node o.items).node, [],
          before ++ (consume handle node o.items).handed, .stopped⟩ :=
  if_neg (by rw [h]; decide)

theorem finish_error {e : ε} (h : (consume handle node o.items).goOn = true)
    (he : o.error = some e) : finish onError handle node before o
      = onError e ⟨(consume handle node o.items).node, o.rest,
          before ++ (consume handle node o.items).handed, .running⟩ := by
  unfold finish
  dsimp only
  rw [if_pos h, he]
  rfl

theorem finish_running (h : (consume handle node o.items).goOn = true)
    (he : o.error = none) : finish onError handle node before o
      = ⟨(consume handle node o.items).node, o.rest,
          before ++ (consume handle node o.items).handed, .running⟩ := by
  unfold finish
  dsimp only
  rw [if_pos h, he]
  rfl

/-- A consumer that takes the first items goes on with the others. -/
theorem finish_append {as : List α} (h : (consume handle node as).goOn = true) (o : Outcome β ε α) :
    finish onError handle node before { o with items := as ++ o.items }
      = finish onError handle (consume handle node as).node
          (before ++ (consume handle node as).handed) o := by
  unfold finish
  dsimp only
  rw [consume_append h]
  simp only [List.append_assoc]

/-- **What a loop that ends at an error has handed over** is a beginning of
the stream's items. It is all of them unless the consumer stopped it, and
then the loop has failed exactly if the stream is refused. -/
theorem handed_finish (node : σ) (o : Outcome β ε α) :
    (finish .fail handle node [] o).handed <+: o.items
      ∧ ((finish .fail handle node [] o).status = .stopped
        ∨ (finish .fail handle node [] o).handed = o.items ∧ (finish .fail handle node [] o).status
            = o.error.elim .running .failed) := by
  obtain ⟨hpre, hall⟩ := handed_consume node o.items
  cases hgo : (consume handle node o.items).goOn with
  | false =>
    rw [finish_stopped hgo]
    exact ⟨hpre, Or.inl rfl⟩
  | true =>
    cases he : o.error with
    | some e =>
      rw [finish_error hgo he]
      exact ⟨hpre, Or.inr ⟨hall hgo, rfl⟩⟩
    | none =>
      rw [finish_running hgo he]
      exact ⟨hpre, Or.inr ⟨hall hgo, rfl⟩⟩

end Finish

section Read

variable {dec : Decode β ε α}
  {onError : ε → Receiver σ β ε α → Receiver σ β ε α}
  {handle : σ → α → σ × Bool} {cap : ℕ} (hdec : Incremental dec)

include hdec

/-- **Draining a buffer is decoding it.** -/
theorem drain_eq (r : Receiver σ β ε α) (hr : r.status = .running) {fuel : ℕ}
    (hfuel : r.buf.length < fuel) : r.drain dec onError handle fuel
      = finish onError handle r.node r.handed (decodeAll dec r.buf) := by
  -- On the fuel: each item takes at least one octet of the buffer.
  induction fuel generalizing r with
  | zero => exact absurd hfuel (Nat.not_lt_zero _)
  | succ fuel ih =>
    rw [Receiver.drain]
    split
    · rename_i e hd
      rw [decodeAll_error hd, finish_error rfl rfl, consume, List.append_nil, ← hr]
    · rename_i hd
      rw [decodeAll_none hd, finish_running rfl rfl, consume, List.append_nil, ← hr]
    · rename_i a n hd
      rw [decodeAll_some hdec hd]
      dsimp only
      split
      · rename_i hgo
        have hone : consume handle r.node [a] = ⟨(handle r.node a).1, [a], true⟩ := by
          rw [consume, if_pos hgo]
          rfl
        have hcons : finish onError handle r.node r.handed _ = _ :=
          finish_append (congrArg Consumed.goOn hone) (decodeAll dec (r.buf.drop n))
        have hlt := hdec.length_drop_lt hd
        have hrest := ih { r with
          node := (handle r.node a).1
          buf := r.buf.drop n
          handed := r.handed ++ [a] } hr
          (by show (r.buf.drop n).length < fuel; omega)
        rw [hone] at hcons
        exact hrest.trans hcons.symm
      · rename_i hgo
        have hone : consume handle r.node ((decodeAll dec (r.buf.drop n)).cons a).items
            = ⟨(handle r.node a).1, [a], false⟩ := by
          rw [Outcome.cons, consume, if_neg hgo]
        rw [finish_stopped (congrArg Consumed.goOn hone), hone]
        rfl

/-- A read of a running loop decodes what it has then. -/
theorem read_running (r : Receiver σ β ε α) (hr : r.status = .running)
    {chunk : List β} (hne : chunk ≠ []) : r.read dec onError cap handle chunk
      = let r' := finish onError handle r.node r.handed (decodeAll dec (r.buf ++ chunk))
        if r'.buf.length > cap then r'.endWith .overflow else r' := by
  have hdrain : Receiver.drain dec onError handle ((r.buf ++ chunk).length + 1)
      ⟨r.node, r.buf ++ chunk, r.handed, .running⟩
      = finish onError handle r.node r.handed (decodeAll dec (r.buf ++ chunk)) :=
    drain_eq hdec _ rfl (Nat.lt_succ_self _)
  rw [Receiver.read, hr]
  dsimp only
  rw [if_neg (by rwa [List.isEmpty_iff]), hdrain]

end Read

/-- A loop that has ended reads nothing. -/
theorem read_of_ne {dec : Decode β ε α}
    {onError : ε → Receiver σ β ε α → Receiver σ β ε α}
    {handle : σ → α → σ × Bool} {cap : ℕ} {r : Receiver σ β ε α}
    (hr : r.status ≠ .running) (chunk : List β) :
    r.read dec onError cap handle chunk = r := by
  rw [Receiver.read]
  split
  · exact absurd ‹_› hr
  · rfl

/-! ## A loop that ends at an error -/

section Feed

variable {dec : Decode β ε α} {handle : σ → α → σ × Bool} {cap : ℕ} (hdec : Incremental dec)
  (hcap : ∀ buf : List β, dec buf = .ok none → buf.length ≤ cap)

include hdec hcap

/-- What a loop has left to decode is short. -/
theorem length_buf_finish (node : σ) (before : List α) (buf : List β) :
    (finish .fail handle node before (decodeAll dec buf)).buf.length ≤ cap := by
  cases hgo : (consume handle node (decodeAll dec buf).items).goOn with
  | false =>
    rw [finish_stopped hgo]
    exact Nat.zero_le _
  | true =>
    cases he : (decodeAll dec buf).error with
    | some e =>
      rw [finish_error hgo he]
      exact Nat.zero_le _
    | none =>
      rw [finish_running hgo he]
      exact hcap _ (dec_rest hdec buf he)

/-- **One read more is a longer stream.** -/
theorem read_finish (node : σ) (stream : List β) {chunk : List β} (hne : chunk ≠ []) :
    (finish .fail handle node [] (decodeAll dec stream)).read dec .fail cap handle
        chunk = finish .fail handle node [] (decodeAll dec (stream ++ chunk)) := by
  rw [decodeAll_append hdec]
  cases hgo : (consume handle node (decodeAll dec stream).items).goOn with
  | false =>
    rw [finish_stopped hgo, read_of_ne (by intro h; exact nomatch h)]
    split
    · rw [finish_stopped (o := ⟨_, _, some _⟩) hgo]
    · have hstop := consume_append_of_stop hgo
        (decodeAll dec ((decodeAll dec stream).rest ++ chunk)).items
      rw [finish_stopped (by rw [hstop, hgo]), hstop]
  | true =>
    split
    · rename_i e he
      rw [finish_error hgo he, finish_error (o := ⟨_, _, some e⟩) hgo rfl]
      exact read_of_ne (by intro h; exact nomatch h) chunk
    · rename_i he
      have hlen : (finish .fail handle _ _ (decodeAll dec _)).buf.length ≤ cap :=
        length_buf_finish hdec hcap (consume handle node (decodeAll dec stream).items).node
          ([] ++ (consume handle node (decodeAll dec stream).items).handed)
          ((decodeAll dec stream).rest ++ chunk)
      rw [finish_running hgo he, read_running hdec _ rfl hne, finish_append hgo]
      exact if_neg (Nat.not_lt.mpr hlen)

/-- **The loop does with the reads what the decoder does with the stream**,
however the stream is cut. -/
theorem feed_eq (node : σ) {reads : List (List β)} (hne : ∀ c ∈ reads, c ≠ []) :
    reads.foldl (Receiver.read dec .fail cap handle) (.start node)
      = finish .fail handle node [] (decodeAll dec reads.flatten) := by
  induction reads using List.reverseRecOn with
  | nil =>
    show Receiver.start node = finish .fail handle node [] (decodeAll dec [])
    rw [decodeAll_none hdec.nil]
    rfl
  | append_singleton reads chunk ih =>
    rw [List.foldl_append, ih fun c hc => hne c (List.mem_append_left _ hc),
      List.flatten_append, List.flatten_singleton]
    exact read_finish hdec hcap node _
      (hne chunk List.mem_concat_self)

end Feed

end Chunked
