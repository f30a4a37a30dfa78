import Mathlib.Data.List.AList

/-!
# Who is at the other end

A table of pending requests has two sides. On the one side are slots: under a key, the
request that is to be told of what arrives for the key. On the other side are lines: what
a request has been told so far. A request plugs in under its key and is told of things
until it is unplugged; it is unplugged by whoever takes the slot, and then it is hung up.

A slot does not know whether it is its own request that takes it, so everything depends on
who holds it. `Board.Has` says which slot a request holds, if any, and what its line is.
Every operation works at one key: it takes away what is held there (`Has.plug`,
`Has.unplug`), and changes the line of a request if and only if the request holds the slot
of this key (`Has.signal`).

A `Desk` says what requests do by themselves. `Desk.turn` is the turn of one of them, and
`Has.turn` what a request has after it: for another one nothing changes, unless its slot is
taken (`HasUnless`).
-/

namespace Switchboard

variable {κ ν L : Type} [DecidableEq κ] [DecidableEq ν]

/-- The slots, by key, and the lines, by request. Whoever holds a slot has a line. -/
structure Board (κ ν L : Type) [DecidableEq κ] where
  slots : AList fun _ : κ => ν
  lines : AList fun _ : ν => L
  seated : ∀ k n, slots.lookup k = some n → n ∈ lines

namespace Board

/-- Nobody is there. -/
def empty : Board κ ν L := ⟨∅, ∅, fun _ _ h => by cases h⟩

variable (b : Board κ ν L)

/-- The request that holds the slot of a key. -/
def holder (k : κ) : Option ν := b.slots.lookup k

/-- The line of a request. -/
def line (n : ν) : Option L := b.lines.lookup n

/-- Change the line of a request. -/
def modify (n : ν) (f : L → L) : Board κ ν L :=
  match b.line n with
  | some l =>
    { b with
      lines := b.lines.insert n (f l)
      seated := fun k m h => (AList.mem_insert _).mpr (Or.inr (b.seated k m h)) }
  | none => b

/-- Tell the holder of a slot. -/
def signal (k : κ) (f : L → L) : Board κ ν L :=
  match b.holder k with
  | some n => b.modify n f
  | none => b

/-- Tell the holders of some slots, one after the other. -/
def signalAll (ks : List κ) (f : L → L) : Board κ ν L :=
  ks.foldl (fun b k => b.signal k f) b

/-- **Unplug** whoever holds the slot; it is hung up. -/
def unplug (hang : L → L) (k : κ) : Board κ ν L :=
  let b := b.signal k hang
  { b with
    slots := b.slots.erase k
    seated := fun k' n h => by
      by_cases hk : k' = k
      · rw [hk, AList.lookup_erase] at h
        cases h
      · rw [AList.lookup_erase_ne hk] at h
        exact b.seated k' n h }

/-- **Plug in** a request with a new line; whoever has held the slot is hung up. -/
def plug (hang : L → L) (k : κ) (n : ν) (l : L) : Board κ ν L :=
  let b := b.signal k hang
  { slots := b.slots.insert k n
    lines := b.lines.insert n l
    seated := fun k' m h => (AList.mem_insert _).mpr <| by
      by_cases hk : k' = k
      · rw [hk, AList.lookup_insert] at h
        exact Or.inl (Option.some.inj h).symm
      · rw [AList.lookup_insert_ne hk] at h
        exact Or.inr (b.seated k' m h) }

/-- **What a request has**: the slot of this key and no other, or none; and this line. -/
structure Has (n : ν) (k? : Option κ) (l : L) : Prop where
  slot : ∀ k, b.holder k = some n ↔ k? = some k
  line : b.line n = some l

/-- **What a request has unless its slot is taken**: then it has none, and the line `l'`. -/
def HasUnless (n : ν) (k? : Option κ) (l : L) (taken : Option κ) (l' : L) : Prop :=
  (∃ k, k? = some k ∧ taken = some k ∧ b.Has n none l')
    ∨ (∀ k, k? = some k → taken ≠ some k) ∧ b.Has n k? l

variable {b} {b' : Board κ ν L} {k k' : κ} {k? : Option κ} {n m : ν} {f hang : L → L} {l l' : L}

/-! ## Telling the holder -/

theorem holder_modify : (b.modify n f).holder k = b.holder k := by
  unfold modify
  cases b.line n <;> rfl

theorem holder_signal : (b.signal k f).holder k' = b.holder k' := by
  unfold signal
  cases b.holder k with
  | none => rfl
  | some m => exact holder_modify

section

variable (h : b.Has n k? l)

include h

theorem Has.modify_self : (b.modify n f).Has n k? (f l) where
  slot k := by
    rw [holder_modify]
    exact h.slot k
  line := by
    unfold modify
    rw [h.line]
    exact AList.lookup_insert _

theorem Has.modify (hm : m ≠ n) : (b.modify m f).Has n k? l where
  slot k := by
    rw [holder_modify]
    exact h.slot k
  line := by
    unfold Board.modify
    cases b.line m with
    | none => exact h.line
    | some l' => exact (AList.lookup_insert_ne (Ne.symm hm)).trans h.line

/-- **A request is told if and only if it holds the slot.** -/
theorem Has.signal : (b.signal k f).Has n k? (if k? = some k then f l else l) := by
  have hiff := h.slot k
  unfold Board.signal
  cases hk : b.holder k with
  | none =>
    rw [hk] at hiff
    rw [if_neg fun heq => Option.some_ne_none n (hiff.mpr heq).symm]
    exact h
  | some m =>
    rw [hk] at hiff
    by_cases hm : m = n
    · subst hm
      rw [if_pos (hiff.mp rfl)]
      exact h.modify_self
    · rw [if_neg fun heq => hm (Option.some.inj (hiff.mpr heq))]
      exact h.modify hm

/-- So it is, once, when several slots are gone through. -/
theorem Has.signalAll {ks : List κ} (hks : ks.Nodup) :
    (b.signalAll ks f).Has n k? (if ∃ k ∈ ks, k? = some k then f l else l) := by
  induction ks generalizing b l with
  | nil =>
    rw [if_neg fun ⟨k, hk, _⟩ => List.not_mem_nil hk]
    exact h
  | cons k ks ih =>
    obtain ⟨hk, hks⟩ := List.nodup_cons.mp hks
    have hrest := ih (h.signal (k := k) (f := f)) hks
    by_cases heq : k? = some k
    · have hnot : ¬ ∃ k' ∈ ks, k? = some k' := by
        rintro ⟨k', hk', heq'⟩
        exact hk (Option.some.inj (heq.symm.trans heq') ▸ hk')
      rw [if_neg hnot, if_pos heq] at hrest
      rw [if_pos ⟨k, List.mem_cons_self, heq⟩]
      exact hrest
    · rw [if_neg heq] at hrest
      simp only [List.exists_mem_cons_iff, heq, false_or]
      exact hrest

/-! ## Taking the slot -/

/-- What a request has after the slot of a key has got another holder, or none. -/
theorem Has.of_update {m? : Option ν} (hm : m? ≠ some n)
    (hslots : ∀ k', b'.holder k' = if k' = k then m? else b.holder k')
    (hline : b'.line n = some l') : b'.Has n (if k? = some k then none else k?) l' := by
  refine ⟨fun k' => ?_, hline⟩
  rw [hslots]
  by_cases hk : k' = k
  · subst hk
    rw [if_pos rfl]
    refine iff_of_false hm fun heq => ?_
    by_cases hk? : k? = some k'
    · rw [if_pos hk?] at heq
      cases heq
    · rw [if_neg hk?] at heq
      exact hk? heq
  · rw [if_neg hk, h.slot k']
    by_cases hk? : k? = some k
    · rw [if_pos hk?, hk?]
      exact iff_of_false (fun heq => hk (Option.some.inj heq).symm) (Option.some_ne_none k').symm
    · rw [if_neg hk?]

/-- **Whoever unplugs takes the slot**, and its holder is hung up. -/
theorem Has.unplug : (b.unplug hang k).Has n (if k? = some k then none else k?)
      (if k? = some k then hang l else l) := by
  refine h.of_update (Option.some_ne_none n).symm (fun k' => ?_) h.signal.line
  show ((b.signal k hang).slots.erase k).lookup k' = _
  by_cases hk : k' = k
  · rw [if_pos hk, hk, AList.lookup_erase]
  · rw [if_neg hk, AList.lookup_erase_ne hk]
    exact holder_signal

end

theorem holder_plug : (b.plug hang k n l).holder k' = if k' = k then some n else b.holder k' := by
  show ((b.signal k hang).slots.insert k n).lookup k' = _
  by_cases h : k' = k
  · rw [if_pos h, h, AList.lookup_insert]
  · rw [if_neg h, AList.lookup_insert_ne h]
    exact holder_signal

/-- **Whoever plugs in takes the slot**, and its holder is hung up. -/
theorem Has.plug (h : b.Has n k? l) (hm : m ≠ n) :
    (b.plug hang k m l').Has n (if k? = some k then none else k?)
      (if k? = some k then hang l else l) :=
  h.of_update (fun heq => hm (Option.some.inj heq)) (fun _ => holder_plug)
    ((AList.lookup_insert_ne (Ne.symm hm)).trans h.signal.line)

/-- **A new request has the slot** that it plugs in at. -/
theorem has_plug (h : b.line n = none) : (b.plug hang k n l).Has n (some k) l := by
  refine ⟨fun k' => ?_, AList.lookup_insert _⟩
  rw [holder_plug, Option.some.injEq, eq_comm (a := k)]
  by_cases hk : k' = k
  · rw [if_pos hk]
    exact iff_of_true rfl hk
  · rw [if_neg hk]
    -- it has no line, and so it holds no other slot
    exact iff_of_false (fun heq => AList.lookup_eq_none.mp h (b.seated k' n heq)) hk

theorem Has.hasUnless (h : b.Has n (if k? = some k then none else k?)
    (if k? = some k then l' else l)) : b.HasUnless n k? l (some k) l' := by
  by_cases hk : k? = some k
  · rw [if_pos hk, if_pos hk] at h
    exact Or.inl ⟨k, hk, rfl, h⟩
  · rw [if_neg hk, if_neg hk] at h
    exact Or.inr ⟨fun k' hk' heq => hk (hk'.trans heq.symm), h⟩

theorem Has.hasUnless_none (h : b.Has n k? l) : b.HasUnless n k? l none l' :=
  Or.inr ⟨fun k _ => (Option.some_ne_none k).symm, h⟩

/-- The holder of a slot is told something and unplugged. -/
theorem Has.signal_unplug (h : b.Has n k? l) :
    ((b.signal k f).unplug hang k).HasUnless n k? l (some k) (hang (f l)) := by
  have htold : ((b.signal k f).unplug hang k).Has n _ _ := h.signal.unplug
  by_cases hk : k? = some k
  · rw [if_pos hk, if_pos hk, if_pos hk] at htold
    exact Or.inl ⟨k, hk, rfl, htold⟩
  · rw [if_neg hk, if_neg hk, if_neg hk] at htold
    exact Or.inr ⟨fun k' hk' heq => hk (hk'.trans heq.symm), htold⟩

end Board

/-! ## Turns -/

/-- **The business of the requests**, with inputs `I` and actions `A`. -/
structure Desk (κ L I A : Type) where
  /-- The line that a request begins with. -/
  new : I → Option L
  key : L → κ
  hang : L → L
  /-- What a request does: whether it takes the slot of its key, what becomes of its line,
  and its actions. -/
  next : L → I → Option (Bool × (L → L) × List A)

namespace Desk

variable {I A : Type} (D : Desk κ L I A) (b : Board κ ν L) (n : ν) (i : I)

/-- **The turn of a request.** -/
def turn : Board κ ν L × List A :=
  match b.line n with
  | none =>
    match D.new i with
    | some l => (b.plug D.hang (D.key l) n l, [])
    | none => (b, [])
  | some l =>
    match D.next l i with
    | some (true, f, actions) => ((b.unplug D.hang (D.key l)).modify n f, actions)
    | some (false, f, actions) => (b.modify n f, actions)
    | none => (b, [])

/-- The key of the slot that is taken in the turn. -/
def taken : Option κ :=
  match b.line n with
  | none => (D.new i).map D.key
  | some l =>
    match D.next l i with
    | some (true, _) => some (D.key l)
    | _ => none

end Desk

variable {I A : Type} {D : Desk κ L I A} {b : Board κ ν L} {k? : Option κ} {n : ν} {l : L}

/-- **What a request has after a turn.** In the turn of another one it does nothing. -/
theorem Board.Has.turn (h : b.Has n k? l) (m : ν) (i : I) :
    ∃ f : L → L, (f = id ∨ m = n ∧ ∃ t actions, D.next l i = some (t, f, actions))
      ∧ (D.turn b m i).1.HasUnless n k? (f l) (D.taken b m i) (f (D.hang l)) := by
  unfold Desk.turn Desk.taken
  by_cases hm : m = n
  · subst hm
    rw [h.line]
    dsimp only
    match D.next l i with
    | none => exact ⟨id, Or.inl rfl, h.hasUnless_none⟩
    | some (false, f, actions) =>
      exact ⟨f, Or.inr ⟨rfl, _, _, rfl⟩, h.modify_self.hasUnless_none⟩
    | some (true, f, actions) =>
      refine ⟨f, Or.inr ⟨rfl, _, _, rfl⟩, Has.hasUnless ?_⟩
      rw [← apply_ite f]
      exact h.unplug.modify_self
  · refine ⟨id, Or.inl rfl, ?_⟩
    cases b.line m with
    | none =>
      cases D.new i with
      | none => exact h.hasUnless_none
      | some l' => exact (h.plug hm).hasUnless
    | some l' =>
      dsimp only
      match D.next l' i with
      | none => exact h.hasUnless_none
      | some (false, f, actions) => exact (h.modify hm).hasUnless_none
      | some (true, f, actions) => exact (h.unplug.modify hm).hasUnless

end Switchboard
