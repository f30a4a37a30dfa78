import Mathlib.Data.List.Basic

/-!
# Deliveries that overtake each other

Items are made one after the other, and each is delivered some time after it was made.
Making and delivering are not in one hand: while an item is under way another one can be
made and be delivered first, and then it has overtaken the older one.

`Post` keeps what has been made, what has been delivered, and what is under way, the
oldest first. `Trace` are the ways to get there from nothing, with the remark whether an
item has overtaken another one. Overtaking is never made good: `Trace.prefix_iff` says
that the deliveries are the beginning of what was made, in this order, if and only if
there was none; and then nothing but what is under way is missing (`Trace.made_eq`).
-/

namespace Overtaking

variable {α : Type}

/-- What has been made and delivered, and what is under way. -/
structure Post (α : Type) where
  made : List α
  delivered : List α
  underway : List α

/-- **One step**, and whether an item overtakes another one in it. An item differs from
those that are under way when it is delivered before them. -/
inductive Step : Post α → Bool → Post α → Prop
  | rest (p : Post α) : Step p false p
  | make (p : Post α) (x : α) : Step p false ⟨p.made ++ [x], p.delivered, p.underway ++ [x]⟩
  | deliver (made delivered older : List α) (x : α) (younger : List α) (hx : x ∉ older) :
      Step ⟨made, delivered, older ++ x :: younger⟩ (!older.isEmpty)
        ⟨made, delivered ++ [x], older ++ younger⟩

/-- **The steps from nothing**, and whether there was overtaking among them. -/
inductive Trace : Post α → Bool → Prop
  | nil : Trace ⟨[], [], []⟩ false
  | snoc {p p' : Post α} {b c : Bool} (t : Trace p b) (s : Step p c p') : Trace p' (b || c)

variable {p : Post α} {b : Bool}

/-- What has been made has been delivered or is under way. -/
theorem Trace.length_made (t : Trace p b) :
    p.made.length = p.delivered.length + p.underway.length := by
  induction t with
  | nil => rfl
  | snoc t s ih =>
    cases s with
    | rest => exact ih
    | make _ x =>
      rw [List.length_append, List.length_append, ih, Nat.add_assoc]
    | deliver made delivered older x younger hx =>
      rw [List.length_append, List.length_cons] at ih
      rw [List.length_append, List.length_append, List.length_singleton]
      dsimp only at ih ⊢
      omega

/-- Without overtaking, what has been made is what has been delivered and then what is
under way. -/
theorem Trace.made_eq (t : Trace p b) (hb : b = false) : p.made = p.delivered ++ p.underway := by
  induction t with
  | nil => rfl
  | snoc t s ih =>
    obtain ⟨hb, hc⟩ := Bool.or_eq_false_iff.mp hb
    have hmade := ih hb
    cases s with
    | rest => exact hmade
    | make _ x => rw [hmade, List.append_assoc]
    | deliver made delivered older x younger hx =>
      -- the item was the oldest one
      obtain rfl : older = [] := by simpa using hc
      rw [List.append_assoc]
      exact hmade

/-- **The deliveries are the beginning of what was made if and only if nothing was
overtaken.** -/
theorem Trace.prefix_iff (t : Trace p b) : p.delivered <+: p.made ↔ b = false := by
  induction t with
  | nil => exact iff_of_true (List.prefix_refl []) rfl
  | @snoc p p' b c t s ih =>
    cases s with
    | rest => rw [Bool.or_false, ih]
    | make _ x =>
      rw [Bool.or_false, ← ih]
      constructor
      · intro h
        have hlen : p.delivered.length ≤ p.made.length :=
          t.length_made ▸ Nat.le_add_right _ _
        exact List.prefix_of_prefix_length_le h (List.prefix_append p.made [x]) hlen
      · intro h
        exact h.trans (List.prefix_append p.made [x])
    | deliver made delivered older x younger hx =>
      constructor
      · intro h
        have hb : b = false := ih.mp ((List.prefix_append delivered [x]).trans h)
        have hmade : made = delivered ++ (older ++ x :: younger) := t.made_eq hb
        dsimp only at h
        rw [hmade, List.prefix_append_right_inj] at h
        cases older with
        | nil => rw [hb]; rfl
        | cons y older =>
          -- the next delivery was to be `y`
          obtain ⟨rest, hrest⟩ := h
          obtain ⟨rfl, -⟩ := List.cons.inj hrest
          exact absurd List.mem_cons_self hx
      · intro h
        have hmade := (t.snoc (.deliver made delivered older x younger hx)).made_eq h
        exact ⟨older ++ younger, hmade.symm⟩

end Overtaking
