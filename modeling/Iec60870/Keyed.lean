import Mathlib.Data.List.AList
import Mathlib.Data.List.Induction

/-!
# Indexes by keys that may clash

A list is read from front to back, and some of its elements have a key and a
value; the values are put into an index, in which every key has one place. What
becomes of a second value for one key is a matter of policy: it is rejected, and
with it the whole list, or it is dropped, or it takes the place of the first one.

What the index has to be can be said of the list alone, by the first and by the
last element with a key. This is what the loop establishes, under each policy,
for the part of the list that it has read (`Built`).
-/

namespace Keyed

/-- What becomes of a second value for one key. -/
inductive Policy where
  | reject
  | first
  | last
deriving DecidableEq, Repr

variable {α κ β : Type}

/-! ## Elements with a key -/

section Occurrences

variable (occ : α → Option (κ × β))

/-- An element of the list has the key. -/
def Occurs (k : κ) (l : List α) : Prop := ∃ x ∈ l, ∃ v, occ x = some (k, v)

/-- **The value is that of the first element with the key.** -/
def FirstAt (k : κ) (v : β) (l : List α) : Prop :=
  ∃ before x after, l = before ++ x :: after ∧ occ x = some (k, v) ∧ ¬ Occurs occ k before

/-- **The value is that of the last element with the key.** -/
def LastAt (k : κ) (v : β) (l : List α) : Prop :=
  ∃ before x after, l = before ++ x :: after ∧ occ x = some (k, v) ∧ ¬ Occurs occ k after

/-- **No two elements have one key.** -/
def Distinct (l : List α) : Prop :=
  l.Pairwise fun x y => ∀ k v w, occ x = some (k, v) → occ y ≠ some (k, w)

variable {occ} {k : κ} {v : β} {l : List α} {x : α}

theorem not_occurs_nil : ¬ Occurs occ k [] := by
  rintro ⟨x, hx, -⟩
  cases hx

theorem occurs_snoc : Occurs occ k (l ++ [x]) ↔ Occurs occ k l ∨ ∃ v, occ x = some (k, v) := by
  constructor
  · rintro ⟨y, hy, hk⟩
    obtain hy | hy := List.mem_append.mp hy
    · exact Or.inl ⟨y, hy, hk⟩
    · obtain rfl := List.mem_singleton.mp hy
      exact Or.inr hk
  · rintro (⟨y, hy, hk⟩ | hk)
    · exact ⟨y, List.mem_append_left _ hy, hk⟩
    · exact ⟨x, List.mem_append_right _ (List.mem_singleton_self x), hk⟩

theorem FirstAt.occurs (h : FirstAt occ k v l) : Occurs occ k l := by
  obtain ⟨before, x, after, rfl, hx, -⟩ := h
  exact ⟨x, List.mem_append_right _ List.mem_cons_self, v, hx⟩

theorem LastAt.occurs (h : LastAt occ k v l) : Occurs occ k l := by
  obtain ⟨before, x, after, rfl, hx, -⟩ := h
  exact ⟨x, List.mem_append_right _ List.mem_cons_self, v, hx⟩

/-- The first element with a key stays the first one. -/
theorem firstAt_snoc : FirstAt occ k v (l ++ [x])
      ↔ FirstAt occ k v l ∨ ¬ Occurs occ k l ∧ occ x = some (k, v) := by
  constructor
  · rintro ⟨before, y, after, hl, hy, hbefore⟩
    obtain rfl | ⟨after, z, rfl⟩ := List.eq_nil_or_concat after
    · obtain ⟨rfl, hz⟩ := List.append_inj' hl rfl
      cases hz
      exact Or.inr ⟨hbefore, hy⟩
    · rw [List.concat_eq_append, ← List.cons_append, ← List.append_assoc] at hl
      obtain ⟨rfl, -⟩ := List.append_inj' hl rfl
      exact Or.inl ⟨before, y, after, rfl, hy, hbefore⟩
  · rintro (⟨before, y, after, rfl, hy, hbefore⟩ | ⟨hl, hx⟩)
    · exact ⟨before, y, after ++ [x], List.append_assoc .., hy, hbefore⟩
    · exact ⟨l, x, [], rfl, hx, hl⟩

/-- Every element with a key is the last one, for a time. -/
theorem lastAt_snoc : LastAt occ k v (l ++ [x])
      ↔ LastAt occ k v l ∧ (∀ w, occ x ≠ some (k, w)) ∨ occ x = some (k, v) := by
  constructor
  · rintro ⟨before, y, after, hl, hy, hafter⟩
    obtain rfl | ⟨after, z, rfl⟩ := List.eq_nil_or_concat after
    · obtain ⟨rfl, hz⟩ := List.append_inj' hl rfl
      cases hz
      exact Or.inr hy
    · rw [List.concat_eq_append, ← List.cons_append, ← List.append_assoc] at hl
      obtain ⟨rfl, hz⟩ := List.append_inj' hl rfl
      cases hz
      rw [List.concat_eq_append, occurs_snoc, not_or] at hafter
      exact Or.inl ⟨⟨before, y, after, rfl, hy, hafter.1⟩, fun w hw => hafter.2 ⟨w, hw⟩⟩
  · rintro (⟨⟨before, y, after, rfl, hy, hafter⟩, hx⟩ | hx)
    · refine ⟨before, y, after ++ [x], List.append_assoc .., hy, ?_⟩
      rw [occurs_snoc, not_or]
      exact ⟨hafter, fun ⟨w, hw⟩ => hx w hw⟩
    · exact ⟨l, x, [], rfl, hx, not_occurs_nil⟩

theorem distinct_snoc :
    Distinct occ (l ++ [x]) ↔ Distinct occ l ∧ ∀ k v, occ x = some (k, v) → ¬ Occurs occ k l := by
  unfold Distinct
  rw [List.pairwise_append]
  constructor
  · rintro ⟨hl, -, hx⟩
    refine ⟨hl, fun k v hk => ?_⟩
    rintro ⟨y, hy, w, hw⟩
    exact hx y hy x (List.mem_singleton_self x) k w v hw hk
  · rintro ⟨hl, hx⟩
    refine ⟨hl, List.pairwise_singleton _ _, fun y hy z hz k v w hv hw => ?_⟩
    obtain rfl := List.mem_singleton.mp hz
    exact hx k w hw ⟨y, hy, v, hv⟩

theorem Distinct.of_append {l' : List α} (h : Distinct occ (l ++ l')) : Distinct occ l :=
  (List.pairwise_append.mp h).1

section Congr

variable {occ' : α → Option (κ × β)}
  (h : ∀ x v, occ x = some (k, v) ↔ occ' x = some (k, v)) (l : List α)

include h

theorem occurs_congr : Occurs occ k l ↔ Occurs occ' k l := by
  unfold Occurs
  simp only [h]

/-- Which element is the first one with a key depends on the key only. -/
theorem firstAt_congr : FirstAt occ k v l ↔ FirstAt occ' k v l := by
  unfold FirstAt
  simp only [h, occurs_congr h]

theorem lastAt_congr : LastAt occ k v l ↔ LastAt occ' k v l := by
  unfold LastAt
  simp only [h, occurs_congr h]

end Congr

end Occurrences

/-! ## The loop -/

section Build

variable [DecidableEq κ] (policy : Policy) (occ : α → Option (κ × β))

/-- One element. A key that clashes is the error. -/
def step (m : AList fun _ : κ => β) (x : α) : Except κ (AList fun _ : κ => β) :=
  match occ x with
  | none => .ok m
  | some (k, v) =>
    if k ∈ m then
      match policy with
      | .reject => .error k
      | .first => .ok m
      | .last => .ok (m.insert k v)
    else .ok (m.insert k v)

/-- **The index of a list.** -/
def build (l : List α) : Except κ (AList fun _ : κ => β) :=
  l.foldlM (step policy occ) ∅

/-- **What the index of a list is**: it has the keys of the list, with the first
value or the last one, or with both. -/
structure Built (l : List α) (m : AList fun _ : κ => β) : Prop where
  mem : ∀ k, k ∈ m ↔ Occurs occ k l
  first : policy ≠ .last → ∀ k v, m.lookup k = some v ↔ FirstAt occ k v l
  last : policy ≠ .first → ∀ k v, m.lookup k = some v ↔ LastAt occ k v l
  distinct : policy = .reject → Distinct occ l

variable {policy occ} {l : List α} {m m' : AList fun _ : κ => β} {x : α} {k : κ} {v : β}

theorem built_nil : Built policy occ [] ∅ where
  mem k := iff_of_false (AList.notMem_empty k) not_occurs_nil
  first _ k v := iff_of_false (fun h => by cases h) fun h => not_occurs_nil h.occurs
  last _ k v := iff_of_false (fun h => by cases h) fun h => not_occurs_nil h.occurs
  distinct _ := List.Pairwise.nil

/-- An element without a key. -/
theorem Built.skip (h : Built policy occ l m) (hx : occ x = none) :
    Built policy occ (l ++ [x]) m := by
  have hne : ∀ k v, occ x ≠ some (k, v) := by
    intro k v hk
    rw [hx] at hk
    cases hk
  refine ⟨fun k => ?_, fun hp k v => ?_, fun hp k v => ?_, fun hp => ?_⟩
  · rw [h.mem, occurs_snoc, or_iff_left]
    exact fun ⟨v, hv⟩ => hne k v hv
  · rw [h.first hp, firstAt_snoc, or_iff_left]
    exact fun hk => hne k v hk.2
  · rw [h.last hp, lastAt_snoc, or_iff_left (hne k v), and_iff_left (hne k)]
  · exact distinct_snoc.mpr ⟨h.distinct hp, fun k v hk => absurd hk (hne k v)⟩

/-- A second value that is dropped. -/
theorem Built.drop (h : Built .first occ l m) (hx : occ x = some (k, v)) (hk : k ∈ m) :
    Built .first occ (l ++ [x]) m := by
  refine ⟨fun k' => ?_, fun hp k' v' => ?_, fun hp => absurd rfl hp, fun hp => by cases hp⟩
  · rw [h.mem, occurs_snoc, hx, or_iff_left_of_imp]
    rintro ⟨w, hw⟩
    cases hw
    exact (h.mem k).mp hk
  · rw [h.first hp, firstAt_snoc, hx, or_iff_left]
    rintro ⟨hnone, heq⟩
    cases heq
    exact hnone ((h.mem k).mp hk)

/-- A value that is put into the index, for a new key or in the place of another
one. -/
theorem Built.insert (h : Built policy occ l m) (hx : occ x = some (k, v))
    (hk : policy = .last ∨ k ∉ m) : Built policy occ (l ++ [x]) (m.insert k v) := by
  refine ⟨fun k' => ?_, fun hp k' v' => ?_, fun hp k' v' => ?_, fun hp => ?_⟩
  · rw [AList.mem_insert, occurs_snoc, h.mem, hx, or_comm]
    refine or_congr_right ⟨?_, ?_⟩
    · rintro rfl
      exact ⟨v, rfl⟩
    · rintro ⟨w, hw⟩
      cases hw
      rfl
  · have hk := hk.resolve_left hp
    rw [firstAt_snoc, hx]
    by_cases heq : k' = k
    · subst heq
      rw [h.mem] at hk
      rw [AList.lookup_insert, or_iff_right fun hfirst => hk hfirst.occurs, and_iff_right hk]
      constructor <;> rintro ⟨⟩ <;> rfl
    · rw [AList.lookup_insert_ne heq, h.first hp, or_iff_left]
      rintro ⟨-, hne⟩
      cases hne
      exact heq rfl
  · rw [lastAt_snoc, hx]
    by_cases heq : k' = k
    · subst heq
      rw [AList.lookup_insert, or_iff_right fun hlast => hlast.2 v rfl]
      constructor <;> rintro ⟨⟩ <;> rfl
    · rw [AList.lookup_insert_ne heq, h.last hp]
      have hne : ∀ w, some (k, v) ≠ some (k', w) := by
        rintro w ⟨⟩
        exact heq rfl
      rw [or_iff_left (hne v'), and_iff_left hne]
  · subst hp
    refine distinct_snoc.mpr ⟨h.distinct rfl, fun k' v' hk' => ?_⟩
    rw [hx] at hk'
    cases hk'
    rw [← h.mem]
    exact hk.resolve_left fun hlast => by cases hlast

/-- **One element** goes into the index, or is rejected since another one has its key. -/
theorem Built.step (h : Built policy occ l m) (x : α) :
    (∃ m', Keyed.step policy occ m x = .ok m' ∧ Built policy occ (l ++ [x]) m')
      ∨ ∃ k, Keyed.step policy occ m x = .error k
        ∧ policy = .reject ∧ ¬ Distinct occ (l ++ [x]) := by
  unfold Keyed.step
  cases hx : occ x with
  | none => exact Or.inl ⟨m, rfl, h.skip hx⟩
  | some p =>
    obtain ⟨k, v⟩ := p
    dsimp only
    by_cases hk : k ∈ m
    · rw [if_pos hk]
      cases policy with
      | reject =>
        refine Or.inr ⟨k, rfl, rfl, fun hdistinct => ?_⟩
        exact (distinct_snoc.mp hdistinct).2 k v hx ((h.mem k).mp hk)
      | first => exact Or.inl ⟨m, rfl, h.drop hx hk⟩
      | last => exact Or.inl ⟨_, rfl, h.insert hx (Or.inl rfl)⟩
    · rw [if_neg hk]
      exact Or.inl ⟨_, rfl, h.insert hx (Or.inr hk)⟩

theorem build_snoc (l : List α) (x : α) :
    build policy occ (l ++ [x]) = build policy occ l >>= (step policy occ · x) := by
  unfold build
  rw [List.foldlM_append]
  simp only [List.foldlM_cons, List.foldlM_nil, bind_pure]

/-- **The loop**: it makes the index of the list, or the list has two values for
one key and they are rejected. -/
theorem build_spec (policy : Policy) (occ : α → Option (κ × β)) (l : List α) :
    (∃ m, build policy occ l = .ok m ∧ Built policy occ l m)
      ∨ ∃ k, build policy occ l = .error k ∧ policy = .reject ∧ ¬ Distinct occ l := by
  induction l using List.reverseRecOn with
  | nil => exact Or.inl ⟨∅, rfl, built_nil⟩
  | append_singleton l x ih =>
    rw [build_snoc]
    obtain ⟨m, hm, hbuilt⟩ | ⟨k, hk, hreject, hclash⟩ := ih
    · rw [hm]
      exact hbuilt.step x
    · rw [hk]
      exact Or.inr ⟨k, rfl, hreject, fun h => hclash h.of_append⟩

theorem built_of_build (h : build policy occ l = .ok m) : Built policy occ l m := by
  obtain ⟨m', hm, hbuilt⟩ | ⟨k, hk, -⟩ := build_spec policy occ l
  · rw [h] at hm
    cases hm
    exact hbuilt
  · rw [h] at hk
    cases hk

/-- A value of the index is that of an element. -/
theorem Built.exists_of_lookup (h : Built policy occ l m) (hk : m.lookup k = some v) :
    ∃ x ∈ l, occ x = some (k, v) := by
  by_cases hlast : policy = .last
  · subst hlast
    obtain ⟨before, x, after, rfl, hx, -⟩ := (h.last (fun hp => by cases hp) k v).mp hk
    exact ⟨x, List.mem_append_right _ List.mem_cons_self, hx⟩
  · obtain ⟨before, x, after, rfl, hx, -⟩ := (h.first hlast k v).mp hk
    exact ⟨x, List.mem_append_right _ List.mem_cons_self, hx⟩

end Build

/-! ## Other values -/

section Map

variable [DecidableEq κ] {α' γ ε : Type} {occ : α → Option (κ × β)}
  {occ' : α' → Option (κ × γ)} {g : α → α'} {f : β → γ}

/-- **Two indexes with the same keys**, the values of one mapped to those of the other, or
the same error twice. -/
def Mapped (f : β → γ) :
    Except ε (AList fun _ : κ => β) → Except ε (AList fun _ : κ => γ) → Prop
  | .ok m, .ok m' => ∀ k, m'.lookup k = (m.lookup k).map f
  | .error e, .error e' => e = e'
  | _, _ => False

theorem Mapped.mapError {ε' : Type} {r : Except ε (AList fun _ : κ => β)}
    {r' : Except ε (AList fun _ : κ => γ)} (h : Mapped f r r') (e : ε → ε') :
    Mapped f (r.mapError e) (r'.mapError e) := by
  cases r <;> cases r'
  case error.error => exact congrArg e h
  all_goals exact h

/-- One element. -/
theorem Mapped.step {m : AList fun _ : κ => β} {m' : AList fun _ : κ => γ} {x : α}
    (h : Mapped (ε := κ) f (.ok m) (.ok m')) (policy : Policy)
    (hx : occ' (g x) = (occ x).map (Prod.map id f)) :
    Mapped f (Keyed.step policy occ m x) (Keyed.step policy occ' m' (g x)) := by
  have hmem (k : κ) : k ∈ m' ↔ k ∈ m := by
    rw [← AList.lookup_isSome, ← AList.lookup_isSome, h k, Option.isSome_map]
  have hinsert (k : κ) (v : β) :
      Mapped (ε := κ) f (.ok (m.insert k v)) (.ok (m'.insert k (f v))) := by
    intro k'
    by_cases hk : k' = k
    · subst hk
      rw [AList.lookup_insert, AList.lookup_insert, Option.map_some]
    · rw [AList.lookup_insert_ne hk, AList.lookup_insert_ne hk, h k']
  unfold Keyed.step
  rw [hx]
  cases occ x with
  | none => exact h
  | some p =>
    dsimp only [Option.map_some, Prod.map_fst, Prod.map_snd, id]
    by_cases hk : p.1 ∈ m
    · rw [if_pos hk, if_pos ((hmem _).mpr hk)]
      cases policy with
      | reject => exact rfl
      | first => exact h
      | last => exact hinsert _ _
    · rw [if_neg hk, if_neg (mt (hmem _).mp hk)]
      exact hinsert _ _

/-- **Mapping the values changes nothing else.** -/
theorem build_map (policy : Policy) (hocc : ∀ x, occ' (g x) = (occ x).map (Prod.map id f))
    (l : List α) : Mapped f (build policy occ l) (build policy occ' (l.map g)) := by
  have h : Mapped (κ := κ) (ε := κ) f (.ok ∅) (.ok ∅) := fun _ => rfl
  unfold build
  generalize (∅ : AList fun _ : κ => β) = m, (∅ : AList fun _ : κ => γ) = m' at h ⊢
  induction l generalizing m m' with
  | nil => exact h
  | cons x l ih =>
    rw [List.map_cons, List.foldlM_cons, List.foldlM_cons]
    have hstep := h.step policy (hocc x)
    cases hr : step policy occ m x <;> cases hr' : step policy occ' m' (g x) <;>
      rw [hr, hr'] at hstep
    case error.error => exact hstep
    case ok.ok n n' => exact ih n n' hstep
    all_goals exact hstep.elim

end Map

end Keyed
