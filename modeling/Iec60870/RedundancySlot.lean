import Iec60870.Redundancy

/-!
# Who owns the data link

At most one peer is to own the data link, and it is to be a connected one:
whenever `Inner.active` names a peer, its sender is on the map. A peer that
has been demoted – another one took the slot – is not to come back.

The source gets this right as long as the events of a peer are taken in
time. Two lock sections break it. A task promotes its peer without looking
whether the peer's sender is still on the map: demotion only drops the
sender, and the events that were queued by then are still taken, so a stale
`StateChanged(Active)` gives the demoted peer the slot back and closes the
connection of the peer that has it. And a task whose peer is refused by the
filter takes the sender off the map under one lock and clears the slot under
another one.

`Group.stale` is the condition on the state before a turn that the turn is
one of the two, and `slot_safe_iff` says that nothing else goes wrong.
-/

namespace Redundancy

open Machine

variable {α : Type} [DecidableEq α]

/-- A turn of the group, in a history. -/
abbrev Call (α : Type) := Machine.Call (Group α) (Turn α) (α × Bytes)

/-! ## What the lock sections do to the map and the slot -/

namespace Inner

variable {i : Inner α} {p q : α}

@[simp] theorem mem_keys_remove : q ∈ (i.remove p).keys ↔ q ∈ i.keys ∧ q ≠ p := by
  unfold keys remove
  rw [List.mem_map, List.mem_map]
  constructor
  · rintro ⟨e, he, rfl⟩
    obtain ⟨hmem, hne⟩ := List.mem_filter.mp he
    exact ⟨⟨e, hmem, rfl⟩, of_decide_eq_true hne⟩
  · rintro ⟨⟨e, hmem, rfl⟩, hne⟩
    exact ⟨e, List.mem_filter.mpr ⟨hmem, decide_eq_true hne⟩, rfl⟩

@[simp] theorem mem_keys_insert {n : ℕ} : q ∈ (i.insert p n).keys ↔ q = p ∨ q ∈ i.keys := by
  have hkeys : (i.insert p n).keys = p :: (i.remove p).keys := rfl
  rw [hkeys, List.mem_cons, mem_keys_remove]
  by_cases h : q = p
  · exact iff_of_true (Or.inl h) (Or.inl h)
  · rw [and_iff_left h]

@[simp] theorem active_promote : (i.promote p).active = some p := by
  unfold promote
  split
  · split <;> rfl
  · rfl

/-- Promotion closes the connection of the peer that had the slot. -/
@[simp] theorem mem_keys_promote :
    q ∈ (i.promote p).keys ↔ q ∈ i.keys ∧ (i.active = some q → q = p) := by
  unfold promote
  split
  · rename_i prev hprev
    rw [hprev]
    split
    · rename_i hne
      refine mem_keys_remove.trans (and_congr_right fun _ => ?_)
      constructor
      · exact fun hq he => absurd (Option.some.inj he).symm hq
      · rintro himp rfl
        exact hne (himp rfl)
    · rename_i heq
      have heq := not_not.mp heq
      exact (and_iff_left fun he => (Option.some.inj he).symm.trans heq).symm
  · rename_i hnone
    rw [hnone]
    exact (and_iff_left fun he => nomatch he).symm

@[simp] theorem mem_keys_depart : q ∈ (i.depart p).keys ↔ q ∈ i.keys ∧ q ≠ p :=
  mem_keys_remove

theorem active_depart : (i.depart p).active = some q ↔ i.active = some q ∧ q ≠ p := by
  unfold depart
  dsimp only
  split
  · rename_i hp
    rw [hp]
    exact ⟨fun h => (nomatch h), fun h => absurd (Option.some.inj h.1).symm h.2⟩
  · rename_i hp
    refine (and_iff_left_of_imp fun hq => ?_).symm
    rintro rfl
    exact hp hq

/-- `send_active` finds no sender exactly if the slot is free or its owner is
not on the map. -/
theorem sendActive_eq_none : i.sendActive = none ↔ ∀ p, i.active = some p → p ∉ i.keys := by
  unfold sendActive keys
  cases i.active with
  | none => exact iff_of_true rfl fun p h => nomatch h
  | some p =>
    rw [Option.bind_some, List.find?_eq_none]
    constructor
    · intro h q hpq hq
      cases hpq
      obtain ⟨e, he, rfl⟩ := List.mem_map.mp hq
      exact h e he (decide_eq_true rfl)
    · intro h e he hp
      refine h p rfl (List.mem_map.mpr ⟨e, he, of_decide_eq_true hp⟩)

end Inner

/-! ## What a history says -/

/-- The address of an accepted connection. -/
def Turn.accept? : Turn α → Option α
  | .accept peer => some peer
  | _ => none

/-- The addresses of the accepted connections, in order. -/
def acceptedPeers (h : List (Call α)) : List α :=
  h.filterMap fun k => k.input.accept?

/-- The peer a turn demotes: the owner of the slot, when another one is
promoted. -/
def Group.demotes? (config : RedundancyConfig) (s : Group α) (turn : Turn α) :
    Option α :=
  match s.section? config turn with
  | some (.promote peer) => s.inner.active.filter fun prev => prev ≠ peer
  | _ => none

/-- The peers demoted so far. -/
def demoted (config : RedundancyConfig) (h : List (Call α)) : List α :=
  h.filterMap fun k => k.before.demotes? config k.input

/-- **The turns that go wrong**: a peer is promoted whose sender is gone, or
the owner of the slot is refused. -/
def Group.stale (config : RedundancyConfig) (s : Group α) (turn : Turn α) : Prop :=
  match s.section? config turn with
  | some (.promote peer) => peer ∉ s.inner.keys
  | some (.refuse peer) => s.inner.active = some peer
  | _ => False

instance (config : RedundancyConfig) (s : Group α) (turn : Turn α) :
    Decidable (s.stale config turn) := by
  unfold Group.stale
  split <;> infer_instance

theorem acceptedPeers_snoc (config : RedundancyConfig) (h : List (Call α))
    (s : Group α) (turn : Turn α) :
    acceptedPeers (h ++ [call (Group.step config) s turn])
      = acceptedPeers h ++ turn.accept?.toList := by
  rw [acceptedPeers, List.filterMap_append, filterMap_singleton]
  rfl

theorem demoted_snoc (config : RedundancyConfig) (h : List (Call α)) (s : Group α) (turn : Turn α) :
    demoted config (h ++ [call (Group.step config) s turn])
      = demoted config h ++ (s.demotes? config turn).toList := by
  rw [demoted, List.filterMap_append, filterMap_singleton]
  rfl

/-! ## The accept loop -/

namespace Group

variable {config : RedundancyConfig} {s : Group α} {turn : Turn α} {p : α} {n : ℕ}

theorem admitting_onEvent (event : ServerEvent) (rest : List ServerEvent) (verdict : Bool) :
    (s.onEvent config n p event rest verdict).admitting = s.admitting := by
  unfold onEvent
  split
  · split <;> rfl
  · split <;> rfl
  · rfl
  · rfl

omit [DecidableEq α] in
/-- A sender is inserted by the accept loop, for the task that it spawns. -/
theorem enrol_of_insert (h : s.section? config turn = some (.insert p n)) :
    (∃ events, turn = .enrol events) ∧ s.admitting = some p ∧ n = s.tasks.length := by
  cases performs_of_section h with
  | insert events ha => exact ⟨⟨events, rfl⟩, ha, rfl⟩

/-- A sender is inserted for the connection that was to be admitted. -/
theorem admitting_of_insert (h : s.section? config turn = some (.insert p n)) :
    s.admitting = some p ∧ (s.step config turn).1.admitting = none ∧ turn.accept? = none := by
  obtain ⟨⟨events, rfl⟩, ha, -⟩ := enrol_of_insert h
  refine ⟨ha, ?_, rfl⟩
  unfold step
  rw [ha]

/-- **A connection that is to be admitted** was so before, or has just been
accepted. -/
theorem admitting_step (h : (s.step config turn).1.admitting = some p) : s.admitting = some p
      ∨ (turn.accept? = some p ∧ s.section? config turn = none) := by
  cases turn with
  | accept peer =>
    unfold step at h
    dsimp only at h
    split at h
    · exact Or.inl h
    · split at h
      · exact Or.inl h
      · exact Or.inr ⟨h, rfl⟩
  | enrol events =>
    unfold step at h
    dsimp only at h
    split at h
    · exact Or.inl h
    · cases h
  | queue | hangUp | leave =>
    unfold step at h
    dsimp only at h
    split at h <;> exact Or.inl h
  | drive m verdict =>
    unfold step at h
    dsimp only at h
    split at h
    · rw [admitting_onEvent] at h
      exact Or.inl h
    · exact Or.inl h
  | forward m taken =>
    unfold step at h
    dsimp only at h
    split at h
    · split at h <;> exact Or.inl h
    · exact Or.inl h

/-- The slot goes to a peer that is promoted. -/
theorem active_step (hp : (s.step config turn).1.inner.active = some p) :
    s.inner.active = some p ∨ s.section? config turn = some (.promote p) := by
  rw [inner_step] at hp
  cases hs : s.section? config turn with
  | none =>
    rw [hs] at hp
    exact Or.inl hp
  | some l =>
    rw [hs] at hp
    cases l with
    | insert | refuse => exact Or.inl hp
    | promote q =>
      have hq : some q = some p := Inner.active_promote.symm.trans hp
      rw [Option.some.inj hq]
      exact Or.inr rfl
    | depart q => exact Or.inl (Inner.active_depart.mp hp).1

/-! ## What keeps the slot -/

/-- **The owner of the slot is on the map, and a demoted peer is not.** -/
structure Held (config : RedundancyConfig) (h : List (Call α)) (s : Group α) :
    Prop where
  owner : ∀ p, s.inner.active = some p → p ∈ s.inner.keys
  known : ∀ p ∈ s.inner.keys, p ∈ acceptedPeers h
  /-- A connection that is to be admitted has a new address. -/
  fresh : ∀ p, s.admitting = some p → p ∈ acceptedPeers h ∧ p ∉ s.inner.keys ∧ p ∉ demoted config h
  gone : ∀ q ∈ demoted config h, q ∈ acceptedPeers h ∧ q ∉ s.inner.keys

theorem mem_acceptedPeers {h : List (Call α)} (hp : p ∈ acceptedPeers h) :
    p ∈ acceptedPeers (h ++ [call (step config) s turn]) := by
  rw [acceptedPeers_snoc]
  exact List.mem_append_left _ hp

/-- A turn without a lock section keeps it. -/
theorem Held.of_none {h : List (Call α)} (hd : s.Held config h) (hs : s.section? config turn = none)
    (hnew : (acceptedPeers (h ++ [call (step config) s turn])).Nodup) :
    (s.step config turn).1.Held config (h ++ [call (step config) s turn]) := by
  have hin : (s.step config turn).1.inner = s.inner := by
    rw [inner_step, hs]
    rfl
  have hdem : demoted config (h ++ [call (step config) s turn]) = demoted config h := by
    rw [demoted_snoc, demotes?, hs]
    exact List.append_nil _
  rw [acceptedPeers_snoc] at hnew
  refine ⟨?_, ?_, ?_, ?_⟩
  · rw [hin]
    exact hd.owner
  · rw [hin]
    exact fun q hq => mem_acceptedPeers (hd.known q hq)
  · intro q hq
    rw [hin, hdem]
    obtain hq | ⟨hq, -⟩ := admitting_step hq
    · obtain ⟨hacc, hkeys, hdemo⟩ := hd.fresh q hq
      exact ⟨mem_acceptedPeers hacc, hkeys, hdemo⟩
    · -- the address has not been accepted before
      rw [hq] at hnew
      have hnot : q ∉ acceptedPeers h := fun hmem =>
        List.disjoint_of_nodup_append hnew hmem (List.mem_singleton_self q)
      refine ⟨?_, fun hk => hnot (hd.known q hk), fun hk => hnot (hd.gone q hk).1⟩
      rw [acceptedPeers_snoc, hq]
      exact List.mem_append_right _ (List.mem_singleton_self q)
  · rw [hin, hdem]
    exact fun q hq => ⟨mem_acceptedPeers (hd.gone q hq).1, (hd.gone q hq).2⟩

/-- A lock section that only takes senders off the map keeps it, if it does
so for the owner of the slot and for the demoted peers. -/
theorem Held.of_section {h : List (Call α)} (hd : s.Held config h)
    {l : LockSection α} (hs : s.section? config turn = some l)
    (hsub : ∀ q ∈ (l.apply s.inner).keys, q ∈ s.inner.keys)
    (howner : ∀ p, (l.apply s.inner).active = some p → p ∈ (l.apply s.inner).keys)
    (hgone : ∀ q, s.demotes? config turn = some q → q ∈ s.inner.keys ∧ q ∉ (l.apply s.inner).keys) :
    (s.step config turn).1.Held config (h ++ [call (step config) s turn]) := by
  have hin : (s.step config turn).1.inner = l.apply s.inner := by
    rw [inner_step, hs]
    rfl
  refine ⟨?_, ?_, ?_, ?_⟩
  · rw [hin]
    exact howner
  · rw [hin]
    exact fun q hq => mem_acceptedPeers (hd.known q (hsub q hq))
  · intro q hq
    obtain hq | ⟨-, hnone⟩ := admitting_step hq
    · obtain ⟨hacc, hkeys, hdemo⟩ := hd.fresh q hq
      rw [hin, demoted_snoc]
      refine ⟨mem_acceptedPeers hacc, fun hk => hkeys (hsub q hk), fun hk => ?_⟩
      obtain hk | hk := List.mem_append.mp hk
      · exact hdemo hk
      · exact hkeys (hgone q (Option.mem_toList.mp hk)).1
    · rw [hs] at hnone
      cases hnone
  · intro q hq
    rw [hin]
    rw [demoted_snoc] at hq
    obtain hq | hq := List.mem_append.mp hq
    · obtain ⟨hacc, hkeys⟩ := hd.gone q hq
      exact ⟨mem_acceptedPeers hacc, fun hk => hkeys (hsub q hk)⟩
    · obtain ⟨hkeys, hnot⟩ := hgone q (Option.mem_toList.mp hq)
      exact ⟨mem_acceptedPeers (hd.known q hkeys), hnot⟩

/-- An admitted connection has a new address, so it keeps it. -/
theorem Held.of_insert {h : List (Call α)} (hd : s.Held config h)
    (hs : s.section? config turn = some (.insert p n)) :
    (s.step config turn).1.Held config (h ++ [call (step config) s turn]) := by
  obtain ⟨hadm, hnone, hacc⟩ := admitting_of_insert hs
  obtain ⟨hpacc, -, hpdem⟩ := hd.fresh p hadm
  have hin : (s.step config turn).1.inner = s.inner.insert p n := by
    rw [inner_step, hs]
    rfl
  have hdem : demoted config (h ++ [call (step config) s turn]) = demoted config h := by
    rw [demoted_snoc, demotes?, hs]
    exact List.append_nil _
  have hacc : acceptedPeers (h ++ [call (step config) s turn]) = acceptedPeers h := by
    rw [acceptedPeers_snoc, hacc]
    exact List.append_nil _
  refine ⟨?_, ?_, ?_, ?_⟩
  · rw [hin]
    exact fun q hq => Inner.mem_keys_insert.mpr (Or.inr (hd.owner q hq))
  · rw [hin, hacc]
    intro q hq
    obtain rfl | hq := Inner.mem_keys_insert.mp hq
    · exact hpacc
    · exact hd.known q hq
  · rw [hnone]
    exact fun q hq => nomatch hq
  · rw [hin, hdem, hacc]
    intro q hq
    obtain ⟨hqacc, hqkeys⟩ := hd.gone q hq
    refine ⟨hqacc, fun hk => ?_⟩
    obtain rfl | hk := Inner.mem_keys_insert.mp hk
    · exact hpdem hq
    · exact hqkeys hk

/-- **A turn that is not stale keeps the slot.** -/
theorem Held.step {h : List (Call α)} (hd : s.Held config h) (hst : ¬ s.stale config turn)
    (hnew : (acceptedPeers (h ++ [call (step config) s turn])).Nodup) :
    (s.step config turn).1.Held config (h ++ [call (step config) s turn]) := by
  unfold stale at hst
  cases hs : s.section? config turn with
  | none => exact hd.of_none hs hnew
  | some l =>
    rw [hs] at hst
    cases l with
    | insert p n => exact hd.of_insert hs
    | promote p =>
      -- Not stale: the connection that starts is on the map still.
      have hp : p ∈ s.inner.keys := not_not.mp hst
      refine hd.of_section hs ?_ ?_ ?_
      · exact fun q hq => (Inner.mem_keys_promote.mp hq).1
      · intro q hq
        have hpq : p = q := Option.some.inj (Inner.active_promote.symm.trans hq)
        exact hpq ▸ Inner.mem_keys_promote.mpr ⟨hp, fun _ => rfl⟩
      · intro q hq
        rw [demotes?, hs] at hq
        obtain ⟨hq, hne⟩ := Option.filter_eq_some_iff.mp hq
        refine ⟨hd.owner q hq, fun hk => ?_⟩
        exact of_decide_eq_true hne ((Inner.mem_keys_promote.mp hk).2 hq)
    | refuse p =>
      -- Not stale: the connection refused does not hold the slot.
      refine hd.of_section hs ?_ ?_ ?_
      · exact fun q hq => (Inner.mem_keys_remove.mp hq).1
      · intro q hq
        refine Inner.mem_keys_remove.mpr ⟨hd.owner q hq, ?_⟩
        rintro rfl
        exact hst hq
      · intro q hq
        rw [demotes?, hs] at hq
        cases hq
    | depart p =>
      refine hd.of_section hs ?_ ?_ ?_
      · exact fun q hq => (Inner.mem_keys_depart.mp hq).1
      · intro q hq
        obtain ⟨hq, hne⟩ := Inner.active_depart.mp hq
        exact Inner.mem_keys_depart.mpr ⟨hd.owner q hq, hne⟩
      · intro q hq
        rw [demotes?, hs] at hq
        cases hq

/-- **A stale turn leaves an owner that is not on the map.** -/
theorem exists_of_stale (hst : s.stale config turn) :
    ∃ p, (s.step config turn).1.inner.active = some p ∧ p ∉ (s.step config turn).1.inner.keys := by
  unfold stale at hst
  rw [inner_step]
  split at hst
  · rename_i p hs
    rw [hs]
    exact ⟨p, Inner.active_promote, fun hk => hst (Inner.mem_keys_promote.mp hk).1⟩
  · rename_i p hs
    rw [hs]
    exact ⟨p, hst, fun hk => (Inner.mem_keys_remove.mp hk).2 rfl⟩
  · exact hst.elim

end Group

/-! ## The slot over runs -/

/-- **The slot is in order**: its owner is on the map, so that `send_active`
finds a sender whenever there is an owner, and no demoted peer has it back.
(A peer evicts another one only by taking the slot.) -/
structure SlotSafe (config : RedundancyConfig) (h : List (Call α))
    (s : Group α) : Prop where
  owner : ∀ p, s.inner.active = some p → p ∈ s.inner.keys
  routed : s.inner.active ≠ none → s.inner.sendActive ≠ none
  final : ∀ q ∈ demoted config h, s.inner.active ≠ some q

/-- The slot is in order after every turn of a history. -/
def SafeThroughout (config : RedundancyConfig) : List (Call α) → Prop :=
  Throughout fun g k =>
    SlotSafe config (g ++ [k]) (k.before.step config k.input).1

theorem Group.Held.slotSafe {config : RedundancyConfig} {h : List (Call α)}
    {s : Group α} (hd : s.Held config h) : SlotSafe config h s where
  owner := hd.owner
  routed hne hnone := by
    obtain ⟨p, hp⟩ := Option.ne_none_iff_exists'.mp hne
    exact Inner.sendActive_eq_none.mp hnone p hp (hd.owner p hp)
  final q hq hact := (hd.gone q hq).2 (hd.owner q hact)

section Runs

variable {config : RedundancyConfig} {h : List (Call α)} {s : Group α}

/-- **A run without stale turns keeps the slot.** -/
theorem held_of_run (r : Run (Group.step config) Group.init h s) (hnew : (acceptedPeers h).Nodup)
    (hst : ∀ k ∈ h, ¬ k.before.stale config k.input) : s.Held config h := by
  induction r with
  | nil =>
    exact ⟨fun p hp => (nomatch hp), fun p hp => (nomatch hp),
      fun p hp => (nomatch hp), fun p hp => (nomatch hp)⟩
  | @snoc g d r turn ih =>
    have hnew' := hnew
    rw [acceptedPeers_snoc] at hnew'
    have hg := ih hnew'.of_append_left fun k hk => hst k (List.mem_append_left _ hk)
    exact hg.step (hst _ List.mem_concat_self) hnew

end Runs

/-- **The slot is in order throughout a run exactly if no turn is stale**:
no peer is promoted whose sender is gone, and no owner of the slot is
refused. -/
theorem slot_safe_iff {config : RedundancyConfig} {h : List (Call α)}
    {s : Group α} (r : Run (Group.step config) Group.init h s)
    (hnew : (acceptedPeers h).Nodup) :
    SafeThroughout config h ↔ ∀ k ∈ h, ¬ k.before.stale config k.input := by
  induction r with
  | nil => exact iff_of_true (throughout_nil _) fun k hk => (nomatch hk)
  | @snoc g d r turn ih =>
    have hnew' := hnew
    rw [acceptedPeers_snoc] at hnew'
    unfold SafeThroughout at ih ⊢
    rw [throughout_snoc, ih hnew'.of_append_left, List.forall_mem_append,
      List.forall_mem_singleton, call_before, call_input]
    refine and_congr_right fun hst => ⟨fun hsafe hbad => ?_, fun hok => ?_⟩
    · obtain ⟨p, hact, hkeys⟩ := Group.exists_of_stale hbad
      exact hkeys (hsafe.owner p hact)
    · exact ((held_of_run r hnew'.of_append_left hst).step hok hnew).slotSafe

/-- A clean fail-over: the second peer takes the slot, and the first one
leaves. -/
def failOver : List (Turn ℕ) :=
  [.accept 1, .enrol [], .accept 2, .enrol [], .queue 0 (.stateChanged .active), .drive 0 true,
   .queue 1 (.stateChanged .active), .drive 1 true,
   .hangUp 0, .leave 0]

/-- The slot is in order throughout it. -/
theorem slot_safe_failOver :
    let e := exec (Group.step .default) Group.init failOver
    e.2.inner = ⟨[(2, 1)], some 2⟩ ∧ demoted .default e.1 = [1]
      ∧ SafeThroughout .default e.1 := by
  intro e
  exact ⟨by decide, by decide,
    (slot_safe_iff (run_exec _ _ failOver) (by decide)).mpr (by decide)⟩

/-- The first peer stops and starts again, but its events are taken only
after the second one has been promoted. -/
def staleActive : List (Turn ℕ) :=
  [.accept 1, .enrol [], .accept 2, .enrol [], .queue 0 (.stateChanged .active), .drive 0 true,
   .queue 0 (.stateChanged .stopped), .queue 0 (.stateChanged .active),
   .queue 1 (.stateChanged .active), .drive 1 true,
   .drive 0 true, .drive 0 true]

/-- The demoted peer takes the slot back, and no peer is on the map. -/
theorem slot_lost_staleActive :
    ¬ ∀ (config : RedundancyConfig) (h : List (Call ℕ)) (s : Group ℕ),
      Run (Group.step config) Group.init h s → (acceptedPeers h).Nodup →
      SlotSafe config h s := by
  intro h
  have hsafe := h .default _ _ (run_exec _ _ staleActive) (by decide)
  exact absurd (hsafe.owner 1 (by decide)) (by decide)

end Redundancy
