import Iec60870.RedundancySlot

/-!
# The owner of the slot and data transfer

The slot is for the peer "that has completed STARTDT and is owning the data
link" (`Inner::active`), and a peer that has gone through STOPDT is in data
transfer no longer. What a task knows of its peer are the state changes it
takes from its queue, so the owner should be a peer whose last one is
`StateChanged(Active)`.

`drive_peer` acts on `StateChanged(Active)` and has one arm for every other
state, which does nothing. A peer that stops therefore keeps the slot:
`active_peer` still names it and `send_active` still queues for it. That is the
only way to lose the agreement between slot and state. `Group.outstays` is the
turn in which it happens, and `owner_transfers_iff` the equivalence over whole
runs, whatever the addresses of the connections are.
-/

namespace Redundancy

open Machine

variable {α : Type} [DecidableEq α]

/-- The state change that a turn takes from the queue of a task, and the peer of
the task. -/
def Group.takes? (s : Group α) : Turn α → Option (α × Frame104.State)
  | .drive n _ =>
    match s.tasks[n]? with
    | some ⟨peer, .stateChanged state :: _, .looping⟩ => some (peer, state)
    | _ => none
  | _ => none

/-- The state changes of a peer that its tasks have taken. -/
def stateChanges (h : List (Call α)) (p : α) : List Frame104.State :=
  ((h.filterMap fun k => k.before.takes? k.input).filter fun e => e.1 = p).map Prod.snd

/-- **The last state change of a peer that a task of it has taken.** -/
def lastState (h : List (Call α)) (p : α) : Option Frame104.State :=
  (stateChanges h p).getLast?

/-- **The owner of the slot is in data transfer**, as far as its task knows. -/
def OwnerTransfers (h : List (Call α)) (s : Group α) : Prop :=
  ∀ p, s.inner.active = some p → lastState h p = some .active

/-- It is so after every turn of a history. -/
def OwnerTransfersThroughout (config : RedundancyConfig) : List (Call α) → Prop :=
  Throughout fun g k => OwnerTransfers (g ++ [k]) (k.before.step config k.input).1

/-- **The turns that go wrong**: the task of the owner takes a change to a state
other than `Active`. -/
def Group.outstays (s : Group α) (turn : Turn α) : Prop :=
  ∃ e ∈ s.takes? turn, s.inner.active = some e.1 ∧ e.2 ≠ .active

instance (s : Group α) (turn : Turn α) : Decidable (s.outstays turn) :=
  match h : s.takes? turn with
  | none => isFalse fun ⟨_, he, _⟩ => by rw [h] at he; cases he
  | some e => decidable_of_iff (s.inner.active = some e.1 ∧ e.2 ≠ .active)
    ⟨fun hb => ⟨e, h, hb⟩, fun ⟨_, he, hb⟩ => by cases h.symm.trans he; exact hb⟩

section Turn

variable {config : RedundancyConfig} {h : List (Call α)} {s : Group α} {turn : Turn α}
  {p q : α} {state : Frame104.State}

theorem lastState_of_takes (ht : s.takes? turn = some (p, state)) :
    lastState (h ++ [call (Group.step config) s turn]) q
      = if p = q then some state else lastState h q := by
  unfold lastState stateChanges
  rw [List.filterMap_append, filterMap_singleton, call_before, call_input, ht,
    Option.toList_some, List.filter_append, List.map_append, List.filter_singleton]
  by_cases hpq : p = q
  · rw [if_pos hpq, decide_eq_true hpq, cond_true, List.map_singleton, List.getLast?_concat]
  · rw [if_neg hpq, decide_eq_false hpq, cond_false, List.map_nil, List.append_nil]

theorem lastState_of_takes_none (ht : s.takes? turn = none) :
    lastState (h ++ [call (Group.step config) s turn]) q = lastState h q := by
  unfold lastState stateChanges
  rw [List.filterMap_append, filterMap_singleton, call_before, call_input, ht,
    Option.toList_none, List.append_nil]

namespace Group

omit [DecidableEq α] in
/-- A state change asks for its own lock section. -/
theorem section_of_takes (config : RedundancyConfig)
    (ht : s.takes? turn = some (p, state)) : ∃ verdict, s.section? config turn
      = sectionOf config p verdict (.stateChanged state) := by
  cases turn with
  | drive n verdict =>
    unfold takes? at ht
    dsimp only at ht
    split at ht
    · rename_i htask
      cases ht
      refine ⟨verdict, ?_⟩
      rw [section?, htask]
    · cases ht
  | _ => cases ht

/-- Without one the slot goes to nobody. -/
theorem active_of_takes_none (ht : s.takes? turn = none)
    (hq : (s.step config turn).1.inner.active = some q) : s.inner.active = some q := by
  obtain hold | hs := active_step hq
  · exact hold
  · cases performs_of_section hs with
    | promote hn hr =>
      rw [takes?, hn] at ht
      cases ht

/-- A change to another state than `Active` leaves the slot alone. -/
theorem active_of_takes_ne (ht : s.takes? turn = some (p, state)) (hne : state ≠ .active) :
    (s.step config turn).1.inner.active = s.inner.active := by
  obtain ⟨verdict, hs⟩ := section_of_takes config ht
  rw [inner_step, hs]
  cases state with
  | active => exact absurd rfl hne
  | _ => rfl

/-- A change to `Active` gives the slot to its peer, or leaves it alone. -/
theorem active_of_takes_active (config : RedundancyConfig)
    (ht : s.takes? turn = some (p, .active)) :
    (s.step config turn).1.inner.active = some p
      ∨ (s.step config turn).1.inner.active = s.inner.active := by
  obtain ⟨verdict, hs⟩ := section_of_takes config ht
  rw [inner_step, hs, sectionOf]
  split
  · exact Or.inr rfl
  · exact Or.inl Inner.active_promote

end Group

/-- **A turn keeps the owner in data transfer**, unless it outstays. -/
theorem OwnerTransfers.step (ho : OwnerTransfers h s) (hok : ¬ s.outstays turn) :
    OwnerTransfers (h ++ [call (Group.step config) s turn]) (s.step config turn).1 := by
  intro q hq
  cases ht : s.takes? turn with
  | none =>
    rw [lastState_of_takes_none ht]
    exact ho q (Group.active_of_takes_none ht hq)
  | some e =>
    obtain ⟨p, state⟩ := e
    rw [lastState_of_takes ht]
    by_cases hstate : state = .active
    · subst hstate
      by_cases hpq : p = q
      · rw [if_pos hpq]
      · rw [if_neg hpq]
        obtain hnew | hold := Group.active_of_takes_active config ht
        · exact absurd (Option.some.inj (hnew.symm.trans hq)) hpq
        · exact ho q (hold.symm.trans hq)
    · rw [Group.active_of_takes_ne ht hstate] at hq
      rw [if_neg]
      · exact ho q hq
      · rintro rfl
        exact hok ⟨_, ht, hq, hstate⟩

/-- **A turn that outstays leaves an owner that is not.** -/
theorem not_ownerTransfers_of_outstays (hout : s.outstays turn) :
    ¬ OwnerTransfers (h ++ [call (Group.step config) s turn]) (s.step config turn).1 := by
  obtain ⟨⟨p, state⟩, ht, hact, hne⟩ := hout
  intro ho
  have hlast := ho p ((Group.active_of_takes_ne ht hne).trans hact)
  rw [lastState_of_takes ht, if_pos rfl] at hlast
  exact hne (Option.some.inj hlast)

end Turn

/-- A run without such turns keeps the owner in data transfer. -/
theorem ownerTransfers_of_run {config : RedundancyConfig} {h : List (Call α)}
    {s : Group α} (r : Run (Group.step config) Group.init h s)
    (hok : ∀ k ∈ h, ¬ k.before.outstays k.input) : OwnerTransfers h s := by
  induction r with
  | nil => exact fun p hp => nomatch hp
  | @snoc g d r turn ih =>
    exact (ih fun k hk => hok k (List.mem_append_left _ hk)).step
      (hok _ List.mem_concat_self)

/-- **The owner is in data transfer throughout a run exactly if no task takes a
change of its peer to another state while the peer owns the slot.** -/
theorem owner_transfers_iff {config : RedundancyConfig} {h : List (Call α)}
    {s : Group α} (r : Run (Group.step config) Group.init h s) :
    OwnerTransfersThroughout config h ↔ ∀ k ∈ h, ¬ k.before.outstays k.input := by
  induction r with
  | nil => exact iff_of_true (throughout_nil _) fun k hk => nomatch hk
  | @snoc g d r turn ih =>
    unfold OwnerTransfersThroughout at ih ⊢
    rw [throughout_snoc, ih, List.forall_mem_append, List.forall_mem_singleton,
      call_before, call_input]
    refine and_congr_right fun hok => ⟨fun ho hout => ?_, fun hno => ?_⟩
    · exact not_ownerTransfers_of_outstays hout ho
    · exact (ownerTransfers_of_run r hok).step hno

/-- In the clean fail-over no peer stops, and the owner is in data transfer
throughout. -/
theorem owner_transfers_failOver :
    let e := exec (Group.step .default) Group.init failOver
    lastState e.1 2 = some .active ∧ OwnerTransfersThroughout .default e.1 := by
  intro e
  exact ⟨by decide, (owner_transfers_iff (run_exec _ _ failOver)).mpr (by decide)⟩

/-- A peer starts and stops data transfer. -/
def startStop : List (Turn ℕ) :=
  [.accept 1, .enrol [], .queue 0 (.stateChanged .active), .drive 0 true,
   .queue 0 (.stateChanged .stopped), .drive 0 true]

/-- **A stopped peer keeps the slot**, and `send_active` still finds its sender.
The state changes are those a connection reports that receives STARTDT_act and
STOPDT_act. -/
theorem owner_stopped_startStop :
    let c := exec Frame104.Connection.step (Frame104.Connection.new .server .default)
      [(.apdu (.u .startDtAct), 0), (.apdu (.u .stopDtAct), 1)]
    let e := exec (Group.step .default) Group.init startStop
    c.1.map (fun k => k.actions)
        = [[.sendApdu (.u .startDtCon), .stateChanged .active],
          [.sendApdu (.u .stopDtCon), .stateChanged .stopped]]
      ∧ e.2.inner.active = some 1 ∧ lastState e.1 1 = some .stopped
      ∧ e.2.inner.sendActive = some (1, 0) ∧ ¬ OwnerTransfers e.1 e.2 := by
  intro c e
  have hlast : lastState e.1 1 = some .stopped := by decide
  refine ⟨by decide, by decide, hlast, by decide, ?_⟩
  intro ho
  have hactive := ho 1 (by decide)
  rw [hlast] at hactive
  cases hactive

end Redundancy
