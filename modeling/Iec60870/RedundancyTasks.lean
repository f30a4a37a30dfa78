import Iec60870.RedundancySlot

/-!
# The task of a connection

`Group.step` is written turn by turn. Here it is read task by task: `Moves` lists
what a turn can do to one task, a constructor for each arm of `drive_peer` and of
the code around its loop, and `moves_step` says that there is nothing else. Whatever
holds of the tasks of a run is then a case analysis over the moves: a task keeps its
peer, it does not come back once it has left, and it hands an ASDU to the application
only after it has taken it from its queue while its peer had the slot.
-/

namespace Redundancy

open Machine

variable {α : Type}

/-- The task whose code a turn runs. -/
def Turn.task? : Turn α → Option ℕ
  | .drive n _ | .forward n _ | .hangUp n | .leave n => some n
  | .accept _ | .enrol _ | .queue _ _ => none

/-- **What a turn does to the task with the number `n`.** -/
inductive Moves (config : RedundancyConfig) (i : Inner α) (n : ℕ) :
    Turn α → Task α → Task α → Prop
  /-- The turn is about something else. -/
  | rests (turn : Turn α) (task : Task α) : Moves config i n turn task task
  | queued (event : ServerEvent) (task : Task α) :
      Moves config i n (.queue n event) task { task with events := task.events ++ [event] }
  | refused {verdict : Bool} (hr : Group.refuses config verdict = true) (peer : α)
      (rest : List ServerEvent) :
      Moves config i n (.drive n verdict) ⟨peer, .stateChanged .active :: rest, .looping⟩
        ⟨peer, rest, .leaving⟩
  /-- The event is dealt with, and the loop goes on. -/
  | taken (verdict : Bool) (peer : α) (event : ServerEvent) (rest : List ServerEvent) :
      Moves config i n (.drive n verdict) ⟨peer, event :: rest, .looping⟩ ⟨peer, rest, .looping⟩
  | active (verdict : Bool) (peer : α) (bytes : Bytes) (rest : List ServerEvent)
      (hact : i.active = some peer) :
      Moves config i n (.drive n verdict) ⟨peer, .asdu bytes :: rest, .looping⟩
        ⟨peer, rest, .forwarding bytes⟩
  | closed (verdict : Bool) (peer : α) (reason : Option Frame104.DisconnectReason)
      (rest : List ServerEvent) :
      Moves config i n (.drive n verdict) ⟨peer, .closed reason :: rest, .looping⟩
        ⟨peer, rest, .leaving⟩
  | handed (peer : α) (bytes : Bytes) (events : List ServerEvent) :
      Moves config i n (.forward n true) ⟨peer, events, .forwarding bytes⟩ ⟨peer, events, .looping⟩
  | dropped (peer : α) (bytes : Bytes) (events : List ServerEvent) :
      Moves config i n (.forward n false) ⟨peer, events, .forwarding bytes⟩ ⟨peer, events, .leaving⟩
  | hungUp (peer : α) : Moves config i n (.hangUp n) ⟨peer, [], .looping⟩ ⟨peer, [], .leaving⟩
  | left (peer : α) (events : List ServerEvent) :
      Moves config i n (.leave n) ⟨peer, events, .leaving⟩ ⟨peer, events, .left⟩

namespace Moves

variable {config : RedundancyConfig} {i : Inner α} {n : ℕ} {turn : Turn α}
  {old new : Task α}

/-- A task keeps its peer. -/
theorem peer_eq (h : Moves config i n turn old new) : new.peer = old.peer := by
  cases h <;> rfl

/-- A task that has left does not move. -/
theorem phase_of_left (h : Moves config i n turn old new) (hleft : old.phase = .left) :
    new.phase = .left := by
  cases h with
  | rests | queued => exact hleft
  | left peer events => rfl
  | _ => cases hleft

/-- **A task that hands over an ASDU** did so before, or has just taken it from its
queue while its peer had the slot. -/
theorem of_forwarding (h : Moves config i n turn old new) {bytes : Bytes}
    (hphase : new.phase = .forwarding bytes) : old.phase = .forwarding bytes
      ∨ ∃ verdict rest, turn = .drive n verdict
        ∧ old = ⟨new.peer, .asdu bytes :: rest, .looping⟩ ∧ i.active = some new.peer := by
  cases h with
  | rests | queued => exact Or.inl hphase
  | active verdict peer taken rest hact =>
    cases hphase
    exact Or.inr ⟨verdict, rest, rfl, rfl, hact⟩
  | _ => cases hphase

end Moves

namespace Group

variable {config : RedundancyConfig} {s : Group α} {turn : Turn α} {m n : ℕ}
  {old new task : Task α}

/-- A task that is replaced is one of the tasks, and the others stay. -/
theorem of_setTask (hn : s.tasks[n]? = some old) (h : (s.setTask n task).tasks[m]? = some new) :
    (m = n ∧ new = task) ∨ s.tasks[m]? = some new := by
  have hlt : n < s.tasks.length := (List.getElem?_eq_some_iff.mp hn).1
  unfold setTask at h
  by_cases hmn : m = n
  · subst hmn
    rw [List.getElem?_set_self hlt] at h
    exact Or.inl ⟨rfl, (Option.some.inj h).symm⟩
  · rw [List.getElem?_set_ne (Ne.symm hmn)] at h
    exact Or.inr h

/-- A turn that replaces a task moves it. -/
theorem moves_of_setTask (hn : s.tasks[n]? = some old)
    (hmoves : Moves config s.inner n turn old task)
    (h : (s.setTask n task).tasks[m]? = some new) :
    ∃ before, s.tasks[m]? = some before ∧ Moves config s.inner m turn before new := by
  obtain ⟨rfl, rfl⟩ | hm := of_setTask hn h
  · exact ⟨old, hn, hmoves⟩
  · exact ⟨new, hm, .rests turn new⟩

variable [DecidableEq α]

/-- **The body of the loop** moves the task that takes the event. -/
theorem moves_onEvent {peer : α} {event : ServerEvent} {rest : List ServerEvent}
    {verdict : Bool} (hn : s.tasks[n]? = some ⟨peer, event :: rest, .looping⟩)
    (h : (s.onEvent config n peer event rest verdict).tasks[m]? = some new) :
    ∃ before, s.tasks[m]? = some before ∧ Moves config s.inner m (.drive n verdict) before new := by
  cases event with
  | asdu bytes =>
    unfold onEvent at h
    dsimp only at h
    split at h
    · rename_i hact
      exact moves_of_setTask hn (.active verdict peer bytes rest hact) h
    · exact moves_of_setTask hn (.taken verdict peer _ rest) h
  | closed reason => exact moves_of_setTask hn (.closed verdict peer reason rest) h
  | stateChanged state =>
    cases state with
    | active =>
      unfold onEvent at h
      dsimp only at h
      split at h
      · rename_i hrefused
        exact moves_of_setTask hn (.refused hrefused peer rest) h
      · exact moves_of_setTask hn (.taken verdict peer _ rest) h
    | _ => exact moves_of_setTask hn (.taken verdict peer _ rest) h

/-- The accept loop adds a task for the connection that it admits. -/
theorem moves_enrol {events : List ServerEvent}
    (h : (s.step config (.enrol events)).1.tasks[m]? = some new) :
    s.tasks[m]? = some new
      ∨ (m = s.tasks.length ∧ s.section? config (.enrol events) = some (.insert new.peer m)
        ∧ new.phase = .looping) := by
  unfold step at h
  cases hadm : s.admitting with
  | none =>
    rw [hadm] at h
    exact Or.inl h
  | some peer =>
    rw [hadm] at h
    dsimp only at h
    rw [List.getElem?_append] at h
    split at h
    · exact Or.inl h
    · rename_i hlen
      obtain ⟨hzero, hnew⟩ := Option.ite_none_right_eq_some.mp
        (List.getElem?_singleton.symm.trans h)
      obtain rfl := Option.some.inj hnew
      have hm : m = s.tasks.length := by omega
      refine Or.inr ⟨hm, ?_, rfl⟩
      rw [section?, hadm, hm]
      rfl

/-- **A task after a turn** is a task before it that has moved, or the task of the
connection that the turn has admitted. -/
theorem moves_step (h : (s.step config turn).1.tasks[m]? = some new) :
    (∃ before, s.tasks[m]? = some before ∧ Moves config s.inner m turn before new)
      ∨ (m = s.tasks.length ∧ s.section? config turn = some (.insert new.peer m)
        ∧ new.phase = .looping) := by
  cases turn with
  | accept peer =>
    refine Or.inl ⟨new, ?_, .rests _ _⟩
    unfold step at h
    dsimp only at h
    split at h
    · exact h
    · split at h <;> exact h
  | enrol events =>
    obtain hold | hnew := moves_enrol h
    · exact Or.inl ⟨new, hold, .rests _ _⟩
    · exact Or.inr hnew
  | queue n event =>
    unfold step at h
    dsimp only at h
    split at h
    · rename_i task hn
      exact Or.inl (moves_of_setTask hn (.queued event task) h)
    · exact Or.inl ⟨new, h, .rests _ _⟩
  | drive n verdict =>
    unfold step at h
    dsimp only at h
    split at h
    · rename_i hn
      exact Or.inl (moves_onEvent hn h)
    · exact Or.inl ⟨new, h, .rests _ _⟩
  | forward n taken =>
    unfold step at h
    dsimp only at h
    split at h
    · rename_i peer events bytes hn
      cases taken with
      | true => exact Or.inl (moves_of_setTask hn (.handed peer bytes events) h)
      | false => exact Or.inl (moves_of_setTask hn (.dropped peer bytes events) h)
    · exact Or.inl ⟨new, h, .rests _ _⟩
  | hangUp n =>
    unfold step at h
    dsimp only at h
    split at h
    · rename_i peer hn
      exact Or.inl (moves_of_setTask hn (.hungUp peer) h)
    · exact Or.inl ⟨new, h, .rests _ _⟩
  | leave n =>
    unfold step at h
    dsimp only at h
    split at h
    · rename_i peer events hn
      exact Or.inl (moves_of_setTask hn (.left peer events) h)
    · exact Or.inl ⟨new, h, .rests _ _⟩

theorem length_onEvent (n : ℕ) (peer : α) (event : ServerEvent) (rest : List ServerEvent)
    (verdict : Bool) :
    (s.onEvent config n peer event rest verdict).tasks.length = s.tasks.length := by
  unfold onEvent
  split
  · split <;> exact List.length_set
  · split <;> exact List.length_set
  · exact List.length_set
  · exact List.length_set

/-- No task is ever taken off the list. -/
theorem length_le_step (turn : Turn α) : s.tasks.length ≤ (s.step config turn).1.tasks.length := by
  cases turn with
  | accept peer =>
    unfold step
    dsimp only
    split
    · exact le_rfl
    · split <;> exact le_rfl
  | enrol events =>
    unfold step
    dsimp only
    split
    · exact le_rfl
    · rw [List.length_append]
      exact Nat.le_add_right _ _
  | drive n verdict =>
    unfold step
    dsimp only
    split
    · exact (length_onEvent _ _ _ _ _).ge
    · exact le_rfl
  | forward n taken =>
    unfold step
    dsimp only
    split
    · split <;> exact List.length_set.ge
    · exact le_rfl
  | _ =>
    unfold step
    dsimp only
    split
    · exact List.length_set.ge
    · exact le_rfl

/-- A task before a turn is a task after it. -/
theorem exists_moved (turn : Turn α) (h : s.tasks[m]? = some old) :
    ∃ new, (s.step config turn).1.tasks[m]? = some new ∧ Moves config s.inner m turn old new := by
  have hlt : m < s.tasks.length := (List.getElem?_eq_some_iff.mp h).1
  have hlen : m < (s.step config turn).1.tasks.length := hlt.trans_le (length_le_step turn)
  have hnew := List.getElem?_eq_getElem hlen
  obtain ⟨before, hbefore, hmoves⟩ | ⟨hm, -, -⟩ := moves_step hnew
  · obtain rfl := Option.some.inj (hbefore.symm.trans h)
    exact ⟨_, hnew, hmoves⟩
  · exact absurd hm hlt.ne

/-- **What reaches the application** is the ASDU that a task hands over, with the
address of its peer. -/
theorem of_mem_step {p : α} {bytes : Bytes} (h : (p, bytes) ∈ (s.step config turn).2) :
    ∃ n events, turn = .forward n true ∧ s.tasks[n]? = some ⟨p, events, .forwarding bytes⟩ := by
  cases turn with
  | forward n taken =>
    unfold step at h
    dsimp only at h
    split at h
    · rename_i peer events bytes' hn
      cases taken with
      | true =>
        cases List.mem_singleton.mp h
        exact ⟨n, events, rfl, hn⟩
      | false => exact absurd h List.not_mem_nil
    · exact absurd h List.not_mem_nil
  | accept peer =>
    unfold step at h
    dsimp only at h
    split at h
    · exact absurd h List.not_mem_nil
    · split at h <;> exact absurd h List.not_mem_nil
  | _ =>
    unfold step at h
    dsimp only at h
    split at h <;> exact absurd h List.not_mem_nil

end Group

/-! ## Promotions -/

/-- The task that is given the slot for its peer in a turn, and the peer. -/
def Group.promotes? (config : RedundancyConfig) (s : Group α) (turn : Turn α) :
    Option (ℕ × α) :=
  match turn.task?, s.section? config turn with
  | some n, some (.promote peer) => some (n, peer)
  | _, _ => none

/-- **The promotions so far**: the numbers of the connections, and their peers. -/
def promotions (config : RedundancyConfig) (h : List (Call α)) : List (ℕ × α) :=
  h.filterMap fun k => k.before.promotes? config k.input

section Promotions

variable {config : RedundancyConfig} {h : List (Call α)} {s : Group α} {turn : Turn α}
  {n : ℕ} {p : α}

theorem promotions_concat [DecidableEq α] :
    promotions config (h ++ [call (Group.step config) s turn])
      = promotions config h ++ (s.promotes? config turn).toList := by
  rw [promotions, List.filterMap_append, filterMap_singleton]
  rfl

/-- Only a task that takes `StateChanged(Active)`, unrefused, promotes its peer. -/
theorem Group.of_promote (hs : s.section? config turn = some (.promote p)) :
    ∃ n verdict task, turn = .drive n verdict ∧ s.tasks[n]? = some task ∧ task.peer = p
      ∧ refuses config verdict = false := by
  cases performs_of_section hs with
  | @promote n verdict peer rest hn hr => exact ⟨n, verdict, _, rfl, hn, rfl, hr⟩

/-- A promotion is one of the history. -/
theorem mem_promotions_of_promote [DecidableEq α]
    (hs : s.section? config turn = some (.promote p)) :
    ∃ n, (n, p) ∈ promotions config (h ++ [call (Group.step config) s turn]) := by
  obtain ⟨n, verdict, task, rfl, -, -, -⟩ := Group.of_promote hs
  have hpromotes : s.promotes? config (.drive n verdict) = some (n, p) := by
    rw [Group.promotes?, hs]
    rfl
  refine ⟨n, ?_⟩
  rw [promotions_concat, hpromotes]
  exact List.mem_concat_self

theorem mem_promotions_concat [DecidableEq α] (hm : (n, p) ∈ promotions config h) :
    (n, p) ∈ promotions config (h ++ [call (Group.step config) s turn]) := by
  rw [promotions_concat]
  exact List.mem_append_left _ hm

end Promotions

end Redundancy
