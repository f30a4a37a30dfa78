import Iec60870.RedundancyTasks

/-!
# A peer that reconnects

A peer may come back from the address it had while the task of its previous
connection is still taking events. The map of senders is then that of the new
connection: `insert` has replaced the sender. The old task goes on, and in the end
it cleans up: "Remove its sender and clear the active slot if we were holding it".
What it removes should be its own, and the new connection should be spared: its
sender stays on the map, and the slot is not cleared once its
`StateChanged(Active)` has been taken (`Spares`).

But a task knows its peer by the address only. What it removes is whatever sender
the address has, and the slot it clears is that of the address. So the clean-up of
the old task, or a refusal by the filter, takes the new connection's sender off the
map, which closes the connection, and the clean-up takes the slot from it.
`Group.overtaken` is the condition on the state before a turn under which that
happens, and `spares_iff` says that nothing else harms the new connection. If no
connection is admitted before the tasks of its address have left, no turn is
overtaken (`spares_of_sequential`); nothing in the source sees to that.
-/

namespace Redundancy

open Machine

variable {α : Type} [DecidableEq α]

/-! ## What is to hold -/

/-- **A turn of a task spares the newer connections from its address**: their sender
stays on the map, and when one of them has been promoted, the slot is not cleared. -/
structure Spares (config : RedundancyConfig) (h : List (Call α)) (s : Group α)
    (turn : Turn α) (n : ℕ) (p : α) : Prop where
  entry : ∀ m, n < m → (p, m) ∈ s.inner.peers → (p, m) ∈ (s.step config turn).1.inner.peers
  slot : (∃ m, n < m ∧ (m, p) ∈ promotions config h) → s.inner.active ≠ none →
    (s.step config turn).1.inner.active ≠ none

/-- Every turn of a task in a history does. -/
def SparesThroughout (config : RedundancyConfig) : List (Call α) → Prop :=
  Throughout fun h k => ∀ n task, k.input.task? = some n → k.before.tasks[n]? = some task →
    Spares config h k.before k.input n task.peer

/-! ## When it fails -/

/-- The sender on the map under an address is that of a newer connection. -/
def Group.replaced (s : Group α) (n : ℕ) (p : α) : Prop :=
  ∃ e ∈ s.inner.peers, e.1 = p ∧ n < e.2

/-- A newer connection from an address has been promoted. -/
def promotedSince (config : RedundancyConfig) (h : List (Call α)) (n : ℕ) (p : α) : Prop :=
  ∃ e ∈ promotions config h, e.2 = p ∧ n < e.1

/-- A lock section of a task harms a newer connection: one that takes the sender off
the map if it is not the task's own, and a clean-up also if it clears the slot after
a newer connection has been promoted. -/
def LockSection.harms (config : RedundancyConfig) (h : List (Call α)) (s : Group α) (n : ℕ) :
    LockSection α → Prop
  | .refuse peer => s.replaced n peer
  | .depart peer =>
    s.replaced n peer ∨ (s.inner.active = some peer ∧ promotedSince config h n peer)
  | .insert _ _ | .promote _ => False

/-- **The turns that go wrong**: a task is refused or cleans up when a newer
connection has its place on the map, or it cleans up when its address has the slot
since a newer connection has been promoted. -/
def Group.overtaken (config : RedundancyConfig) (h : List (Call α)) (s : Group α)
    (turn : Turn α) : Prop :=
  ∃ n ∈ turn.task?, ∃ l ∈ s.section? config turn, l.harms config h s n

instance (s : Group α) (n : ℕ) (p : α) : Decidable (s.replaced n p) :=
  inferInstanceAs (Decidable (∃ e ∈ s.inner.peers, e.1 = p ∧ n < e.2))

instance (config : RedundancyConfig) (h : List (Call α)) (n : ℕ) (p : α) :
    Decidable (promotedSince config h n p) :=
  inferInstanceAs (Decidable (∃ e ∈ promotions config h, e.2 = p ∧ n < e.1))

instance (config : RedundancyConfig) (h : List (Call α)) (s : Group α) (n : ℕ) :
    (l : LockSection α) → Decidable (l.harms config h s n)
  | .refuse peer => inferInstanceAs (Decidable (s.replaced n peer))
  | .depart peer => inferInstanceAs (Decidable (s.replaced n peer
      ∨ (s.inner.active = some peer ∧ promotedSince config h n peer)))
  | .insert _ _ | .promote _ => inferInstanceAs (Decidable False)

instance (config : RedundancyConfig) (h : List (Call α)) (s : Group α) (turn : Turn α) :
    Decidable (s.overtaken config h turn) :=
  inferInstanceAs (Decidable (∃ n ∈ turn.task?, ∃ l ∈ s.section? config turn, l.harms config h s n))

/-- A connection is admitted before the tasks of its address have left. -/
def Group.reopens (config : RedundancyConfig) (s : Group α) (turn : Turn α) : Prop :=
  ∃ p m, s.section? config turn = some (.insert p m)
    ∧ ∃ task ∈ s.tasks, task.peer = p ∧ task.phase ≠ .left

/-! ## One turn -/

section Turn

variable {config : RedundancyConfig} {h : List (Call α)} {s : Group α} {turn : Turn α}
  {n : ℕ} {p : α} {task : Task α}

omit [DecidableEq α] in
/-- **The lock sections of a task** are about its peer, and it has not left. -/
theorem Group.section_of_task {l : LockSection α} (hn : turn.task? = some n)
    (hs : s.section? config turn = some l) :
    ∃ task, s.tasks[n]? = some task ∧ task.phase ≠ .left
      ∧ (l = .promote task.peer ∨ l = .refuse task.peer ∨ l = .depart task.peer) := by
  cases performs_of_section hs with
  | insert events ha => cases hn
  | promote ht hr =>
    obtain rfl := Option.some.inj hn
    exact ⟨_, ht, by simp, Or.inl rfl⟩
  | refuse ht hr =>
    obtain rfl := Option.some.inj hn
    exact ⟨_, ht, by simp, Or.inr (Or.inl rfl)⟩
  | depart ht =>
    obtain rfl := Option.some.inj hn
    exact ⟨_, ht, by simp, Or.inr (Or.inr rfl)⟩

/-- The address that a lock section is about. -/
def LockSection.peer : LockSection α → α
  | .insert peer _ | .promote peer | .refuse peer | .depart peer => peer

omit [DecidableEq α] in
theorem Group.task_of_section {l : LockSection α} (hn : turn.task? = some n)
    (hs : s.section? config turn = some l) :
    ∃ task, s.tasks[n]? = some task ∧ task.phase ≠ .left ∧ task.peer = l.peer := by
  obtain ⟨task, ht, hphase, hl⟩ := section_of_task hn hs
  refine ⟨task, ht, hphase, ?_⟩
  obtain rfl | rfl | rfl := hl <;> rfl

namespace Inner

variable {i : Inner α} {q : α} {m : ℕ}

theorem mem_peers_remove : (q, m) ∈ (i.remove p).peers ↔ (q, m) ∈ i.peers ∧ q ≠ p := by
  rw [remove, List.mem_filter, decide_eq_true_iff]

/-- A promotion leaves the sender of its peer on the map. -/
theorem mem_peers_promote_self (hm : (p, m) ∈ i.peers) : (p, m) ∈ (i.promote p).peers := by
  unfold promote
  split
  · split
    · rename_i hne
      exact mem_peers_remove.mpr ⟨hm, hne.symm⟩
    · exact hm
  · exact hm

end Inner

/-- **A turn spares the newer connections, unless it is overtaken.** -/
theorem spares_of_not_overtaken (hn : turn.task? = some n) (ht : s.tasks[n]? = some task)
    (hok : ¬ s.overtaken config h turn) : Spares config h s turn n task.peer := by
  cases hs : s.section? config turn with
  | none =>
    have hinner : (s.step config turn).1.inner = s.inner := by
      rw [Group.inner_step, hs]
      rfl
    refine ⟨?_, ?_⟩
    · rw [hinner]
      exact fun m _ hm => hm
    · rw [hinner]
      exact fun _ hact => hact
  | some l =>
    have hinner : (s.step config turn).1.inner = l.apply s.inner := by
      rw [Group.inner_step, hs]
      rfl
    obtain ⟨task', ht', -, hl⟩ := Group.section_of_task hn hs
    obtain rfl := Option.some.inj (ht.symm.trans ht')
    have hharmless : ¬ l.harms config h s n := fun hharms => hok ⟨n, hn, l, hs, hharms⟩
    obtain rfl | rfl | rfl := hl
    · refine ⟨?_, ?_⟩
      · rw [hinner]
        exact fun m _ hm => Inner.mem_peers_promote_self hm
      · rw [hinner]
        intro _ _ hnone
        cases Inner.active_promote.symm.trans hnone
    · refine ⟨?_, ?_⟩
      · exact fun m hlt hm => absurd ⟨_, hm, rfl, hlt⟩ hharmless
      · rw [hinner]
        exact fun _ hact => hact
    · obtain ⟨hentry, hslot⟩ := not_or.mp hharmless
      refine ⟨?_, ?_⟩
      · exact fun m hlt hm => absurd ⟨_, hm, rfl, hlt⟩ hentry
      · rintro ⟨m, hlt, hm⟩ hact
        have hother : s.inner.active ≠ some task.peer :=
          fun heq => hslot ⟨heq, _, hm, rfl, hlt⟩
        rw [hinner]
        show (if s.inner.active = some task.peer then none else s.inner.active) ≠ none
        rw [if_neg hother]
        exact hact

/-- **A turn that is overtaken harms a newer connection.** -/
theorem not_spares_of_overtaken (hbad : s.overtaken config h turn) :
    ∃ n task, turn.task? = some n ∧ s.tasks[n]? = some task
      ∧ ¬ Spares config h s turn n task.peer := by
  obtain ⟨n, hn, l, hs, hharms⟩ := hbad
  obtain ⟨task, ht, -, hpeer⟩ := Group.task_of_section hn hs
  refine ⟨n, task, hn, ht, fun hspares => ?_⟩
  -- a sender that is not the task's own is taken off the map
  have hentry : (s.step config turn).1.inner.peers = (s.inner.remove task.peer).peers →
      ¬ s.replaced n task.peer := by
    rintro hpeers ⟨⟨q, m⟩, hm, rfl, hlt⟩
    have hstays := hspares.entry m hlt hm
    rw [hpeers] at hstays
    exact (Inner.mem_peers_remove.mp hstays).2 rfl
  rw [Group.inner_step, hs] at hentry
  cases l with
  | insert | promote => exact hharms
  | refuse peer =>
    obtain rfl : task.peer = peer := hpeer
    exact hentry rfl hharms
  | depart peer =>
    obtain rfl : task.peer = peer := hpeer
    obtain hreplaced | ⟨hact, ⟨m, q⟩, hm, rfl, hlt⟩ := hharms
    · exact hentry rfl hreplaced
    · refine hspares.slot ⟨m, hlt, hm⟩ (by rw [hact]; simp) ?_
      rw [Group.inner_step, hs]
      exact if_pos hact

/-! ## Connections that follow each other -/

/-- A sender comes onto the map when its connection is admitted. -/
theorem Group.mem_peers_step {e : α × ℕ} (he : e ∈ (s.step config turn).1.inner.peers) :
    e ∈ s.inner.peers ∨ s.section? config turn = some (.insert e.1 e.2) := by
  rw [inner_step] at he
  cases hs : s.section? config turn with
  | none =>
    rw [hs] at he
    exact Or.inl he
  | some l =>
    rw [hs] at he
    cases l with
    | insert q m =>
      obtain rfl | he := List.mem_cons.mp he
      · exact Or.inr rfl
      · exact Or.inl (List.mem_filter.mp he).1
    | promote q =>
      left
      change e ∈ (s.inner.promote q).peers at he
      unfold Inner.promote at he
      split at he
      · split at he
        · exact (List.mem_filter.mp he).1
        · exact he
      · exact he
    | refuse | depart => exact Or.inl (List.mem_filter.mp he).1

/-- The connection that is admitted gets the next task. -/
theorem Group.task_of_insert (hs : s.section? config turn = some (.insert p n)) :
    ∃ task, (s.step config turn).1.tasks[n]? = some task ∧ task.peer = p := by
  obtain ⟨⟨events, rfl⟩, hadm, rfl⟩ := enrol_of_insert hs
  refine ⟨⟨p, events, .looping⟩, ?_, rfl⟩
  unfold step
  rw [hadm]
  exact List.getElem?_concat_length

/-- **The senders and the promotions are those of tasks, and of two tasks of one
address the older one has left.** -/
structure Group.Sequential (config : RedundancyConfig) (h : List (Call α)) (s : Group α) :
    Prop where
  mapped : ∀ e ∈ s.inner.peers, ∃ task, s.tasks[e.2]? = some task ∧ task.peer = e.1
  promoted : ∀ e ∈ promotions config h, ∃ task, s.tasks[e.1]? = some task ∧ task.peer = e.2
  left : ∀ (m n : ℕ) (new old : Task α), n < m → s.tasks[m]? = some new →
    s.tasks[n]? = some old → new.peer = old.peer → old.phase = .left

/-- A task with a peer is there after every turn. -/
theorem Group.task_step (turn : Turn α) (ht : ∃ task, s.tasks[n]? = some task ∧ task.peer = p) :
    ∃ task, (s.step config turn).1.tasks[n]? = some task ∧ task.peer = p := by
  obtain ⟨task, ht, rfl⟩ := ht
  obtain ⟨new, hnew, hmoves⟩ := exists_moved turn ht
  exact ⟨new, hnew, hmoves.peer_eq⟩

/-- **A turn keeps the connections in order**, unless it reopens an address. -/
theorem Group.Sequential.step (hseq : s.Sequential config h) (hok : ¬ s.reopens config turn) :
    (s.step config turn).1.Sequential config (h ++ [call (Group.step config) s turn]) where
  mapped e he := by
    obtain he | hs := mem_peers_step he
    · exact task_step turn (hseq.mapped e he)
    · exact task_of_insert hs
  promoted e he := by
    rw [promotions_concat] at he
    obtain he | he := List.mem_append.mp he
    · exact task_step turn (hseq.promoted e he)
    · obtain ⟨n, p⟩ := e
      have hpromotes := Option.mem_toList.mp he
      unfold promotes? at hpromotes
      split at hpromotes
      · rename_i n' peer hn hs
        cases hpromotes
        obtain ⟨task, ht, -, hpeer⟩ := task_of_section hn hs
        exact task_step turn ⟨task, ht, hpeer⟩
      · cases hpromotes
  left m n new old hlt hm hn hpeer := by
    obtain ⟨before, hbefore, hmoves⟩ | ⟨hlen, -, -⟩ := moves_step hn
    · refine hmoves.phase_of_left ?_
      rw [hmoves.peer_eq] at hpeer
      obtain ⟨newer, hnewer, hmoved⟩ | ⟨-, hs, -⟩ := moves_step hm
      · rw [hmoved.peer_eq] at hpeer
        exact hseq.left m n newer before hlt hnewer hbefore hpeer
      · -- the newer task is the admitted one, and its address has not been reopened
        by_contra hphase
        exact hok ⟨_, _, hs, before, List.mem_of_getElem? hbefore, hpeer.symm, hphase⟩
    · -- no task is newer than the admitted one
      obtain ⟨newer, hnewer, -⟩ | ⟨hm', -, -⟩ := moves_step hm
      · have hlt' := (List.getElem?_eq_some_iff.mp hnewer).1
        omega
      · omega

omit [DecidableEq α] in
/-- Then no turn is overtaken: the older task would have left. -/
theorem Group.Sequential.not_overtaken (hseq : s.Sequential config h) (turn : Turn α) :
    ¬ s.overtaken config h turn := by
  -- a task with a lock section has not left, so there is no newer one of its address
  have hnewest : ∀ {n l} m, turn.task? = some n → s.section? config turn = some l →
      n < m → ¬ ∃ task, s.tasks[m]? = some task ∧ task.peer = l.peer := by
    rintro n l m hn hs hlt ⟨newer, hnewer, hpeer⟩
    obtain ⟨task, ht, hphase, hown⟩ := task_of_section hn hs
    exact hphase (hseq.left m n newer task hlt hnewer ht (hpeer.trans hown.symm))
  rintro ⟨n, hn, l, hs, hharms⟩
  cases l with
  | insert | promote => exact hharms
  | refuse peer =>
    obtain ⟨e, he, rfl, hlt⟩ := hharms
    exact hnewest e.2 hn hs hlt (hseq.mapped e he)
  | depart peer =>
    obtain ⟨e, he, rfl, hlt⟩ | ⟨-, e, he, rfl, hlt⟩ := hharms
    · exact hnewest e.2 hn hs hlt (hseq.mapped e he)
    · exact hnewest e.1 hn hs hlt (hseq.promoted e he)

end Turn

/-! ## Whole runs -/

/-- **The new connections are spared throughout a history exactly if no turn is
overtaken.** -/
theorem spares_iff (config : RedundancyConfig) (h : List (Call α)) : SparesThroughout config h
      ↔ Throughout (fun g k => ¬ k.before.overtaken config g k.input) h := by
  constructor
  · intro hspares i hi hbad
    obtain ⟨n, task, hn, ht, hnot⟩ := not_spares_of_overtaken hbad
    exact hnot (hspares i hi n task hn ht)
  · intro hok i hi n task hn ht
    exact spares_of_not_overtaken hn ht (hok i hi)

section Runs

variable {config : RedundancyConfig} {h : List (Call α)} {s : Group α}

theorem sequential_of_run (r : Run (Group.step config) Group.init h s)
    (hok : ∀ k ∈ h, ¬ k.before.reopens config k.input) : s.Sequential config h := by
  induction r with
  | nil =>
    refine ⟨?_, ?_, ?_⟩
    · intro e he
      cases he
    · intro e he
      cases he
    · intro m n new old _ hm
      cases hm
  | @snoc g d r turn ih =>
    have hg := ih fun k hk => hok k (List.mem_append_left _ hk)
    exact hg.step (hok _ List.mem_concat_self)

/-- **Connections that follow each other are safe**: if each address is admitted only
when the tasks it has had have left, no turn is overtaken. -/
theorem not_overtaken_of_run (r : Run (Group.step config) Group.init h s)
    (hok : ∀ k ∈ h, ¬ k.before.reopens config k.input) :
    Throughout (fun g k => ¬ k.before.overtaken config g k.input) h := by
  induction r with
  | nil => exact throughout_nil _
  | @snoc g d r turn ih =>
    have hg : ∀ k ∈ g, ¬ k.before.reopens config k.input :=
      fun k hk => hok k (List.mem_append_left _ hk)
    exact (throughout_snoc g _).mpr ⟨ih hg, (sequential_of_run r hg).not_overtaken turn⟩

/-- **A reconnected peer is spared by the task of its old connection exactly if that
task is not overtaken**: throughout a run, no turn of a task takes the sender of a
newer connection from its address off the map, or clears the slot after a newer
connection has been promoted, if and only if no task is refused or cleans up while a
newer connection has its place on the map, and none cleans up while its address has
the slot after a newer connection has been promoted. In particular this is so if
every address is admitted only when the tasks it has had have left. -/
theorem reconnect_spared_iff (r : Run (Group.step config) Group.init h s) :
    (SparesThroughout config h
        ↔ Throughout (fun g k => ¬ k.before.overtaken config g k.input) h)
      ∧ ((∀ k ∈ h, ¬ k.before.reopens config k.input) → SparesThroughout config h) :=
  ⟨spares_iff config h, fun hok => (spares_iff config h).mpr (not_overtaken_of_run r hok)⟩

end Runs

/-- A peer reconnects while the task of its old connection has not left; the new
connection is promoted and closes, and then the old task cleans up. -/
def reconnectAndClose : List (Turn ℕ) :=
  [.accept 1, .enrol [], .accept 1, .enrol [], .queue 1 (.stateChanged .active), .drive 1 true,
   .queue 1 (.closed none), .drive 1 true, .leave 1, .hangUp 0, .leave 0]

/-- Nothing is taken from the new connection, although it was admitted too early. -/
theorem reconnect_spared_andClose :
    let e := exec (Group.step .default) Group.init reconnectAndClose
    e.2.inner = ⟨[], none⟩ ∧ promotions .default e.1 = [(1, 1)]
      ∧ SparesThroughout .default e.1 := by
  intro e
  exact ⟨by decide, by decide,
    (reconnect_spared_iff (run_exec _ _ reconnectAndClose)).1.mpr (by decide)⟩

/-- A peer reconnects, the new connection is promoted, and the task of the old one
cleans up. -/
def reconnectAndCleanUp : List (Turn ℕ) :=
  [.accept 1, .enrol [], .accept 1, .enrol [],
   .queue 1 (.stateChanged .active), .drive 1 true, .hangUp 0, .leave 0]

/-- **The new connection loses its sender and the slot**, while its task goes on. -/
theorem reconnect_lost_cleanUp :
    let e := exec (Group.step .default) Group.init reconnectAndCleanUp
    e.1.getLast?.map (fun k => k.before.inner) = some ⟨[(1, 1)], some 1⟩
      ∧ e.2.inner = ⟨[], none⟩ ∧ e.2.tasks[1]? = some ⟨1, [], .looping⟩
      ∧ ¬ SparesThroughout .default e.1 := by
  intro e
  refine ⟨by decide, by decide, by decide, ?_⟩
  rw [spares_iff]
  decide

end Redundancy
