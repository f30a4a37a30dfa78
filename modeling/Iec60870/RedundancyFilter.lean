import Iec60870.RedundancyTasks

/-!
# Peers that the filter rejects

`promote_filter` is the authorisation gate of a group: a peer that it rejects is
not to own the data link, and nothing that it sends is to reach the application.
The gate is checked in one place, when a task takes `StateChanged(Active)`, while
the ASDUs of all peers pass through the tasks, whose check of the slot and whose
hand-over are separate steps.

A model that leaves the answers of the filter to each turn covers filters that
change their mind; here the filter is a function of the address
(`Group.answersBy`). The addresses of the connections may repeat, and the turns of
the tasks may interleave in any way. `rejected_peers_silent` says that the slot only
ever names accepted peers, and that an ASDU at the application was taken from the
queue of a connection while its peer, promoted before, had the slot.
-/

namespace Redundancy

open Machine

variable {α : Type}

/-- The answer of the filter in a turn is `f`, of the address of the peer. -/
def Group.answersBy (f : α → Bool) (s : Group α) : Turn α → Prop
  | .drive n verdict => ∀ task ∈ s.tasks[n]?, verdict = f task.peer
  | _ => True

instance (f : α → Bool) (s : Group α) (turn : Turn α) :
    Decidable (s.answersBy f turn) := by
  unfold Group.answersBy
  split <;> infer_instance

/-- **A task has taken an ASDU of its peer by right**: in a turn of the history that
found the peer in the slot, accepted by the filter and promoted before. -/
def TakenByRight (config : RedundancyConfig) (f : α → Bool) (h : List (Call α)) (n : ℕ)
    (p : α) (bytes : Bytes) : Prop :=
  ∃ g k, g ++ [k] <+: h ∧ (∃ verdict, k.input = .drive n verdict)
    ∧ (∃ rest, k.before.tasks[n]? = some ⟨p, .asdu bytes :: rest, .looping⟩)
    ∧ k.before.inner.active = some p ∧ f p = true
    ∧ ∃ m, (m, p) ∈ promotions config g

section Turn

variable {config : RedundancyConfig} {f : α → Bool} {h : List (Call α)} {s : Group α}
  {turn : Turn α} {p : α} {n : ℕ} {bytes : Bytes}

theorem TakenByRight.mono (ht : TakenByRight config f h n p bytes) (k : Call α) :
    TakenByRight config f (h ++ [k]) n p bytes := by
  obtain ⟨g, c, hpre, hrest⟩ := ht
  exact ⟨g, c, hpre.trans (List.prefix_append h [k]), hrest⟩

/-- **A promoted peer is an accepted one.** -/
theorem accepted_of_promote (hfilter : config.promoteFilter = true)
    (hf : s.answersBy f turn) (hs : s.section? config turn = some (.promote p)) :
    f p = true := by
  obtain ⟨m, verdict, task, rfl, hm, rfl, hrefuses⟩ := Group.of_promote hs
  have hverdict : verdict = f task.peer := hf task hm
  rw [Group.refuses, hfilter, Bool.true_and, Bool.not_eq_false'] at hrefuses
  rw [← hverdict]
  exact hrefuses

variable [DecidableEq α]

/-! ## What holds of every run -/

/-- **The slot and the tasks owe what they have to promotions that the filter
accepted.** -/
structure Group.Authorised (config : RedundancyConfig) (f : α → Bool) (h : List (Call α))
    (s : Group α) : Prop where
  owner : ∀ p, s.inner.active = some p → f p = true ∧ ∃ m, (m, p) ∈ promotions config h
  forwarding : ∀ n task bytes, s.tasks[n]? = some task → task.phase = .forwarding bytes →
    TakenByRight config f h n task.peer bytes

/-- **A turn keeps that.** -/
theorem Group.Authorised.step (ha : s.Authorised config f h)
    (hfilter : config.promoteFilter = true) (hf : s.answersBy f turn) :
    (s.step config turn).1.Authorised config f (h ++ [call (Group.step config) s turn]) where
  owner p hp := by
    obtain hold | hnew := active_step hp
    · obtain ⟨haccepted, m, hm⟩ := ha.owner p hold
      exact ⟨haccepted, m, mem_promotions_concat hm⟩
    · exact ⟨accepted_of_promote hfilter hf hnew, mem_promotions_of_promote hnew⟩
  forwarding n new bytes hnew hphase := by
    obtain ⟨old, hold, hmoves⟩ | ⟨-, -, hlooping⟩ := moves_step hnew
    · obtain hbefore | ⟨verdict, rest, rfl, hold', hact⟩ := hmoves.of_forwarding hphase
      · rw [hmoves.peer_eq]
        exact (ha.forwarding n old bytes hold hbefore).mono _
      · -- the turn that takes the ASDU is the last one of the history
        obtain ⟨haccepted, hpromoted⟩ := ha.owner new.peer hact
        rw [hold'] at hold
        exact ⟨h, _, List.prefix_rfl, ⟨verdict, rfl⟩, ⟨rest, hold⟩, hact, haccepted, hpromoted⟩
    · rw [hlooping] at hphase
      cases hphase

end Turn

variable [DecidableEq α]

theorem authorised_of_run {config : RedundancyConfig} (hfilter : config.promoteFilter = true)
    {f : α → Bool} {h : List (Call α)} {s : Group α}
    (r : Run (Group.step config) Group.init h s)
    (hf : ∀ k ∈ h, k.before.answersBy f k.input) : s.Authorised config f h := by
  induction r with
  | nil =>
    refine ⟨?_, ?_⟩
    · intro p hp
      cases hp
    · intro n task bytes hn
      cases hn
  | @snoc g d r turn ih =>
    have hg := ih fun k hk => hf k (List.mem_append_left _ hk)
    exact hg.step hfilter (hf _ List.mem_concat_self)

/-- **A rejected peer does not reach the application.** In every run of a group with
a filter that is a function of the address: the owner of the slot is a peer that the
filter accepts; and each ASDU that is handed to the application, with the address
`p`, was taken before from the queue of a connection from `p`, while `p` had the
slot, and `p` is accepted by the filter and had been promoted before that. -/
theorem rejected_peers_silent {config : RedundancyConfig}
    (hfilter : config.promoteFilter = true) {f : α → Bool} {h : List (Call α)}
    {s : Group α} (r : Run (Group.step config) Group.init h s)
    (hf : ∀ k ∈ h, k.before.answersBy f k.input) :
    (∀ p, s.inner.active = some p → f p = true)
      ∧ Throughout (fun g k => ∀ p bytes, (p, bytes) ∈ k.actions →
          ∃ n, TakenByRight config f g n p bytes) h := by
  refine ⟨fun p hp => ((authorised_of_run hfilter r hf).owner p hp).1, ?_⟩
  induction r with
  | nil => exact throughout_nil _
  | @snoc g d r turn ih =>
    have hg : ∀ k ∈ g, k.before.answersBy f k.input :=
      fun k hk => hf k (List.mem_append_left _ hk)
    refine (throughout_snoc g _).mpr ⟨ih hg, ?_⟩
    intro p bytes hmem
    obtain ⟨n, events, -, hn⟩ := Group.of_mem_step hmem
    exact ⟨n, (authorised_of_run hfilter r hg).forwarding n _ bytes hn rfl⟩

/-- Two peers start data transfer and send; the filter accepts the first one only. -/
def rejectedSecond : List (Turn ℕ) :=
  [.accept 1, .enrol [], .accept 2, .enrol [], .queue 0 (.stateChanged .active), .drive 0 true,
   .queue 1 (.stateChanged .active), .queue 1 (.asdu [2]),
   .queue 0 (.asdu [1]), .drive 0 true, .drive 1 false, .forward 0 true, .leave 1]

/-- The application gets what the first one sends. -/
theorem rejected_peers_silent_second :
    let config : RedundancyConfig := ⟨8, true⟩
    let e := exec (Group.step config) Group.init rejectedSecond
    e.1.flatMap (fun k => k.actions) = [(1, [1])] ∧ e.2.inner = ⟨[(1, 0)], some 1⟩
      ∧ Throughout (fun g k => ∀ p bytes, (p, bytes) ∈ k.actions →
          ∃ n, TakenByRight config (fun p => p == 1) g n p bytes) e.1 := by
  intro config e
  exact ⟨by decide, by decide,
    (rejected_peers_silent rfl (run_exec _ _ rejectedSecond) (by decide)).2⟩

end Redundancy
