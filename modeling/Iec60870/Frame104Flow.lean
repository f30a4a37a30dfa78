import Iec60870.Frame104Handshake

/-!
# Flow control between two connections

An acknowledgement that the sender ignores is lost for good: a receiver
counts it as given, and nothing repeats it until more data or a timer comes
along. The state machine does ignore acknowledgements, outside the
data-transfer phase. What keeps the two ends in step is that an end which is
in that phase has been in it ever since it took its first message, so it has
acted on all of them: that is what the handshake gives, and `InStep` says.

For such an end, and a window within half the sequence space, the counts of
`AckInv` are tight: the last count under way, or else the number of entries
removed, is all the peer has accepted less what it has not acknowledged.
With nothing in flight in either direction the sender's window is therefore
exactly what the receiver has left to acknowledge, and a receiver with
`w ≤ k` has left less than a window's worth.
-/

open Machine

namespace Frame104

open Connection Net

section Flow

variable {allowed : Side → Input → Prop} {config : Side → Config} {s : Pair} {x : Side}
  {i : Input × Instant}

/-- **An end that has acted on every acknowledgement it has taken**: it is in
the data-transfer phase, or has taken nothing yet. -/
def InStep (s : Pair) (x : Side) : Prop :=
  s.halted x = false ∧ ((s.node x).state.isTransfer = true ∨ s.taken x = [])

/-- A user request brings no end into the data-transfer phase. -/
theorem inStep_of_offer (hs : (pair allowed).Reachable (pairInit config) s)
    (live : s.halted x = false) (hin : i.1.apdu? = none)
    (h : InStep ((pair allowed).perform s x i) x) : InStep s x := by
  obtain ⟨-, -, hact⟩ := ident_of_run (run_of_pair hs x)
  obtain ⟨hq, hphase⟩ := h
  rw [perform_halted_self, live, Bool.false_or] at hq
  rw [perform_node_self, perform_taken] at hphase
  obtain ⟨hstate, -, -⟩ := state_of_quiet hact hq
  refine ⟨live, ?_⟩
  obtain htr | hnil := hphase
  · by_cases hold : (s.node x).state.isTransfer = true
    · exact Or.inl hold
    · rw [Bool.not_eq_true] at hold
      change ((s.node x).handle i.1 i.2).1.state.isTransfer = true at htr
      rw [hstate] at htr
      obtain ⟨-, -, -, -, he⟩ | ⟨-, he⟩ := request_cases hold hin
      · rw [he] at htr
        exact absurd htr (by decide)
      · rw [he, hold] at htr
        exact absurd htr (by decide)
  · exact Or.inr hnil

/-- A U-frame that brings a server into the data-transfer phase is
STARTDT_act. -/
theorem startDtAct_of_target {c : Connection} {function : UFunction}
    (hrole : c.role = .server) (hold : c.state.isTransfer = false)
    (hrej : c.rejects (.apdu (.u function)) = false)
    (htr : (c.target (.apdu (.u function))).isTransfer = true) :
    function = .startDtAct := by
  unfold Connection.target at htr
  rw [if_neg (by rw [hrej]; decide)] at htr
  change Connection.refuses c.role c.state function = false at hrej
  rw [hrole] at hrej
  cases function with
  | startDtAct => rfl
  | startDtCon | stopDtCon => exact absurd hrej (by simp [Connection.refuses])
  | stopDtAct => exact absurd htr (by simp [Connection.uTarget, State.isTransfer])
  | testFrAct | testFrCon =>
    change c.state.isTransfer = true at htr
    rw [hold] at htr
    exact absurd htr (by decide)

/-- **An end in step has been in step, and acts on what it takes.** -/
theorem inStep_of_take (hs : (pair allowed).Reachable (pairInit config) s)
    (live : s.halted x = false) {m : Apdu} {rest : List Apdu}
    (hin : s.inbox x = m :: rest) (hi : i.1 = .apdu m)
    (h : InStep ((pair allowed).perform (s.pop x m rest) x i) x) : InStep s x
      ∧ ∀ nr, m.nr? = some nr → (s.node x).processes i.1 = some nr := by
  obtain ⟨hrole, -, hact⟩ := ident_of_run (run_of_pair hs x)
  obtain ⟨hq, hphase⟩ := h
  rw [perform_halted_self, pop_halted, live, Bool.false_or] at hq
  rw [perform_node_self, perform_taken, pop_taken_self] at hphase
  obtain ⟨hstate, hrej, -⟩ := state_of_quiet hact hq
  have htr : ((s.node x).target i.1).isTransfer = true := by
    obtain htr | hnil := hphase
    · change ((s.node x).handle i.1 i.2).1.state.isTransfer = true at htr
      rwa [hstate] at htr
    · exact absurd hnil (by simp)
  rw [hi] at hrej htr ⊢
  -- An end that transfers already acts on the number of every APDU it does not
  -- reject; the other end can only have been started by this one.
  by_cases hold : (s.node x).state.isTransfer = true
  · refine ⟨⟨live, Or.inl hold⟩, fun nr hnr => ?_⟩
    cases m with
    | i send recv asdu =>
      change ((s.node x).accepts (.apdu (.i send recv asdu))).isNone = false at hrej
      rw [Option.isNone_eq_false_iff, Option.isSome_iff_exists] at hrej
      obtain ⟨f, hf⟩ := hrej
      rw [Connection.processes, hf, (accepts_iframe hf).2.2]
      exact hnr
    | s recv =>
      rw [Connection.processes, if_pos hold]
      exact hnr
    | u function => exact absurd hnr (by simp)
  · rw [Bool.not_eq_true] at hold
    cases m with
    | i send recv asdu =>
      change ((s.node x).accepts (.apdu (.i send recv asdu))).isNone = false at hrej
      rw [accepts_of_not_transfer hold] at hrej
      exact absurd hrej (by decide)
    | s recv =>
      change (s.node x).state.isTransfer = true at htr
      rw [hold] at htr
      exact absurd htr (by decide)
    | u function =>
      -- A U-frame starts it: no APDU can have come before the handshake's.
      refine ⟨⟨live, Or.inr ?_⟩, fun nr hnr => absurd hnr (by simp)⟩
      have hh := handshake_of_pair hs
      cases x with
      | left =>
        have hc := hh.client
        rw [live] at hc
        exact (hc.idle hold).2
      | right =>
        by_contra hne
        refine hh.ne_startDtAct hs hne hin ?_
        rw [startDtAct_of_target hrole hold hrej htr]

/-! ## The counts are tight -/

/-- **The acknowledgements in flight, with nothing lost**: what the peer has
acknowledged is the last count under way, or what `x` has removed. -/
structure FlowInv (s : Pair) (x : Side) (Q : List ℕ) : Prop where
  acks : AckInv s x Q
  tight : InStep s x → Q.getLast?.getD (removed (s.past x) (s.node x))
        + (s.node x.other).unackedRecv
      = (accepted (s.past x.other)).length

namespace FlowInv

variable {x : Side} {Q : List ℕ} {role : Role} {cfg : Config} {i : Input × Instant}

/-- A call of the peer keeps the counts tight: if it acknowledges, the last
count is all it has accepted. -/
theorem peer_call (h : FlowInv s x Q)
    (r : Run Connection.step (Connection.new role cfg) (s.past x.other)
      (s.node x.other)) (i : Input × Instant) :
    ∃ Q', FlowInv ((pair allowed).perform s x.other i) x Q' := by
  obtain ⟨n, hn, hun⟩ := exists_nrs_of_run r i
  refine ⟨_, h.acks.peer_call r i, fun hst => ?_⟩
  have hold : InStep s x := by
    unfold InStep at hst ⊢
    rwa [perform_peer_halted, perform_peer_node, perform_taken] at hst
  have htight := h.tight hold
  rw [perform_peer_past, perform_peer_node, perform_node_self, perform_past_self]
  show _ + (Connection.step (s.node x.other) i).1.unackedRecv = (accepted (s.past x.other
        ++ [call Connection.step (s.node x.other) i])).length
  rw [hn, List.length_replicate, hun]
  by_cases hz : n = 0
  · rw [hz, if_pos rfl, List.replicate_zero, List.append_nil, accepted_append,
      accepted_singleton, List.length_append, ← htight]
    exact (Nat.add_assoc _ _ _).symm
  · rw [if_neg hz, List.getLast?_append, List.getLast?_replicate, if_neg hz]
    rfl

/-- What the peer takes keeps the counts tight. -/
theorem pop_peer (h : FlowInv s x Q) (m : Apdu) (rest : List Apdu) :
    FlowInv (s.pop x.other m rest) x Q := by
  refine ⟨h.acks.pop_peer m rest, fun hst => h.tight ?_⟩
  unfold InStep at hst ⊢
  rwa [pop_peer_taken] at hst

/-- A call of `x` that acts on no acknowledgement keeps the counts tight. -/
theorem own_call (hacks : AckInv s x Q)
    (r : Run Connection.step (Connection.new role cfg) (s.past x) (s.node x))
    (hp : (s.node x).processes i.1 = none)
    (htight : InStep ((pair allowed).perform s x i) x →
      Q.getLast?.getD (removed (s.past x) (s.node x)) + (s.node x.other).unackedRecv
        = (accepted (s.past x.other)).length) :
    FlowInv ((pair allowed).perform s x i) x Q := by
  refine ⟨hacks.own_call_none r i hp, fun hst => ?_⟩
  have hrem := removed_step r i
  rw [dropped_of_none hp, Nat.add_zero] at hrem
  rw [perform_past_self, perform_node_self, perform_node_other, perform_past_other]
  have htight := htight hst
  rw [← hrem] at htight
  exact htight

/-- An acknowledgement that `x` takes keeps the counts tight: it is acted on, so
that `x` removes all that it covers. -/
theorem own_take (hs : (pair allowed).Reachable (pairInit config) s)
    (hk : (config x).k.toNat ≤ 2 ^ 14 - 1) (h : FlowInv s x Q)
    (live : s.halted x = false) {m : Apdu} {rest : List Apdu}
    (hin : s.inbox x = m :: rest) {nr : SeqNo} (hm : m.nr? = some nr)
    (hi : i.1 = .apdu m) :
    ∃ Q', FlowInv ((pair allowed).perform (s.pop x m rest) x i) x Q' := by
  have r := run_of_pair hs x
  have hacks : ∃ q Q', Q = q :: Q' ∧ nr.value = q % 2 ^ 15
      ∧ AckInv ((pair allowed).perform (s.pop x m rest) x i) x Q' :=
    h.acks.own_take_nr r hin hm i hi
  obtain ⟨q, Q', rfl, hq, hQ'⟩ := hacks
  refine ⟨Q', hQ', fun hst => ?_⟩
  obtain ⟨hold, hproc⟩ := inStep_of_take hs live hin hi hst
  have htight := h.tight hold
  have hrem := removed_step r i
  rw [removed_add_dropped_eq r (hproc nr hm) hq
    (h.acks.low q List.mem_cons_self) ((h.acks.high q List.mem_cons_self).trans
      (accepted_isPrefix_emitted hs x).length_le) hk] at hrem
  rw [perform_past_self, perform_node_self, perform_node_other, perform_past_other]
  rw [List.getLast?_cons, Option.getD_some, ← hrem] at htight
  exact htight

end FlowInv

/-- **The counts are tight in every reachable state**, for a window within
half the sequence space. -/
theorem exists_flowInv (hk : ∀ x, (config x).k.toNat ≤ 2 ^ 14 - 1)
    (hs : (pair allowed).Reachable (pairInit config) s) (x : Side) :
    ∃ Q, FlowInv s x Q := by
  induction hs with
  | refl =>
    exact ⟨[], ⟨rfl, List.Pairwise.nil, fun q hq => absurd hq List.not_mem_nil,
      fun q hq => absurd hq List.not_mem_nil, Nat.zero_le _⟩, fun _ => rfl⟩
  | @tail s t hs st ih =>
    obtain ⟨Q, hQ⟩ := ih
    cases st with
    | offer y i live ho =>
      obtain rfl | rfl := Side.eq_or_eq_other x y
      · have hp : (s.node y).processes i.1 = none :=
          processes_eq_none (by rw [show i.1.apdu? = none from ho.1]; rfl)
        exact ⟨Q, FlowInv.own_call hQ.acks (run_of_pair hs y) hp
          fun hst => hQ.tight (inStep_of_offer hs live ho.1 hst)⟩
      · exact hQ.peer_call (run_of_pair hs x.other) i
    | take y m rest i live hin hr =>
      obtain rfl | rfl := Side.eq_or_eq_other x y
      · have hi : i.1 = .apdu m := hr
        cases hm : m.nr? with
        | none =>
          have hp : (s.node y).processes i.1 = none :=
            processes_eq_none (by rw [hi]; exact hm)
          exact ⟨Q, FlowInv.own_call (hQ.acks.pop_other hin hm) (run_of_pair hs y) hp
            fun hst => hQ.tight (inStep_of_take hs live hin hi hst).1⟩
        | some nr => exact hQ.own_take hs (hk y) live hin hm hi
      · exact (hQ.pop_peer m rest).peer_call (run_of_pair hs x.other) i
    | ignore y m rest live hin hi => exact absurd hi (fun h => h)
    | lose y l m r hl hin => exact absurd hl (fun h => h)

end Flow

/-- **Flow control never stalls.** With both ends active, neither halted and
nothing in flight, the sender's window is what the receiver has left to
acknowledge; so where `1 ≤ w ≤ k`, nothing is queued. -/
theorem flow_never_stalls {config : Side → Config}
    (hk : ∀ x, (config x).k.toNat ≤ 16383) {s : Pair}
    (hs : (pair (fun _ _ => True)).Reachable (pairInit config) s)
    (hactive : ∀ x, (s.node x).state = .active)
    (hlive : ∀ x, s.halted x = false) (hempty : ∀ x, s.inbox x = []) (x : Side) :
    (s.node x).sent.length = (s.node x.other).unackedRecv
      ∧ (1 ≤ (config x.other).w.toNat →
          (config x.other).w.toNat ≤ (config x).k.toNat →
          (s.node x).pending = []) := by
  have hlen : (s.node x).sent.length = (s.node x.other).unackedRecv := by
    obtain ⟨Q, hQ⟩ := exists_flowInv hk hs x
    have hnil : Q = [] := by
      have hi := hQ.acks.inflight
      rw [hempty x] at hi
      exact List.map_eq_nil_iff.mp hi.symm
    have htight := hQ.tight ⟨hlive x, Or.inl (by rw [hactive x]; rfl)⟩
    -- with the channel empty the peer has accepted all that was emitted
    have hall : accepted (s.past x.other) = emitted (s.past x) := by
      rw [accepted_of_live hs (hlive x.other), emitted_eq,
        emittedApdus_of_pair hs x, hempty x.other, List.append_nil]
    obtain ⟨hcov, -⟩ := sent_of_run (run_of_pair hs x)
    rw [hnil, hall] at htight
    change removed (s.past x) (s.node x) + _ = _ at htight
    unfold removed at htight
    omega
  refine ⟨hlen, fun hw hwk => ?_⟩
  obtain ⟨-, hflushed⟩ := Connection.sendInv_of_run (run_of_pair hs x)
  obtain ⟨-, hcfg, -⟩ := Connection.ident_of_run (run_of_pair hs x)
  obtain ⟨-, hcfg', -⟩ := Connection.ident_of_run (run_of_pair hs x.other)
  have htimely := (Connection.recvInv_of_run (run_of_pair hs x.other)).timely
  unfold Connection.Timely at htimely
  rw [hcfg', max_eq_left hw] at htimely
  refine hflushed (hactive x) ?_
  rw [hlen, hcfg]
  exact lt_of_lt_of_le htimely hwk

/-- A schedule that leaves one I-frame accepted and not yet acknowledged. -/
def oneUnacked : List (Net.Move (Input × Instant)) :=
  [.offer .left (.startDt, 0), .take .right (.apdu (.u .startDtAct), 0),
   .take .left (.apdu (.u .startDtCon), 1),
   .offer .left (.sendAsdu [7], 1),
   .take .right (.apdu (.i (SeqNo.new 0) (SeqNo.new 0) [7]), 1)]

/-- With one I-frame left to acknowledge, the client's window has one entry
and its queue is empty. -/
theorem flow_never_stalls_oneUnacked : ∃ s : Pair,
      (pair (fun _ _ => True)).Reachable (pairInit fun _ => Config.default) s
        ∧ (s.node .right).unackedRecv = 1 ∧ (s.node .left).sent.length = 1
        ∧ (s.node .left).pending = [] := by
  obtain ⟨s, hs, ⟨hal, har⟩, ⟨hll, hlr⟩, ⟨hel, her⟩, hun⟩ :=
    Net.exists_reachable_of_play (N := pair (fun _ _ => True))
      (s := pairInit fun _ => Config.default) oneUnacked
      (P := fun s =>
        ((s.node .left).state = .active ∧ (s.node .right).state = .active)
          ∧ (s.halted .left = false ∧ s.halted .right = false)
          ∧ (s.inbox .left = [] ∧ s.inbox .right = [])
          ∧ (s.node .right).unackedRecv = 1) (by decide +kernel)
  have hflow := flow_never_stalls (fun _ => by decide) hs
    (fun x => by cases x; exacts [hal, har])
    (fun x => by cases x; exacts [hll, hlr])
    (fun x => by cases x; exacts [hel, her]) .left
  exact ⟨s, hs, hun, hflow.1.trans hun, hflow.2 (by decide) (by decide)⟩

end Frame104
