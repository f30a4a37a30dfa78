import Iec60870.Frame104Recv

/-!
# The acknowledgement deadline

A connection acknowledges received I-frames at the latest when `t2` has run
out, so that a peer whose `t1` is longer is not left waiting. The deadline
is kept as one instant for all of them, `last_recv_iframe`, and this is
where it goes wrong: `on_i_frame` overwrites the instant with every I-frame
it accepts. While I-frames keep arriving less than `t2` apart, and fewer
than `w` of them wait, the deadline of the first one moves on with each.

`waiting h` are the instants at which the I-frames arrived that no receive
number on the wire covers yet, and `Connection.postponesT2` is the condition
on the state before a call under which the call moves the deadline of a
waiting I-frame. In a run that never meets it all waiting I-frames arrived
at `last_recv_iframe` (`lastRecvIframe_of_run`), and the deadline is kept
(`ack_deadline`).
-/

open Machine

namespace Frame104

open Connection

/-- The instant at which a call accepts an I-frame, if it accepts one. -/
def arrival (c : Call) : List Instant :=
  (c.before.accepts c.input.1).toList.map fun _ => c.input.2

/-- When the accepted I-frames of a history arrived. -/
def arrivals (h : List Call) : List Instant := h.flatMap arrival

/-- **When the I-frames arrived that still wait for an acknowledgement**:
those accepted since the last receive number was put on the wire. -/
def waiting (h : List Call) : List Instant :=
  (arrivals h).drop ((arrivals h).length - sinceAck 0 (events h))

@[simp] theorem arrivals_snoc (h : List Call) (c : Call) :
    arrivals (h ++ [c]) = arrivals h ++ arrival c := by
  simp [arrivals]

theorem length_arrival (c : Call) :
    (arrival c).length = (c.before.accepts c.input.1).toList.length :=
  List.length_map _

/-- There are as many arrivals as accepted I-frames. -/
theorem length_arrivals (h : List Call) : (arrivals h).length = (accepted h).length := by
  induction h with
  | nil => rfl
  | cons c h ih =>
    rw [← List.singleton_append, accepted_append, List.length_append,
      accepted_singleton, ← ih, ← length_arrival, ← List.length_append]
    rfl

/-- No more I-frames wait than were accepted. -/
theorem sinceAck_le (u : ℕ) (L : List Event) : sinceAck u L ≤ u + acceptCount L := by
  induction L generalizing u with
  | nil => exact le_rfl
  | cons e L ih =>
    cases e with
    | accept f =>
      have hc : acceptCount (.accept f :: L) = acceptCount L + 1 := by
        simp [acceptCount]
      have h := ih (u + 1)
      rw [sinceAck, hc]
      omega
    | act a =>
      have hc : acceptCount (.act a :: L) = acceptCount L := rfl
      rw [sinceAck, hc]
      refine (ih _).trans (Nat.add_le_add_right ?_ _)
      split
      · exact Nat.zero_le u
      · exact le_rfl

theorem length_waiting (h : List Call) : (waiting h).length = sinceAck 0 (events h) := by
  have hle := sinceAck_le 0 (events h)
  rw [acceptCount_events, ← length_arrivals] at hle
  rw [waiting, List.length_drop]
  omega

/-- **A call clears the waiting I-frames or adds its own.** -/
theorem waiting_snoc (h : List Call) (c : Call) : waiting (h ++ [c])
      = if nrs c.actions = [] then waiting h ++ arrival c else [] := by
  have hle := sinceAck_le 0 (events h)
  rw [acceptCount_events, ← length_arrivals] at hle
  unfold waiting
  rw [arrivals_snoc, events_append, events_singleton, sinceAck_append,
    sinceAck_eventsOf, ← length_arrival, List.length_append]
  split
  · rw [show (arrivals h).length + (arrival c).length - (sinceAck 0 (events h) + (arrival c).length)
        = (arrivals h).length - sinceAck 0 (events h) from by omega,
      List.drop_append_of_le_length (Nat.sub_le _ _)]
  · rw [Nat.sub_zero, List.drop_eq_nil_iff, List.length_append]

namespace Connection

/-- **The calls that move a deadline**: an I-frame is accepted later than one
that waits, and does not make `w`. -/
def postponesT2 (c : Connection) (i : Input × Instant) : Prop :=
  (c.accepts i.1).isSome = true ∧ 0 < c.unackedRecv
    ∧ c.unackedRecv + 1 < c.config.w.toNat ∧ c.lastRecvIframe ≠ some i.2

instance (c : Connection) (i : Input × Instant) : Decidable (c.postponesT2 i) :=
  inferInstanceAs (Decidable (_ ∧ _))

/-! ## The instant of the deadline -/

/-- An accepted I-frame sets the instant. -/
theorem lastRecvIframe_onInput (c : Connection) (input : Input) (now : Instant) :
    (c.onInput input now).lastRecvIframe
      = if (c.accepts input).isSome then some now else c.lastRecvIframe := by
  have h := course_onInput c input now
  generalize c.onInput input now = d at h ⊢
  cases h with
  | accept send recv asdu h =>
    rw [h]
    unfold ackIfDue
    split <;> exact flushPending_lastRecvIframe _ now
  | refuseI send recv asdu h => simp [h, reject, transition_eq, push]
  | _ => simp [accepts, acknowledge, reject, transition_eq, emitU, emitApdu, push, sendIframe]

/-- The timers leave the instant alone. -/
theorem lastRecvIframe_runTimers (c : Connection) (now : Instant) :
    (c.runTimers now).lastRecvIframe = c.lastRecvIframe :=
  runTimers_rel c now (R := fun d e => e.lastRecvIframe = d.lastRecvIframe)
    (fun _ => rfl) (fun _ _ _ h h' => h'.trans h)
    (fun d => by rw [timeOut, transition_eq]; rfl) (fun _ => rfl) (fun _ => rfl)
    (fun d => by rw [transition_eq]; rfl)

/-- A call sets the instant if it accepts an I-frame. -/
theorem lastRecvIframe_handle (c : Connection) (input : Input) (now : Instant) :
    (c.handle input now).1.lastRecvIframe
      = if (c.accepts input).isSome then some now else c.lastRecvIframe :=
  (lastRecvIframe_runTimers _ now).trans (lastRecvIframe_onInput c input now)

/-! ## What `t2` checks -/

/-- Timers that leave a connection in the data-transfer phase have let `t2`
acknowledge what is due. -/
theorem t2Due_of_transfer {c : Connection} {now : Instant}
    (htr : (c.runTimers now).state.isTransfer = true)
    (hn : (c.runTimers now).unackedRecv ≠ 0) : c.t2Due now = false := by
  have hun : ∀ d : Connection, (d.runT3 now).runStopping.unackedRecv = d.unackedRecv := by
    intro d
    have h₃ : (d.runT3 now).unackedRecv = d.unackedRecv := by
      obtain h | ⟨-, h⟩ := runT3_eq d now
      · rw [h]
      · rw [h]
        rfl
    obtain h | ⟨-, h⟩ := runStopping_eq (d.runT3 now)
    · rw [h, h₃]
    · rw [h, ← h₃, transition_eq]
      rfl
  unfold runTimers at htr hn
  split at htr
  · -- an overdue ACK closes the connection
    rw [timeOut, transition_state] at htr
    exact absurd htr (by decide)
  · rename_i h₁
    rw [if_neg h₁, hun] at hn
    by_contra hdue
    rw [runT2, if_pos (Bool.not_eq_false _ ▸ hdue)] at hn
    exact hn rfl

end Connection

/-! ## The deadline over runs -/

section Deadline

variable {role : Role} {config : Config} {h : List Call} {c : Connection}

/-- As many I-frames wait as `unacked_recv` says. -/
theorem length_waiting_of_run (r : Run Connection.step (Connection.new role config) h c) :
    (waiting h).length = c.unackedRecv :=
  (length_waiting h).trans (recvInv_of_run r).since

/-- **As long as no deadline is moved, every waiting I-frame arrived at
`last_recv_iframe`.** -/
theorem lastRecvIframe_of_run (r : Run Connection.step (Connection.new role config) h c)
    (hno : ∀ k ∈ h, ¬ k.before.postponesT2 k.input) :
    ∀ t ∈ waiting h, c.lastRecvIframe = some t := by
  induction r with
  | nil => exact fun t ht => absurd ht List.not_mem_nil
  | @snoc g d r i ih =>
    have ih := ih fun k hk => hno k (List.mem_append_left _ hk)
    have hnot : ¬ d.postponesT2 i :=
      hno _ List.mem_concat_self
    have hlast := lastRecvIframe_handle d i.1 i.2
    have htime := (recvInv_of_run (r.snoc i)).timely
    have hlen := length_waiting_of_run (r.snoc i)
    intro t ht
    rw [waiting_snoc] at ht hlen
    -- Nothing waits behind an acknowledgement.
    split at ht
    · rename_i hn
      rw [if_pos hn, List.length_append, length_waiting_of_run r] at hlen
      refine Eq.trans hlast ?_
      cases hacc : d.accepts i.1 with
      | none =>
        have harr : arrival (call Connection.step d i) = [] := by
          rw [arrival, call_before, call_input, hacc]
          rfl
        rw [harr, List.append_nil] at ht
        exact ih t ht
      | some f =>
        have harr : arrival (call Connection.step d i) = [i.2] := by
          rw [arrival, call_before, call_input, hacc]
          rfl
        rw [harr] at ht hlen
        obtain ht | ht := List.mem_append.mp ht
        · -- one waits already: it arrived now, or the new one would make `w`
          have hpos : 0 < d.unackedRecv := by
            rw [← length_waiting_of_run r]
            exact List.length_pos_of_mem ht
          have hcfg : (Connection.step d i).1.config = d.config :=
            congrArg Prod.snd (ident_handle d i.1 i.2)
          have hw : d.unackedRecv + 1 < d.config.w.toNat := by
            unfold Connection.Timely at htime
            rw [← hlen, hcfg, List.length_singleton] at htime
            omega
          have hsame : d.lastRecvIframe = some i.2 := by
            by_contra hne
            exact hnot ⟨by rw [hacc]; rfl, hpos, hw, hne⟩
          exact hsame.symm.trans (ih t ht)
        · rw [List.mem_singleton.mp ht]
          rfl
    · exact absurd ht List.not_mem_nil

end Deadline

/-- **The acknowledgement deadline.** In a run in which no call accepts an
I-frame later than one that waits without making `w`, every call that leaves
the connection in the data-transfer phase leaves no I-frame waiting that
arrived `t2` ago or longer. -/
theorem ack_deadline {role : Role} {config : Config} {h : List Call}
    {c : Connection} (r : Run Connection.step (Connection.new role config) h c)
    (i : Input × Instant) (hno : ∀ k ∈ h ++ [call Connection.step c i],
      ¬ k.before.postponesT2 k.input) (htr : (c.step i).1.state.isTransfer = true) :
    ∀ t ∈ waiting (h ++ [call Connection.step c i]), i.2 - t < config.t2 := by
  intro t ht
  have hlast := lastRecvIframe_of_run (r.snoc i) hno t ht
  have hun : (c.step i).1.unackedRecv ≠ 0 := by
    rw [← length_waiting_of_run (r.snoc i)]
    exact (List.length_pos_of_mem ht).ne'
  have hdue := Connection.t2Due_of_transfer (c := c.onInput i.1 i.2) htr hun
  obtain ⟨-, hcfg, -⟩ := Connection.ident_of_run r
  have hcfg' : (c.onInput i.1 i.2).config = config :=
    (congrArg Prod.snd (Connection.ident_onInput c i.1 i.2)).trans hcfg
  have hsince : (c.onInput i.1 i.2).lastRecvIframe = some t :=
    (Connection.lastRecvIframe_runTimers _ i.2).symm.trans hlast
  -- the counter is not zero before the timers either, so `t2` has not run out
  have hpos : 0 < (c.onInput i.1 i.2).unackedRecv := by
    obtain ⟨n, hn⟩ := Connection.exists_recvView_runTimers (c.onInput i.1 i.2) i.2
    have hu : (c.step i).1.unackedRecv
        = if n = 0 then (c.onInput i.1 i.2).unackedRecv else 0 :=
      congrArg RecvView.unacked hn
    rw [hu] at hun
    split at hun
    · exact Nat.pos_of_ne_zero hun
    · exact absurd rfl hun
  unfold Connection.t2Due Connection.expired at hdue
  rw [hsince, hcfg', decide_eq_true hpos, Bool.true_and,
    decide_eq_false_iff_not, not_le] at hdue
  exact hdue

/-- Two I-frames that arrive together: the deadline of both is kept. -/
theorem ack_deadline_burst :
    let is : List (Input × Instant) :=
      [(.apdu (.u .startDtAct), 0),
       (.apdu (.i (SeqNo.new 0) (SeqNo.new 0) [1]), 1),
       (.apdu (.i (SeqNo.new 1) (SeqNo.new 0) [2]), 1)]
    let e := exec Connection.step (Connection.new .server .default) is
    waiting (e.1 ++ [call Connection.step e.2 (.tick, 10)]) = [1, 1]
      ∧ ∀ t ∈ waiting (e.1 ++ [call Connection.step e.2 (.tick, 10)]),
        10 - t < Config.default.t2 := by
  intro is e
  exact ⟨by decide, ack_deadline (run_exec _ _ is) (.tick, 10) (by decide)
    (by decide)⟩

/-- The deadline is missed: a second I-frame nine seconds after the first
moves it on. -/
theorem ack_deadline_missed :
    ¬ ∀ (role : Role) (config : Config) (h : List Call) (c : Connection)
      (i : Input × Instant), 0 < config.t2 →
      Run Connection.step (Connection.new role config) h c →
      ClockMono (h ++ [call Connection.step c i]) →
      (c.step i).1.state.isTransfer = true →
      ∀ t ∈ waiting (h ++ [call Connection.step c i]), i.2 - t < config.t2 := by
  intro h
  have hlate := h .server .default _ _ (.tick, 10) (by decide)
    (run_exec _ _ [(.apdu (.u .startDtAct), 0),
      (.apdu (.i (SeqNo.new 0) (SeqNo.new 0) [1]), 0),
      (.apdu (.i (SeqNo.new 1) (SeqNo.new 0) [2]), 9)])
    (by decide) (by decide) 0 (by decide)
  exact absurd hlate (by decide)

end Frame104
