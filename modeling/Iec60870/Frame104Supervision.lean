import Iec60870.Frame104Ack
import Iec60870.Frame104Deadline

/-!
# Supervision of a connection

Two clocks watch a connection. What it has sent and wants an answer to, an
I-frame or a TESTFR_act, is waited for at most `t1`; and a link on which
nothing has moved for `t3` is tested.

The state machine looks at neither as a whole. Of the unacknowledged I-frames
`run_timers` reads the first one only, which is the oldest because entries are
appended with the clock of the call and the clock does not go back
(`Stamps.sorted`). And the last APDU is not stored: it is the later of two
instants that the handlers set wherever they note an arrival or queue an APDU
(`Emits`).

What the clocks are about is read off the history here: `lastTime` the last
call of a kind, `testOutstanding` the TESTFR_act that waits for an answer. The
fields of a connection agree with them in every run (`timeInv_of_run`), and
`supervision` puts together what the timers then guarantee after every call.
-/

open Machine

namespace Frame104

open Connection

/-! ## The history -/

/-- The instants of the calls of a history. -/
def clock (h : List Call) : List Instant := h.map fun k => k.input.2

/-- When the last call of a kind was made. -/
def lastTime (p : Call → Bool) (h : List Call) : Option Instant :=
  (h.filter p).getLast?.map fun k => k.input.2

/-- The call brings an APDU. -/
def receives (k : Call) : Bool := k.input.1.isApdu

/-- The call sends an APDU. -/
def transmits (k : Call) : Bool := !(sends k.actions).isEmpty

/-- **When the last APDU was sent or received.** -/
def lastIo (h : List Call) : Option Instant :=
  lastTime (fun k => transmits k || receives k) h

/-- **When `act` was sent that waits for its `con`**, call by call. -/
def outstanding (act con : UFunction) (h : List Call) : Option Instant :=
  h.foldl (fun t k =>
    if .u act ∈ sends k.actions then some k.input.2
    else if k.input.1 = .apdu (.u con) then none
    else t) none

/-- **When the TESTFR_act was sent that waits for its TESTFR_con.** -/
def testOutstanding : List Call → Option Instant := outstanding .testFrAct .testFrCon

section History

variable (h : List Call) (k : Call) {p : Call → Bool} {t : Instant}

theorem lastTime_snoc (p : Call → Bool) :
    lastTime p (h ++ [k]) = if p k then some k.input.2 else lastTime p h := by
  unfold lastTime
  rw [List.filter_append]
  by_cases hk : p k = true
  · rw [if_pos hk, List.filter_singleton, hk, cond_true, List.getLast?_concat]
    rfl
  · rw [if_neg hk, List.filter_singleton, Bool.eq_false_iff.mpr hk, cond_false, List.append_nil]

theorem lastTime_mem (ht : lastTime p h = some t) : t ∈ clock h := by
  obtain ⟨k, hk, rfl⟩ := Option.map_eq_some_iff.mp ht
  exact List.mem_map.mpr ⟨k, (List.mem_filter.mp (List.mem_of_getLast? hk)).1, rfl⟩

theorem outstanding_snoc (act con : UFunction) : outstanding act con (h ++ [k])
      = if .u act ∈ sends k.actions then some k.input.2
        else if k.input.1 = .apdu (.u con) then none
        else outstanding act con h := by
  rw [outstanding, List.foldl_append]
  rfl

theorem clock_snoc : clock (h ++ [k]) = clock h ++ [k.input.2] := by
  rw [clock, List.map_append]
  rfl

variable {h k}

/-- No call was made later than the last one. -/
theorem le_of_mem_clock (hc : ClockMono (h ++ [k])) (ht : t ∈ clock h) : t ≤ k.input.2 := by
  obtain ⟨k', hk', rfl⟩ := List.mem_map.mp ht
  exact (clockMono_snoc.mp hc).2 k' hk'

/-- **The later of two last calls is the last call of either kind.** -/
theorem max_lastTime {p q : Call → Bool} (hc : ClockMono h) :
    ([lastTime p h, lastTime q h].filterMap id).max? = lastTime (fun k => p k || q k) h := by
  induction h using List.reverseRecOn with
  | nil => rfl
  | append_singleton h k ih =>
    have hle {p : Call → Bool} : ∀ t, lastTime p h = some t → t ≤ k.input.2 :=
      fun t ht => le_of_mem_clock hc (lastTime_mem h ht)
    rw [lastTime_snoc, lastTime_snoc, lastTime_snoc]
    have hor : ∀ x : Option Instant, (∀ t, x = some t → t ≤ k.input.2) →
        ([some k.input.2, x].filterMap id).max? = some k.input.2
          ∧ ([x, some k.input.2].filterMap id).max? = some k.input.2 := by
      intro x hx
      cases x with
      | none => exact ⟨rfl, rfl⟩
      | some t =>
        refine ⟨congrArg some (max_eq_left (hx t rfl)), congrArg some (max_eq_right (hx t rfl))⟩
    cases hpk : p k with
    | true =>
      refine (hor _ ?_).1
      intro t ht
      split at ht
      · exact le_of_eq (Option.some.inj ht).symm
      · exact hle t ht
    | false =>
      cases hqk : q k with
      | true => exact (hor _ hle).2
      | false => exact ih (clockMono_snoc.mp hc).1

end History

namespace Connection

/-! ## The unacknowledged I-frames -/

/-- **A list of entries moves on**: entries go from its front, and others are
appended with the clock of the call. -/
def Shifts (now : Instant) (l l' : List (SeqNo × Instant)) : Prop :=
  ∃ n new, l' = l.drop n ++ new ∧ ∀ e ∈ new, e.2 = now

variable {c : Connection} {l : List (SeqNo × Instant)} {input : Input} {now : Instant}

section

variable (c : Connection) (input : Input) (now : Instant)

/-- **What an input does to the unacknowledged I-frames**: those it
acknowledges go, and those that are sent are appended. -/
theorem exists_sent_onInput :
    ∃ new, (c.onInput input now).sent = c.sent.drop (c.dropped input) ++ new
      ∧ ∀ e ∈ new, e.2 = now := by
  obtain ⟨fs, -, hsent⟩ := slides_onInput c input now
  refine ⟨_, hsent, ?_⟩
  intro e he
  obtain ⟨f, -, rfl⟩ := List.mem_map.mp he
  rfl

theorem shifts_onInput : Shifts now c.sent (c.onInput input now).sent :=
  ⟨c.dropped input, exists_sent_onInput c input now⟩

/-- The timers leave them alone. -/
theorem sent_handle_eq : (c.handle input now).1.sent = (c.onInput input now).sent :=
  congrArg SendView.sent (sendView_runTimers (c.onInput input now) now)

end

/-- **The entries are in the order they were sent in**, each with the clock of
a call. -/
structure Stamps (ts : List Instant) (l : List (SeqNo × Instant)) : Prop where
  sorted : l.Pairwise fun e e' => e.2 ≤ e'.2
  stamped : ∀ e ∈ l, e.2 ∈ ts

/-- Entries that move on stay in order, if the clock does not go back. -/
theorem Stamps.shift {ts : List Instant} {l l' : List (SeqNo × Instant)}
    (h : Stamps ts l) (hs : Shifts now l l') (hnow : ∀ t ∈ ts, t ≤ now) :
    Stamps (ts ++ [now]) l' := by
  obtain ⟨n, new, rfl, hnew⟩ := hs
  have hold : ∀ e ∈ l.drop n, e.2 ∈ ts := fun e he => h.stamped e (List.mem_of_mem_drop he)
  constructor
  · rw [List.pairwise_append]
    refine ⟨h.sorted.sublist (List.drop_sublist n l), ?_, ?_⟩
    · refine List.pairwise_of_forall_mem_list ?_
      intro e he e' he'
      rw [hnew e he, hnew e' he']
    · intro e he e' he'
      rw [hnew e' he']
      exact hnow _ (hold e he)
  · intro e he
    obtain he | he := List.mem_append.mp he
    · exact List.mem_append_left _ (hold e he)
    · rw [hnew e he]
      exact List.mem_concat_self

/-! ## The timers -/

/-- An overdue answer is the only reason to time out. -/
theorem ackTimeout_mem_iff (hc : c.actions = []) (input : Input) (now : Instant) :
    .disconnect .ackTimeout ∈ (c.handle input now).2
      ↔ (c.onInput input now).t1Expired now = true := by
  have hverdict : .ackTimeout ∉ c.verdict input := by
    unfold verdict
    split
    · decide
    · split <;> decide
  rw [disconnect_handle_iff hc, or_iff_right hverdict, timerVerdict]
  by_cases ht1 : (c.onInput input now).t1Expired now = true
  · rw [if_pos ht1]
    exact iff_of_true (List.mem_singleton_self _) ht1
  · rw [if_neg ht1]
    refine iff_of_false ?_ ht1
    split <;> decide

/-- After the timers no test is due. -/
theorem t3Due_runTimers (c : Connection) (now : Instant) : (c.runTimers now).t3Due now = false := by
  have hstate : ∀ d : Connection, d.state.isTransfer = false → d.t3Due now = false := by
    intro d hd
    rw [t3Due, hd]
    rfl
  have htested : ((c.runT2 now).runT3 now).t3Due now = false := by
    unfold runT3
    split
    · rw [t3Due]
      show (_ && false && _) = false
      rw [Bool.and_false]
      rfl
    · exact Bool.eq_false_iff.mpr ‹_›
  unfold runTimers
  split
  · exact hstate _ (congrArg State.isTransfer (transition_state _ .closed))
  · obtain h | ⟨-, h⟩ := runStopping_eq ((c.runT2 now).runT3 now)
    · rw [h]
      exact htested
    · rw [h]
      exact hstate _ (congrArg State.isTransfer (transition_state _ .stopped))

/-- A connection that is still in data transfer was so before. -/
theorem isTransfer_of_runTimers
    (h : (c.runTimers now).state.isTransfer = true) : c.state.isTransfer = true := by
  rw [(verdict_runTimers c now).2] at h
  split at h
  · cases h
  · split at h
    · cases h
    · exact h

/-- Data transfer is entered with an APDU of the peer. -/
theorem isTransfer_of_target (h : (c.target input).isTransfer = true) (hin : input.isApdu = false) :
    c.state.isTransfer = true := by
  cases input with
  | apdu m => cases hin
  | startDt =>
    change (if _ then State.starting else c.state).isTransfer = true at h
    split at h
    · cases h
    · exact h
  | stopDt =>
    change (if c.state = .active then _ else c.state).isTransfer = true at h
    split at h
    · rename_i hs
      rw [hs]
      rfl
    · exact h
  | sendAsdu | tick => exact h

end Connection

/-! ## Every run -/

/-- **The clocks of a connection agree with its history.** -/
structure TimeInv (h : List Call) (c : Connection) : Prop where
  /-- The unacknowledged I-frames, in the order they were sent in. -/
  stamps : Connection.Stamps (clock h) c.sent
  test : c.testSent = testOutstanding h
  sent : c.lastSendAny = lastTime transmits h
  received : c.lastRecvAny = lastTime receives h
  /-- Data transfer is not entered without an APDU of the peer. -/
  heard : c.state.isTransfer = true → c.lastRecvAny.isSome = true

section Run

variable {role : Role} {config : Config} {h : List Call} {c : Connection}

/-- One call keeps the clocks. -/
theorem TimeInv.step (hinv : TimeInv h c) (hact : c.actions = []) (i : Input × Instant)
    (hclock : ClockMono (h ++ [call Connection.step c i])) :
    TimeInv (h ++ [call Connection.step c i]) (c.step i).1 := by
  obtain ⟨ms, hemits, hsends, -⟩ := exists_emits_handle hact i.1 i.2
  rw [← hsends] at hemits
  have hnow : ∀ t ∈ clock h, t ≤ i.2 := fun t ht => le_of_mem_clock hclock ht
  have hreceived : (c.step i).1.lastRecvAny
      = if i.1.isApdu then some i.2 else c.lastRecvAny := hemits.lastRecvAny
  refine ⟨?_, ?_, ?_, ?_, ?_⟩
  · rw [clock_snoc]
    refine hinv.stamps.shift ?_ hnow
    show Connection.Shifts i.2 c.sent (c.handle i.1 i.2).1.sent
    rw [sent_handle_eq]
    exact shifts_onInput c i.1 i.2
  · have htest : c.testSent = outstanding .testFrAct .testFrCon h := hinv.test
    rw [testOutstanding, outstanding_snoc, ← htest]
    exact hemits.testSent
  · rw [lastTime_snoc, ← hinv.sent]
    refine hemits.lastSendAny.trans ?_
    show _ = if (!(sends (c.handle i.1 i.2).2).isEmpty) = true then some i.2 else c.lastSendAny
    cases sends (c.handle i.1 i.2).2 with
    | nil | cons => rfl
  · rw [lastTime_snoc, ← hinv.received]
    exact hreceived
  · intro htr
    rw [hreceived]
    cases hin : i.1.isApdu with
    | true => rfl
    | false =>
      have hbefore := isTransfer_of_runTimers (c := c.onInput i.1 i.2) htr
      rw [state_onInput] at hbefore
      exact hinv.heard (isTransfer_of_target hbefore hin)

/-- **The clocks agree with the history in every run.** -/
theorem timeInv_of_run (r : Run Connection.step (Connection.new role config) h c)
    (hclock : ClockMono h) : TimeInv h c := by
  induction r with
  | nil =>
    exact ⟨⟨List.Pairwise.nil, fun _ he => absurd he List.not_mem_nil⟩, rfl, rfl, rfl,
      fun htr => nomatch htr⟩
  | @snoc g d r i ih =>
    obtain ⟨-, -, hact⟩ := ident_of_run r
    exact (ih (clockMono_snoc.mp hclock).1).step hact i hclock

end Run

/-! ## Supervision -/

/-- **What supervision guarantees after a call**: `h` is the history with the
call, made at `now` and answered with `as`, and `c` the connection after it. -/
structure Supervised (config : Config) (h : List Call) (c : Connection) (now : Instant)
    (as : List Action) : Prop where
  /-- While the connection is open, no answer has been waited for `t1`. -/
  young : c.state ≠ .closed → (∀ e ∈ c.sent, now - e.2 < config.t1)
      ∧ ∀ t, testOutstanding h = some t → now - t < config.t1
  /-- In data transfer the link has been silent for less than `t3`, or is being
  tested. -/
  tested : c.state.isTransfer = true → testOutstanding h = none →
    ∃ t, lastIo h = some t ∧ now - t < config.t3
  /-- A time-out has a cause: the oldest unacknowledged I-frame, or the
  TESTFR_act that waits for an answer. -/
  due : .disconnect .ackTimeout ∈ as →
    (∃ e, c.sent.head? = some e ∧ (∀ e' ∈ c.sent, e.2 ≤ e'.2) ∧ config.t1 ≤ now - e.2)
      ∨ ∃ t, testOutstanding h = some t ∧ config.t1 ≤ now - t

namespace Connection

variable {since : Option Instant} {limit : ℕ} {now : Instant} {ts : List Instant}
  {l : List (SeqNo × Instant)}

theorem expired_eq_false :
    expired since limit now = false ↔ ∀ t, since = some t → now - t < limit := by
  cases since with
  | none | some => simp [expired]

theorem expired_eq_true :
    expired since limit now = true ↔ ∃ t, since = some t ∧ limit ≤ now - t := by
  cases since with
  | none | some => simp [expired]

/-- The first of the entries is the oldest. -/
theorem Stamps.head_le (hl : Stamps ts l) {e : SeqNo × Instant} (he : l.head? = some e) :
    ∀ e' ∈ l, e.2 ≤ e'.2 := by
  cases l with
  | nil => cases he
  | cons e₀ rest =>
    obtain rfl := Option.some.inj he
    intro e' he'
    obtain rfl | he' := List.mem_cons.mp he'
    · exact le_rfl
    · exact List.rel_of_pairwise_cons hl.sorted he'

/-- If the first entry has not waited for a time, none has. -/
theorem Stamps.young (hl : Stamps ts l) (h : expired (l.head?.map Prod.snd) limit now = false) :
    ∀ e ∈ l, now - e.2 < limit := by
  intro e he
  obtain ⟨e₀, he₀⟩ : ∃ e₀, l.head? = some e₀ :=
    Option.isSome_iff_exists.mp (List.isSome_head?.mpr (List.ne_nil_of_mem he))
  rw [he₀] at h
  calc now - e.2 ≤ now - e₀.2 := Nat.sub_le_sub_left (hl.head_le he₀ e he) now
    _ < limit := expired_eq_false.mp h e₀.2 rfl

/-- The test that waits after the timers is the one before them, or new. -/
theorem testSent_runTimers (c : Connection) (now : Instant) :
    (c.runTimers now).testSent = c.testSent ∨ (c.runTimers now).testSent = some now := by
  obtain ⟨ms, hms, -⟩ := follows_runTimers now c
  rw [hms.testSent]
  split
  · exact Or.inr rfl
  · exact Or.inl rfl

/-- A time-out sends no test. -/
theorem testSent_of_t1Expired {c : Connection}
    (h : c.t1Expired now = true) : (c.runTimers now).testSent = c.testSent := by
  rw [runTimers, if_pos h, timeOut, transition_eq]
  rfl

end Connection

/-- **Supervision.** In every run whose clock does not go back, after each
call: an open connection has waited for no answer as long as `t1`; a link in
data transfer has been silent for less than `t3` or is being tested; and a
time-out is reported only if the oldest I-frame or the test is overdue. -/
theorem supervision {role : Role} {config : Config} {h : List Call} {c : Connection}
    (ht1 : 0 < config.t1) (r : Run Connection.step (Connection.new role config) h c)
    (i : Input × Instant) (hclock : ClockMono (h ++ [call Connection.step c i])) :
    Supervised config (h ++ [call Connection.step c i]) (c.step i).1 i.2 (c.step i).2 := by
  obtain ⟨-, hcfg, hact⟩ := Connection.ident_of_run r
  obtain ⟨-, hcfg', -⟩ := Connection.ident_of_run (r.snoc i)
  have hinv := timeInv_of_run (r.snoc i) hclock
  have hmid : (c.onInput i.1 i.2).config = config :=
    (congrArg Prod.snd (Connection.ident_onInput c i.1 i.2)).trans hcfg
  have hsent : (c.step i).1.sent = (c.onInput i.1 i.2).sent :=
    Connection.sent_handle_eq c i.1 i.2
  refine ⟨?_, ?_, ?_⟩
  · intro hopen
    have hlive : (c.onInput i.1 i.2).t1Expired i.2 = false := by
      by_contra ht
      exact hopen ((Connection.verdict_runTimers _ i.2).2.trans
        (if_pos (Bool.not_eq_false _ ▸ ht)))
    rw [Connection.t1Expired, Bool.or_eq_false_iff, hmid, ← hsent] at hlive
    refine ⟨hinv.stamps.young hlive.1, ?_⟩
    intro t ht
    rw [← hinv.test] at ht
    obtain hold | hnew := Connection.testSent_runTimers (c.onInput i.1 i.2) i.2
    · exact Connection.expired_eq_false.mp hlive.2 t (hold.symm.trans ht)
    · obtain rfl : i.2 = t := Option.some.inj (hnew.symm.trans ht)
      rw [Nat.sub_self]
      exact ht1
  · intro htr htest
    rw [← hinv.test] at htest
    have hio : ([(c.step i).1.lastSendAny, (c.step i).1.lastRecvAny].filterMap id).max?
        = lastIo (h ++ [call Connection.step c i]) := by
      rw [hinv.sent, hinv.received]
      exact max_lastTime hclock
    have hdue : (c.step i).1.t3Due i.2 = false :=
      Connection.t3Due_runTimers (c.onInput i.1 i.2) i.2
    rw [Connection.t3Due, htr, htest, hio, hcfg'] at hdue
    -- something was received, or there would be no data transfer
    obtain ⟨t, ht⟩ : ∃ t, lastIo (h ++ [call Connection.step c i]) = some t := by
      rw [← hio]
      obtain ⟨t, ht⟩ := Option.isSome_iff_exists.mp (hinv.heard htr)
      rw [ht]
      cases (c.step i).1.lastSendAny with
      | none | some => exact ⟨_, rfl⟩
    exact ⟨t, ht, Connection.expired_eq_false.mp hdue t ht⟩
  · intro htimeout
    have ht := (Connection.ackTimeout_mem_iff hact i.1 i.2).mp htimeout
    have htest : (c.step i).1.testSent = (c.onInput i.1 i.2).testSent :=
      Connection.testSent_of_t1Expired ht
    rw [Connection.t1Expired, Bool.or_eq_true, hmid, ← hsent, ← htest, hinv.test] at ht
    obtain hfirst | htested := ht
    · obtain ⟨t, hmap, hlate⟩ := Connection.expired_eq_true.mp hfirst
      obtain ⟨e, he, rfl⟩ := Option.map_eq_some_iff.mp hmap
      exact Or.inl ⟨e, he, hinv.stamps.head_le he, hlate⟩
    · exact Or.inr (Connection.expired_eq_true.mp htested)

/-- A link that falls silent: it is tested after `t3`, and given up when `t1`
has passed without an answer. -/
theorem supervision_silentLink :
    let is : List (Input × Instant) := [(.apdu (.u .startDtAct), 0), (.tick, 20)]
    let e := exec Connection.step (Connection.new .server .default) is
    testOutstanding e.1 = some 20
      ∧ .disconnect .ackTimeout ∈ (e.2.step (.tick, 35)).2
      ∧ Supervised .default (e.1 ++ [call Connection.step e.2 (.tick, 35)])
        (e.2.step (.tick, 35)).1 35 (e.2.step (.tick, 35)).2 := by
  intro is e
  exact ⟨by decide, by decide, supervision (by decide) (run_exec _ _ is) (.tick, 35)
    (by decide)⟩

end Frame104
