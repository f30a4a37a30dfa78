import Iec60870.Frame104Closed
import Iec60870.Frame104Handshake
import Iec60870.Frame104Supervision

/-!
# The unsupervised handshakes

`Config::t1` is "time to wait for an ACK of a sent I- or U-frame". Of the
U-frames that want an answer there are three: TESTFR_act, and the STARTDT_act
and STOPDT_act with which a client enters `Starting` and `Stopping`. When
TESTFR_act was sent is noted (`test_sent`), and `run_timers` reads it; when the
other two were sent is not noted, and nothing reads it. A server that never
confirms a STARTDT_act leaves its client in `Starting` for good.

That a handshake times out is therefore an accident: it does when something
else does. `Overlooks` is the condition on the state before a call under which
nothing else is overdue, neither the TESTFR_act in flight nor the oldest I-frame
the input does not acknowledge, and `handshake_supervised_iff` says that a call
supervises the handshake exactly if it does not meet the condition.
-/

open Machine

namespace Frame104

open Connection

/-! ## What is waited for -/

/-- The function that puts a client into a state of a handshake, and the one
that confirms it. -/
def State.handshake : State → Option (UFunction × UFunction)
  | .starting => some (.startDtAct, .startDtCon)
  | .stopping => some (.stopDtAct, .stopDtCon)
  | .stopped | .active | .closed => none

theorem State.handshake_eq_some {state : State} {f : UFunction × UFunction} :
    state.handshake = some f ↔ (state = .starting ∧ f = (.startDtAct, .startDtCon))
        ∨ (state = .stopping ∧ f = (.stopDtAct, .stopDtCon)) := by
  cases state <;> simp [State.handshake, eq_comm]

/-- **When the request was sent whose confirmation a state waits for.** -/
def awaited (state : State) (h : List Call) : Option Instant :=
  state.handshake.bind fun f => outstanding f.1 f.2 h

/-- An input confirms what a state waits for. -/
def Input.confirms (input : Input) (state : State) : Prop :=
  ∃ f ∈ state.handshake, input = .apdu (.u f.2)

instance (input : Input) (state : State) : Decidable (input.confirms state) :=
  inferInstanceAs (Decidable (∃ f ∈ state.handshake, _))

/-- **A call supervises the handshake**: `h` is the history with the call, made
at `now` and answered with `as`, which took the connection from one state to
the other. -/
structure HandshakeSupervised (config : Config) (h : List Call) (before after : State)
    (now : Instant) (as : List Action) : Prop where
  /-- No confirmation has been waited for as long as `t1`. -/
  young : ∀ t, awaited after h = some t → now - t < config.t1
  /-- One that has ends the connection, unless a protocol error does. -/
  timedOut : ∀ t, awaited before h = some t → config.t1 ≤ now - t →
    .disconnect .protocolError ∉ as → .disconnect .ackTimeout ∈ as

namespace Connection

/-- **The calls that overlook a handshake**: its request is overdue after the
history `h`, the input neither confirms it nor is a protocol error, and nothing
else is overdue. -/
def Overlooks (h : List Call) (c : Connection) (i : Input × Instant) : Prop :=
  (∃ t, awaited c.state h = some t ∧ c.config.t1 ≤ i.2 - t)
    ∧ ¬ i.1.confirms c.state ∧ c.rejects i.1 = false
    ∧ expired (c.probe i.1) c.config.t1 i.2 = false
    ∧ expired ((c.sent.drop (c.dropped i.1)).head?.map Prod.snd) c.config.t1 i.2 = false

/-! ## What a call does to a handshake -/

section Handle

variable {c : Connection} {input : Input} {now : Instant} {f : UFunction × UFunction}

/-- In a handshake its request is not sent again. -/
theorem not_mem_of_handshake (hact : c.actions = []) (hf : c.state.handshake = some f) :
    .u f.1 ∉ sends (c.handle input now).2 := by
  intro hm
  obtain ⟨hs, rfl⟩ | ⟨hs, rfl⟩ := State.handshake_eq_some.mp hf
  · obtain ⟨-, -, hstopped⟩ := control_startDtAct (control_of_mem hact rfl hm)
    exact absurd (hs.symm.trans hstopped) (by decide)
  · obtain ⟨-, hactive, -⟩ := control_stopDtAct (control_of_mem hact rfl hm)
    exact absurd (hs.symm.trans hactive) (by decide)

/-- An input that is rejected leads to no handshake. -/
theorem not_rejects_of_handshake (hf : (c.target input).handshake = some f) :
    c.rejects input = false := by
  refine Bool.eq_false_iff.mpr fun hrej => ?_
  have hclosed : c.target input = .closed := if_pos hrej
  rw [hclosed] at hf
  cases hf

/-- **A handshake is entered by sending its request.** -/
theorem handshake_of_target (hr : c.role = .client) (hf : (c.target input).handshake = some f) :
    c.target input = c.state ∨ c.control input = some f.1 := by
  have hrej := Bool.eq_false_iff.mp (not_rejects_of_handshake hf)
  unfold target at hf ⊢
  rw [if_neg hrej] at hf ⊢
  cases input with
  | startDt =>
    by_cases hc : c.role = .client ∧ c.state = .stopped
    · have hstate : (if c.role = .client ∧ c.state = .stopped then State.starting
          else c.state) = .starting := if_pos hc
      obtain rfl := Option.some.inj ((congrArg State.handshake hstate).symm.trans hf)
      exact Or.inr (if_pos hc)
    · exact Or.inl (if_neg hc)
  | stopDt =>
    by_cases hs : c.state = .active
    · have hstate : (if c.state = .active then
          if c.role = .client then State.stopping else .stopped
          else c.state) = .stopping := (if_pos hs).trans (if_pos hr)
      obtain rfl := Option.some.inj ((congrArg State.handshake hstate).symm.trans hf)
      exact Or.inr (if_pos ⟨hs, hr⟩)
    · exact Or.inl (if_neg hs)
  | sendAsdu | tick => exact Or.inl rfl
  | apdu m =>
    cases m with
    | i | s => exact Or.inl rfl
    | u function =>
      cases function with
      | startDtAct | startDtCon | stopDtAct => cases hf
      | stopDtCon =>
        by_cases he : c.sent.isEmpty = true
        · have hstate : c.uTarget .stopDtCon = .stopped := if_pos he
          cases (congrArg State.handshake hstate).symm.trans hf
        · exact Or.inl (if_neg he)
      | testFrAct | testFrCon => exact Or.inl rfl

/-- A call that ends in a handshake has not closed the connection. -/
theorem target_of_handshake (hf : (c.handle input now).1.state.handshake = some f) :
    (c.onInput input now).t1Expired now = false
      ∧ (c.handle input now).1.state = c.target input := by
  have hstate := (verdict_runTimers (c.onInput input now) now).2
  change (c.handle input now).1.state = _ at hstate
  rw [hstate] at hf ⊢
  split at hf
  · cases hf
  · split at hf
    · cases hf
    · rename_i ht1 hd
      rw [if_neg ht1, if_neg hd]
      exact ⟨Bool.eq_false_iff.mpr ht1, state_onInput c input now⟩

/-- **What `t1` looks at in a call**: the oldest I-frame the input does not
acknowledge, and the TESTFR_act that waits for an answer. -/
theorem t1Expired_onInput (ht1 : 0 < c.config.t1) (input : Input) (now : Instant) :
    (c.onInput input now).t1Expired now
      = (expired ((c.sent.drop (c.dropped input)).head?.map Prod.snd) c.config.t1 now
        || expired (c.probe input) c.config.t1 now) := by
  have hcfg : (c.onInput input now).config = c.config :=
    congrArg Prod.snd (ident_onInput c input now)
  obtain ⟨new, hsent, hnew⟩ := exists_sent_onInput c input now
  rw [t1Expired, hcfg, testSent_onInput, hsent]
  refine congrArg (· || expired (c.probe input) c.config.t1 now) ?_
  cases hleft : c.sent.drop (c.dropped input) with
  | cons e rest => rfl
  | nil =>
    -- an I-frame of this call has not waited yet
    refine expired_eq_false.mpr ?_
    intro t ht
    obtain ⟨e, he, rfl⟩ := Option.map_eq_some_iff.mp ht
    rw [hnew e (List.mem_of_mem_head? he), Nat.sub_self]
    exact ht1

end Handle

end Connection

/-! ## Every run -/

section Run

variable {h : List Call} {c : Connection}

/-- In a handshake only its confirmation ends the wait. -/
theorem awaited_snoc (hact : c.actions = []) (i : Input × Instant) :
    awaited c.state (h ++ [call Connection.step c i])
      = if i.1.confirms c.state then none else awaited c.state h := by
  have hsnoc : ∀ f, c.state.handshake = some f →
      outstanding f.1 f.2 (h ++ [call Connection.step c i])
        = if i.1 = .apdu (.u f.2) then none else outstanding f.1 f.2 h := by
    intro f hf
    rw [outstanding_snoc]
    exact if_neg (not_mem_of_handshake hact hf)
  by_cases hcon : i.1.confirms c.state
  · rw [if_pos hcon]
    obtain ⟨f, hf, hin⟩ := hcon
    rw [awaited, hf, Option.bind_some, hsnoc f hf]
    exact if_pos hin
  · rw [if_neg hcon]
    unfold awaited
    cases hf : c.state.handshake with
    | none => rfl
    | some f =>
      rw [Option.bind_some, hsnoc f hf]
      exact if_neg fun hin => hcon ⟨f, hf, hin⟩

/-- **A request in flight after a call was sent by it, or was in flight before**
in the same state, and then no timer has expired and the input was not
rejected. -/
theorem awaited_cases (hr : c.role = .client) (hact : c.actions = []) {i : Input × Instant}
    {t : Instant}
    (ht : awaited (c.step i).1.state (h ++ [call Connection.step c i]) = some t) :
    t = i.2 ∨ (awaited c.state (h ++ [call Connection.step c i]) = some t
        ∧ c.rejects i.1 = false ∧ (c.onInput i.1 i.2).t1Expired i.2 = false) := by
  obtain ⟨f, hf, hout⟩ := Option.bind_eq_some_iff.mp ht
  obtain ⟨hlive, hstate⟩ := target_of_handshake (c := c) hf
  have htarget : (c.target i.1).handshake = some f := hstate ▸ hf
  obtain hstay | hsent := handshake_of_target hr htarget
  · have hsame : (c.step i).1.state = c.state := hstate.trans hstay
    rw [hsame] at ht
    exact Or.inr ⟨ht, not_rejects_of_handshake htarget, hlive⟩
  · have hm : .u f.1 ∈ sends (call Connection.step c i).actions :=
      mem_of_control hact hsent
    rw [outstanding_snoc, if_pos hm] at hout
    exact Or.inl (Option.some.inj hout).symm

end Run

/-- **A client's handshakes are supervised exactly where they are not
overlooked.** -/
theorem handshake_supervised_iff {config : Config} {h : List Call} {c : Connection}
    (ht1 : 0 < config.t1) (r : Run Connection.step (Connection.new .client config) h c)
    (i : Input × Instant) :
    HandshakeSupervised config (h ++ [call Connection.step c i]) c.state (c.step i).1.state
        i.2 (c.step i).2 ↔ ¬ Connection.Overlooks h c i := by
  obtain ⟨hr, rfl, hact⟩ := Connection.ident_of_run r
  have htimers := Connection.t1Expired_onInput ht1 i.1 i.2
  have hrejects : .disconnect .protocolError ∈ (c.step i).2 ↔ c.rejects i.1 = true :=
    Connection.protocolError_mem_iff hact
  have htimeout : .disconnect .ackTimeout ∈ (c.step i).2
      ↔ (c.onInput i.1 i.2).t1Expired i.2 = true :=
    Connection.ackTimeout_mem_iff hact i.1 i.2
  constructor
  · rintro hsup ⟨⟨t, ht, hage⟩, hcon, hrej, htest, hframe⟩
    have ht' : awaited c.state (h ++ [call Connection.step c i]) = some t := by
      rw [awaited_snoc hact, if_neg hcon]
      exact ht
    have hout := htimeout.mp (hsup.timedOut t ht' hage
      (mt hrejects.mp (Bool.eq_false_iff.mp hrej)))
    rw [htimers, hframe, htest] at hout
    cases hout
  · intro hno
    have htimedOut : ∀ t, awaited c.state (h ++ [call Connection.step c i]) = some t →
        c.config.t1 ≤ i.2 - t → .disconnect .protocolError ∉ (c.step i).2 →
        .disconnect .ackTimeout ∈ (c.step i).2 := by
      intro t ht hage hopen
      rw [awaited_snoc hact] at ht
      by_cases hcon : i.1.confirms c.state
      · rw [if_pos hcon] at ht
        cases ht
      rw [if_neg hcon] at ht
      by_contra hnot
      have hexp := Bool.eq_false_iff.mpr (mt htimeout.mpr hnot)
      rw [htimers, Bool.or_eq_false_iff] at hexp
      exact hno ⟨⟨t, ht, hage⟩, hcon, Bool.eq_false_iff.mpr (mt hrejects.mpr hopen),
        hexp.2, hexp.1⟩
    refine ⟨?_, htimedOut⟩
    intro t ht
    obtain rfl | ⟨hbefore, hrej, hlive⟩ := awaited_cases hr hact ht
    · rw [Nat.sub_self]
      exact ht1
    · by_contra hage
      have hexp := htimeout.mp (htimedOut t hbefore (Nat.not_lt.mp hage)
        (mt hrejects.mp (Bool.eq_false_iff.mp hrej)))
      rw [hlive] at hexp
      cases hexp

/-- A stop that times out together with an I-frame: both have waited for `t1`,
and the connection is given up. -/
theorem handshake_supervised_withData :
    let is : List (Input × Instant) := [(.startDt, 0), (.apdu (.u .startDtCon), 0),
      (.sendAsdu [1], 0), (.stopDt, 0)]
    let e := exec Connection.step (Connection.new .client .default) is
    awaited e.2.state e.1 = some 0
      ∧ .disconnect .ackTimeout ∈ (e.2.step (.tick, 15)).2
      ∧ HandshakeSupervised .default (e.1 ++ [call Connection.step e.2 (.tick, 15)])
        e.2.state (e.2.step (.tick, 15)).1.state 15 (e.2.step (.tick, 15)).2 := by
  intro is e
  refine ⟨by decide, by decide,
    (handshake_supervised_iff (by decide) (run_exec _ _ is) (.tick, 15)).mpr ?_⟩
  rintro ⟨-, -, -, -, hframe⟩
  exact absurd hframe (by decide)

/-- **A client that waits for good**: STARTDT_act is not confirmed, `t1` passes,
and the call reports nothing and leaves the client in `Starting`. -/
theorem handshake_unsupervised :
    let e := exec Connection.step (Connection.new .client .default) [(.startDt, 0)]
    ClockMono (e.1 ++ [call Connection.step e.2 (.tick, 15)])
      ∧ (e.2.step (.tick, 15)).1.state = .starting
      ∧ (e.2.step (.tick, 15)).2 = []
      ∧ ¬ HandshakeSupervised .default (e.1 ++ [call Connection.step e.2 (.tick, 15)])
        e.2.state (e.2.step (.tick, 15)).1.state 15 (e.2.step (.tick, 15)).2 := by
  intro e
  refine ⟨by decide, by decide, by decide, ?_⟩
  intro hsup
  exact absurd (hsup.young 0 (by decide)) (by decide)

end Frame104
