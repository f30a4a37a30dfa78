import Iec60870.Frame104Control

/-!
# What a closed connection still does

A connection that closes should stay closed and fall silent: the I/O layer
is told to tear the transport down, and `Closed` has no way out. Most of the
state machine respects this. A user request has no effect in `Closed`, an
I-frame or an unexpected U-frame only repeats the `Disconnect`, and `t3`
asks for the data-transfer phase first.

Three branches do not look at the state. TESTFR_act is answered whatever
the state is; STOPDT_act is answered by a server whatever the state is, and
moves it to `Stopped`; and `t2`, at the tail of every call, acknowledges
received I-frames even when the call has just closed the connection.
`Connection.leaks` is the condition on the state before a call under which
one of the three is taken with the connection closed or closing, and
`closed_final_iff` shows that a run respects `Closed` exactly when none of
its calls meets it.
-/

open Machine

namespace Frame104

/-- No APDU is sent behind a `Disconnect` of the batch. -/
def silentAfter : List Action → Bool
  | [] => true
  | .disconnect _ :: as => (sends as).isEmpty
  | .sendApdu _ :: as => silentAfter as
  | .deliverAsdu _ :: as => silentAfter as
  | .stateChanged _ :: as => silentAfter as

/-- **A call respects `Closed`**: made in `Closed` it ends there and returns
no `SendApdu`, no `DeliverAsdu` and no `StateChanged`; and if it closes the
connection no `SendApdu` follows the `Disconnect`. -/
def RespectsClosed (c : Call) : Prop :=
  (c.before.state = .closed → (c.before.step c.input).1.state = .closed
        ∧ sends c.actions = [] ∧ deliveries c.actions = []
        ∧ ∀ state, .stateChanged state ∉ c.actions)
    ∧ (c.before.state ≠ .closed → (c.before.step c.input).1.state = .closed →
      silentAfter c.actions = true)

namespace Connection

/-- The TESTFR_act a call still waits for once its input is processed. -/
def probe (c : Connection) (input : Input) : Option Instant :=
  if input = .apdu (.u .testFrCon) then none else c.testSent

/-- No handler but that of TESTFR_con touches it. -/
theorem testSent_onInput (c : Connection) (input : Input) (now : Instant) :
    (c.onInput input now).testSent = c.probe input := by
  have h := course_onInput c input now
  generalize c.onInput input now = d at h ⊢
  cases h with
  | testFrCon => rfl
  | accept send recv asdu h =>
    unfold ackIfDue
    split <;> exact flushPending_testSent _ now
  | refuseU function h =>
    have hne : Input.apdu (.u function) ≠ .apdu (.u .testFrCon) := by
      rintro ⟨⟩
      cases h
    rw [probe, if_neg hne, reject, transition_eq]
    rfl
  | _ => simp [probe, acknowledge, reject, transition_eq, emitU, emitApdu, push, sendIframe]

/-- The `t2` branch is reached and taken: no ACK is overdue, and received
I-frames have waited for `t2`. -/
def t2Taken (c : Connection) (input : Input) (now : Instant) : Bool :=
  !(expired (c.sent.head?.map Prod.snd) c.config.t1 now
      || expired (c.probe input) c.config.t1 now)
    && c.t2Due now

/-- **A call takes a branch that ignores `Closed`**: TESTFR_act, or STOPDT_act
at a server, meets a closed connection; or `t2` is taken on a connection
that is closed or has just rejected its input. -/
def leaks (c : Connection) (i : Input × Instant) : Bool :=
  (c.state == .closed && (i.1 == .apdu (.u .testFrAct)
        || (c.role == .server && i.1 == .apdu (.u .stopDtAct))))
    || ((c.state == .closed || c.rejects i.1) && c.t2Taken i.1 i.2)

/-! ## The timers of a closed connection -/

variable {c : Connection} {d : Connection} {input : Input}

/-- In `Closed` the timers repeat the `Disconnect`, acknowledge, or do
nothing. -/
theorem runTimers_of_closed (h : c.state = .closed) (now : Instant) : c.runTimers now
      = if c.t1Expired now then c.push (.disconnect .ackTimeout)
        else if c.t2Due now then c.emitSupervisory now
        else c := by
  have h₃ : ∀ d : Connection, d.state = .closed → d.runT3 now = d := by
    intro d hd
    unfold runT3 t3Due
    rw [hd]
    rfl
  have h₄ : ∀ d : Connection, d.state = .closed → d.runStopping = d := by
    intro d hd
    unfold runStopping drained
    rw [hd]
    rfl
  have h₂ : (c.runT2 now).state = .closed := by
    obtain he | he := runT2_eq c now <;> rw [he] <;> exact h
  unfold runTimers
  split
  · unfold timeOut transition
    rw [if_neg]
    exact fun hne => hne h
  · rw [h₃ _ h₂, h₄ _ h₂]
    rfl

/-- What the timers look at, once an input that leaves it alone is
processed. -/
theorem t2Taken_eq (now : Instant) (hsent : d.sent = c.sent) (htest : d.testSent = c.probe input)
    (hcfg : d.config = c.config) (hun : d.unackedRecv = c.unackedRecv)
    (hlast : d.lastRecvIframe = c.lastRecvIframe) :
    c.t2Taken input now = (!d.t1Expired now && d.t2Due now) := by
  unfold t2Taken t1Expired t2Due
  rw [hsent, htest, hcfg, hun, hlast]

/-- A closed connection after the timers: silent exactly when `t2` is not
taken. -/
theorem actions_of_closed {now : Instant} (hd : d.state = .closed)
    (ht : c.t2Taken input now = (!d.t1Expired now && d.t2Due now)) :
    (d.runTimers now).state = .closed ∧ ((c.t2Taken input now = true
          ∧ (d.runTimers now).actions = d.actions ++ [.sendApdu (.s d.recvNext)])
        ∨ (c.t2Taken input now = false ∧ ∃ as, (d.runTimers now).actions = d.actions ++ as
            ∧ ∀ a ∈ as, a = .disconnect .ackTimeout)) := by
  rw [runTimers_of_closed hd, ht]
  by_cases h₁ : d.t1Expired now = true
  · rw [if_pos h₁, h₁]
    exact ⟨hd, Or.inr ⟨rfl, _, rfl, fun a ha => List.mem_singleton.mp ha⟩⟩
  · rw [if_neg h₁, Bool.not_eq_true] at *
    rw [h₁]
    by_cases h₂ : d.t2Due now = true
    · rw [if_pos h₂, h₂]
      exact ⟨hd, Or.inl ⟨rfl, rfl⟩⟩
    · rw [if_neg h₂, Bool.eq_false_iff.mpr h₂]
      exact ⟨hd, Or.inr ⟨rfl, [], (List.append_nil _).symm, fun a ha => absurd ha List.not_mem_nil⟩⟩

/-! ## Calls made in `Closed` -/

/-- The two inputs a closed connection answers. -/
def answersClosed (c : Connection) (input : Input) : Bool :=
  input == .apdu (.u .testFrAct)
    || (c.role == .server && input == .apdu (.u .stopDtAct))

/-- Rejecting in `Closed` only disconnects. -/
theorem reject_of_closed (h : c.state = .closed) :
    c.reject = c.push (.disconnect .protocolError) := by
  unfold reject transition
  rw [if_neg]
  exact fun hne => hne h

/-- **Any other input leaves a closed connection closed and unheard.** -/
theorem onInput_of_closed (h : c.state = .closed)
    (hin : c.answersClosed input = false) (now : Instant) :
    let d := c.onInput input now
    d.state = .closed ∧ (∃ as, d.actions = c.actions ++ as
          ∧ ∀ a ∈ as, a = .disconnect .protocolError)
      ∧ d.sent = c.sent ∧ d.testSent = c.probe input ∧ d.config = c.config
      ∧ d.unackedRecv = c.unackedRecv
      ∧ d.lastRecvIframe = c.lastRecvIframe := by
  have hsame : ∃ as, c.actions = c.actions ++ as ∧ ∀ a ∈ as, a = .disconnect .protocolError :=
    ⟨[], (List.append_nil _).symm, fun a ha => absurd ha List.not_mem_nil⟩
  have hpush : ∃ as, c.actions ++ [Action.disconnect .protocolError]
      = c.actions ++ as ∧ ∀ a ∈ as, a = .disconnect .protocolError :=
    ⟨_, rfl, fun a ha => List.mem_singleton.mp ha⟩
  have hc := course_onInput c input now
  generalize c.onInput input now = d at hc ⊢
  cases hc with
  | refuseI send recv asdu hacc =>
    rw [reject_of_closed (c := { c with lastRecvAny := some now }) h]
    exact ⟨h, hpush, rfl, rfl, rfl, rfl, rfl⟩
  | refuseU function href =>
    have hprobe : c.testSent = c.probe (.apdu (.u function)) := by
      rw [probe, if_neg]
      intro he
      rw [Input.apdu.injEq, Apdu.u.injEq] at he
      rw [he] at href
      exact absurd href (by simp [refuses])
    rw [reject_of_closed (c := { c with lastRecvAny := some now }) h]
    exact ⟨h, hpush, rfl, hprobe, rfl, rfl, rfl⟩
  -- the two inputs set aside
  | stopDtAct hr => exact absurd hin (by simp [answersClosed, hr])
  | testFrAct => exact absurd hin (by simp [answersClosed])
  | noStart | noStop | queue | tick | noAck | testFrCon => exact ⟨h, hsame, rfl, rfl, rfl, rfl, rfl⟩
  -- the other courses need another state
  | accept send recv asdu hacc =>
    have ht := (accepts_iframe hacc).1
    rw [h] at ht
    exact absurd ht (by decide)
  | ack nr ht =>
    rw [h] at ht
    exact absurd ht (by decide)
  | start hs => exact absurd (h.symm.trans hs.2) (by decide)
  | stop hs | serverStop hs | send asdu hs | startDtCon _ hs | startDtAct _ hs | stopDtCon _ hs
  | earlyStopDtCon _ hs => exact absurd (h.symm.trans hs) (by decide)

/-- An input a closed connection answers makes it send. -/
theorem sends_of_answersClosed (hin : c.answersClosed input = true) (now : Instant) :
    sends (c.handle input now).2 ≠ [] := by
  have hon : sends (c.onInput input now).actions ≠ [] := by
    unfold answersClosed at hin
    rw [Bool.or_eq_true, Bool.and_eq_true, beq_iff_eq, beq_iff_eq, beq_iff_eq] at hin
    obtain rfl | ⟨hr, rfl⟩ := hin
    · have hd : c.onInput (.apdu (.u .testFrAct)) now
          = { c with lastRecvAny := some now }.emitU .testFrCon now := rfl
      rw [hd]
      simp [emitU, emitApdu, push]
    · obtain ⟨ms, hms, -⟩ := exists_emits_onInput c (.apdu (.u .stopDtAct)) now
      rw [hms.actions, control, if_pos hr]
      simp
  obtain ⟨ms, hms, -⟩ := follows_runTimers now (c.onInput input now)
  intro he
  change sends ((c.onInput input now).runTimers now).actions = [] at he
  rw [hms.actions] at he
  exact hon (List.append_eq_nil_iff.mp he).1

/-- Actions that only disconnect send, deliver and report nothing. -/
theorem quiet_of_disconnects {as : List Action} (h : ∀ a ∈ as, ∃ reason, a = .disconnect reason) :
    sends as = [] ∧ deliveries as = [] ∧ ∀ state, .stateChanged state ∉ as := by
  refine ⟨?_, ?_, ?_⟩
  · refine List.filterMap_eq_nil_iff.mpr fun a ha => ?_
    obtain ⟨reason, rfl⟩ := h a ha
    rfl
  · refine List.filterMap_eq_nil_iff.mpr fun a ha => ?_
    obtain ⟨reason, rfl⟩ := h a ha
    rfl
  · intro state ha
    obtain ⟨reason, hr⟩ := h _ ha
    exact absurd hr (by simp)

/-- **A call made in `Closed` respects it exactly when it does not leak.** -/
theorem respects_of_closed (hc : c.actions = []) (h : c.state = .closed) (i : Input × Instant) :
    RespectsClosed (call step c i) ↔ c.leaks i = false := by
  have hleak : c.leaks i = (c.answersClosed i.1 || c.t2Taken i.1 i.2) := by
    unfold leaks answersClosed
    rw [h]
    rfl
  have hresp : RespectsClosed (call step c i) ↔ ((c.handle i.1 i.2).1.state = .closed
        ∧ sends (c.handle i.1 i.2).2 = []
        ∧ deliveries (c.handle i.1 i.2).2 = []
        ∧ ∀ state, .stateChanged state ∉ (c.handle i.1 i.2).2) :=
    ⟨fun hr => hr.1 h, fun hr => ⟨fun _ => hr, fun hne => absurd h hne⟩⟩
  rw [hleak, hresp]
  cases hin : c.answersClosed i.1 with
  | true =>
    constructor
    · intro hr
      exact absurd hr.2.1 (sends_of_answersClosed hin i.2)
    · intro hf
      exact absurd hf (by simp)
  | false =>
    obtain ⟨hd, ⟨as, has, hall⟩, hsent, htest, hcfg, hun, hlast⟩ :=
      onInput_of_closed h hin i.2
    obtain ⟨hst, ⟨ht, hact⟩ | ⟨ht, bs, hbs, hall'⟩⟩ := actions_of_closed hd
      (t2Taken_eq i.2 hsent htest hcfg hun hlast)
    · constructor
      · intro hr
        have hs : sends ((c.onInput i.1 i.2).runTimers i.2).actions = [] :=
          hr.2.1
        rw [hact] at hs
        exact absurd hs (by simp)
      · intro hf
        rw [ht] at hf
        exact absurd hf (by simp)
    · refine ⟨fun _ => by rw [ht]; rfl, fun _ => ⟨hst, quiet_of_disconnects fun a ha => ?_⟩⟩
      -- every action of the call is a `Disconnect`
      change a ∈ ((c.onInput i.1 i.2).runTimers i.2).actions at ha
      rw [hbs, has, hc, List.nil_append] at ha
      obtain ha | ha := List.mem_append.mp ha
      · exact ⟨_, hall a ha⟩
      · exact ⟨_, hall' a ha⟩

end Connection

/-! ## Calls that close the connection -/

variable {as : List Action}

/-- Where no APDU is sent, none is sent behind a `Disconnect`. -/
theorem silentAfter_of_sends (h : sends as = []) : silentAfter as = true := by
  induction as with
  | nil => rfl
  | cons a as ih =>
    rw [sends_cons, List.append_eq_nil_iff] at h
    cases a with
    | sendApdu m => exact absurd h.1 (by simp)
    | deliverAsdu | stateChanged => exact ih h.2
    | disconnect m =>
      show (sends as).isEmpty = true
      rw [h.2]
      rfl

/-- Where nothing disconnects, nothing follows a `Disconnect`. -/
theorem silentAfter_of_reasons (h : reasons as = []) : silentAfter as = true := by
  induction as with
  | nil => rfl
  | cons a as ih =>
    rw [reasons_cons, List.append_eq_nil_iff] at h
    cases a with
    | sendApdu | deliverAsdu | stateChanged => exact ih h.2
    | disconnect m => exact absurd h.1 (by simp)

/-- A silent batch stays silent when actions that send nothing are added. -/
theorem silentAfter_append {as bs : List Action} (h : silentAfter as = true) (hb : sends bs = []) :
    silentAfter (as ++ bs) = true := by
  induction as with
  | nil => exact silentAfter_of_sends hb
  | cons a as ih =>
    cases a with
    | sendApdu | deliverAsdu | stateChanged => exact ih h
    | disconnect m =>
      show (sends (as ++ bs)).isEmpty = true
      rw [sends_append, hb, List.append_nil]
      exact h

namespace Connection

variable {c : Connection} {input : Input} {now : Instant}

/-- Rejecting in an open state disconnects, then reports the change. -/
theorem reject_actions (h : c.state ≠ .closed) : c.reject.actions
      = c.actions ++ [.disconnect .protocolError, .stateChanged .closed] := by
  unfold reject transition
  rw [if_pos (show (c.push (.disconnect .protocolError)).state ≠ _ from h)]
  exact List.append_assoc _ _ _

/-- The STOPDT_con that ends a connection reports the change, then
disconnects. -/
theorem actions_of_ends (h : c.ends input = true) : (c.onInput input now).actions
      = c.actions ++ [.stateChanged .stopped, .disconnect .stoppedCleanly] := by
  unfold ends at h
  split at h
  · rw [Bool.and_eq_true, Bool.not_eq_true'] at h
    have hs : c.state = .stopping ∧ c.role = .client := by
      have hf := h.1
      unfold refuses at hf
      simp only [Bool.not_eq_false', Bool.and_eq_true, beq_iff_eq] at hf
      exact ⟨hf.2, hf.1⟩
    show (onUFrame { c with lastRecvAny := some now } .stopDtCon now).actions
      = _
    unfold onUFrame
    simp only [hs.1, hs.2, h.2, if_true, transition, push]
    exact List.append_assoc _ _ _
  · exact absurd h (by simp)

/-- A rejected input closes the connection. -/
theorem onInput_of_rejects (h : c.rejects input = true) (now : Instant) :
    c.onInput input now = { c with lastRecvAny := some now }.reject := by
  have hc := course_onInput c input now
  generalize c.onInput input now = d at hc ⊢
  cases hc with
  | refuseI | refuseU => rfl
  | _ => simp_all [rejects, refuses]

/-- **A call that rejects its input respects `Closed` exactly when it does not
leak.** -/
theorem respects_of_rejects (hc : c.actions = [])
    (h : c.state ≠ .closed) (i : Input × Instant) (hr : c.rejects i.1 = true) :
    RespectsClosed (call step c i) ↔ c.leaks i = false := by
  have hleak : c.leaks i = c.t2Taken i.1 i.2 := by
    unfold leaks
    rw [hr, beq_eq_false_iff_ne.mpr h]
    simp
  have hin := onInput_of_rejects hr i.2
  have hd : (c.onInput i.1 i.2).state = .closed := by
    rw [hin]
    exact reject_state _
  have hact : (c.onInput i.1 i.2).actions
      = [.disconnect .protocolError, .stateChanged .closed] := by
    rw [hin]
    refine (reject_actions (c := { c with lastRecvAny := some i.2 }) h).trans ?_
    rw [hc]
    rfl
  have ht := t2Taken_eq (c := c) (d := c.onInput i.1 i.2) i.2
    (by rw [hin, reject, transition_eq]; rfl) (testSent_onInput c i.1 i.2)
    (by rw [hin, reject, transition_eq]; rfl)
    (by rw [hin, reject, transition_eq]; rfl)
    (by rw [hin, reject, transition_eq]; rfl)
  obtain ⟨hst, hcases⟩ := actions_of_closed hd ht
  have hresp : RespectsClosed (call step c i)
      ↔ silentAfter ((c.onInput i.1 i.2).runTimers i.2).actions = true :=
    ⟨fun hr => hr.2 h hst, fun hr => ⟨fun hcl => absurd hcl h, fun _ _ => hr⟩⟩
  rw [hleak, hresp]
  obtain ⟨ht, he⟩ | ⟨ht, bs, hbs, hall⟩ := hcases
  · rw [he, ht, hact]
    exact ⟨fun hf => absurd hf (by simp [silentAfter]), fun hf => absurd hf (by simp)⟩
  · rw [hbs, ht, hact]
    exact ⟨fun _ => rfl, fun _ => silentAfter_append rfl
      (quiet_of_disconnects fun a ha => ⟨_, hall a ha⟩).1⟩

/-- The timers close an open connection only on an overdue ACK. -/
theorem runTimers_closes (h : c.state ≠ .closed) (hcl : (c.runTimers now).state = .closed) :
    c.runTimers now = c.timeOut := by
  have h₃ : ((c.runT2 now).runT3 now).state = c.state := by
    obtain h₃ | ⟨-, h₃⟩ := runT3_eq (c.runT2 now) now <;> rw [h₃] <;>
      obtain h₂ | h₂ := runT2_eq c now <;> rw [h₂] <;> rfl
  unfold runTimers at hcl ⊢
  split
  · rfl
  · rename_i h₁
    rw [if_neg h₁] at hcl
    obtain h₄ | ⟨-, h₄⟩ := runStopping_eq ((c.runT2 now).runT3 now)
    · rw [h₄, h₃] at hcl
      exact absurd hcl h
    · rw [h₄] at hcl
      change (transition _ .stopped).state = _ at hcl
      rw [transition_state] at hcl
      exact absurd hcl (by decide)

/-- A call that rejects nothing leaves `Closed` to the timers, and is silent
after its `Disconnect`. -/
theorem respects_of_quiet (hc : c.actions = []) (h : c.state ≠ .closed) (i : Input × Instant)
    (hr : c.rejects i.1 = false) : RespectsClosed (call step c i) := by
  refine ⟨fun hcl => absurd hcl h, fun _ hcl => ?_⟩
  have hopen : (c.onInput i.1 i.2).state ≠ .closed := by
    rw [state_onInput]
    exact target_ne_closed h hr
  have htime : (c.onInput i.1 i.2).runTimers i.2 = (c.onInput i.1 i.2).timeOut :=
    runTimers_closes hopen hcl
  have hsil : silentAfter (c.onInput i.1 i.2).actions = true := by
    by_cases he : c.ends i.1 = true
    · rw [actions_of_ends he, hc]
      rfl
    · refine silentAfter_of_reasons ?_
      rw [reasons_onInput, hc, verdict, hr, if_neg (by decide), if_neg he]
      rfl
  show silentAfter ((c.onInput i.1 i.2).runTimers i.2).actions = true
  obtain ⟨as, has⟩ := exists_actions_runTimers (c.onInput i.1 i.2) i.2
  rw [has]
  refine silentAfter_append hsil ?_
  have hs := sends_timeOut (c.onInput i.1 i.2)
  rw [← htime, has, sends_append] at hs
  exact List.append_right_eq_self.mp hs

/-- **A call respects `Closed` exactly when it does not leak.** -/
theorem respects_iff (hc : c.actions = []) (i : Input × Instant) :
    RespectsClosed (call step c i) ↔ c.leaks i = false := by
  by_cases h : c.state = .closed
  · exact respects_of_closed hc h i
  · cases hr : c.rejects i.1 with
    | true => exact respects_of_rejects hc h i hr
    | false =>
      refine ⟨fun _ => ?_, fun _ => respects_of_quiet hc h i hr⟩
      unfold leaks
      rw [hr, beq_eq_false_iff_ne.mpr h]
      rfl

end Connection

/-- **Closed is final exactly when no call leaks**: in every run, every call
respects `Closed` if and only if none takes a branch that ignores it. -/
theorem closed_final_iff (role : Role) (config : Config)
    (is : List (Input × Instant)) :
    let h := (exec Connection.step (Connection.new role config) is).1
    (∀ c ∈ h, RespectsClosed c) ↔ ∀ c ∈ h, c.before.leaks c.input = false := by
  intro h
  refine forall_congr' fun c => forall_congr' fun hc => ?_
  obtain ⟨⟨g, hg⟩, heq⟩ := (run_exec Connection.step
    (Connection.new role config) is).of_mem hc
  obtain ⟨-, -, hact⟩ := Connection.ident_of_run hg
  rw [heq]
  exact Connection.respects_iff hact c.input

/-- Closed is not final: a server that an I-frame has closed before STARTDT
answers TESTFR_act. -/
theorem closed_not_final :
    ¬ ∀ (role : Role) (config : Config) (is : List (Input × Instant)),
      ∀ c ∈ (exec Connection.step (Connection.new role config) is).1,
        RespectsClosed c := by
  intro h
  have hres := h .server .default
    [(.apdu (.i (SeqNo.new 0) (SeqNo.new 0) []), 0),
      (.apdu (.u .testFrAct), 1)] _
    (List.mem_of_getElem? (i := 1) rfl)
  exact absurd (hres.1 (by decide)).2.1 (by decide)

end Frame104
