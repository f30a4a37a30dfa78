import Iec60870.Frame104Pair

/-!
# What a call does to the state of a connection

The connection control of `state.rs` in one place: for an input and the
state it meets, whether the connection rejects it as a protocol error
(`Connection.rejects`), the state it moves to (`Connection.target`) and the
STARTDT or STOPDT function it answers with (`Connection.control`). All three
are functions of the state before the call.

They describe the input part of a call. The timer tail that follows may
close the connection or end a drained STOPDT phase, and disconnects in both
cases, so a call that does not disconnect ends in its target state
(`state_of_quiet`). It may also send an S-frame or a TESTFR_act, so what a
call sends is its control function followed by APDUs that are not
(`exists_emits_handle`).
-/

open Machine

namespace Frame104

/-- The start and stop functions, as opposed to the test functions. -/
def UFunction.isControl : UFunction → Bool
  | startDtAct | startDtCon | stopDtAct | stopDtCon => true
  | testFrAct | testFrCon => false

/-- Whether an APDU is a start or stop function. -/
def Apdu.isControl : Apdu → Bool
  | .i _ _ _ => false
  | .s _ => false
  | .u function => function.isControl

/-- An input is an APDU of the peer. -/
def Input.isApdu : Input → Bool
  | .apdu _ => true
  | .startDt | .stopDt | .sendAsdu _ | .tick => false

namespace Connection

/-! ## Reactions to an input -/

/-- **The inputs a connection closes on**: a U-frame it refuses, or an
I-frame it does not accept. -/
def rejects (c : Connection) : Input → Bool
  | .apdu (.u function) => refuses c.role c.state function
  | .apdu (.i send recv asdu) => (c.accepts (.apdu (.i send recv asdu))).isNone
  | .apdu (.s _) => false
  | .startDt => false
  | .stopDt => false
  | .sendAsdu _ => false
  | .tick => false

/-- The state a U-frame that is not refused leads to. -/
def uTarget (c : Connection) : UFunction → State
  | .startDtCon => .active
  | .startDtAct => .active
  | .stopDtAct => .stopped
  | .stopDtCon => if c.sent.isEmpty then .stopped else c.state
  | .testFrAct => c.state
  | .testFrCon => c.state

/-- **The state an input leads to**, before the timers run. -/
def target (c : Connection) (input : Input) : State :=
  if c.rejects input then .closed
  else
    match input with
    | .apdu (.u function) => c.uTarget function
    | .apdu (.i _ _ _) => c.state
    | .apdu (.s _) => c.state
    | .startDt =>
      if c.role = .client ∧ c.state = .stopped then .starting else c.state
    | .stopDt =>
      if c.state = .active then
        if c.role = .client then .stopping else .stopped
      else c.state
    | .sendAsdu _ => c.state
    | .tick => c.state

variable {c : Connection} {input : Input} {d : Connection} {function : UFunction}

/-- Only a rejected input leads an open connection to `Closed`. -/
theorem target_ne_closed (h : c.state ≠ .closed) (hr : c.rejects input = false) :
    c.target input ≠ .closed := by
  unfold target
  rw [if_neg (by rw [hr]; decide)]
  split
  · rename_i function
    cases function with
    | startDtAct | startDtCon | stopDtAct => exact fun he => absurd he (by simp [uTarget])
    | stopDtCon =>
      rw [uTarget]
      split
      · decide
      · exact h
    | testFrAct | testFrCon => exact h
  · exact h
  · exact h
  · split
    · decide
    · exact h
  · split
    · split <;> decide
    · exact h
  · exact h
  · exact h

/-- **The start or stop function an input is answered with.** -/
def control (c : Connection) : Input → Option UFunction
  | .apdu (.u .startDtAct) =>
    if c.role = .server ∧ c.state = .stopped then some .startDtCon else none
  | .apdu (.u .stopDtAct) =>
    if c.role = .server then some .stopDtCon else none
  | .startDt =>
    if c.role = .client ∧ c.state = .stopped then some .startDtAct else none
  | .stopDt =>
    if c.state = .active ∧ c.role = .client then some .stopDtAct else none
  | _ => none

/-- **An input leads to its target.** -/
theorem state_onInput (c : Connection) (input : Input) (now : Instant) :
    (c.onInput input now).state = c.target input := by
  have h := course_onInput c input now
  generalize c.onInput input now = d at h ⊢
  unfold target
  cases h with
  | accept send recv asdu h =>
    rw [rejects, h]
    unfold ackIfDue
    split <;> exact acknowledge_state _ now recv
  | refuseI send recv asdu h | refuseU function h =>
    rw [rejects, h]
    exact reject_state _
  | ack nr h => exact acknowledge_state _ now nr
  | startDtCon hr hs | startDtAct hr hs =>
    rw [flushPending_state, transition_state, rejects, hr, hs]
    rfl
  | stopDtAct hr =>
    rw [transition_state, rejects, hr]
    rfl
  | stopDtCon hr hs he =>
    rw [rejects, hr, hs]
    exact (transition_state _ .stopped).trans (if_pos he).symm
  | earlyStopDtCon hr hs he =>
    have htarget : c.uTarget .stopDtCon = c.state :=
      if_neg (Bool.eq_false_iff.mp he)
    rw [rejects, hr, hs]
    exact hs.symm.trans htarget.symm
  | start h =>
    rw [transition_state]
    exact (if_pos h).symm
  | noStart h => exact (if_neg h).symm
  | stop hs hr =>
    rw [transition_state]
    exact ((if_pos hs).trans (if_pos hr)).symm
  | serverStop hs hr =>
    rw [transition_state]
    exact ((if_pos hs).trans (if_neg hr)).symm
  | noStop hs => exact (if_neg hs).symm
  | _ => rfl

/-! ## What a call sends -/

@[simp] theorem sends_transition (c : Connection) (target : State) :
    sends (c.transition target).actions = sends c.actions := by
  rw [transition_eq]
  split <;> simp

@[simp] theorem sends_timeOut (c : Connection) : sends c.timeOut.actions = sends c.actions := by
  rw [timeOut, sends_transition]
  simp [push]

/-- **A method that sends `ms` notes it**: the instant of the last APDU sent,
and that of a TESTFR_act. What was received is not its business. -/
structure Emits (now : Instant) (d e : Connection) (ms : List Apdu) : Prop where
  actions : sends e.actions = sends d.actions ++ ms
  lastSendAny : e.lastSendAny = if ms = [] then d.lastSendAny else some now
  lastRecvAny : e.lastRecvAny = d.lastRecvAny
  testSent : e.testSent = if .u .testFrAct ∈ ms then some now else d.testSent

/-- What a method sends is no start or stop function. -/
def Follows (now : Instant) (d e : Connection) : Prop :=
  ∃ ms, Emits now d e ms ∧ ms.all (fun m => !m.isControl) = true

section Emits

variable {now : Instant} {c d e : Connection} {ms ns : List Apdu}

theorem Emits.of_eq (ha : sends e.actions = sends d.actions)
    (hs : e.lastSendAny = d.lastSendAny) (hr : e.lastRecvAny = d.lastRecvAny)
    (ht : e.testSent = d.testSent) : Emits now d e [] :=
  ⟨ha.trans (List.append_nil _).symm, hs, hr, ht⟩

theorem Emits.trans (h : Emits now c d ms) (h' : Emits now d e ns) : Emits now c e (ms ++ ns) where
  actions := by rw [h'.actions, h.actions, List.append_assoc]
  lastSendAny := by
    rw [h'.lastSendAny, h.lastSendAny]
    by_cases hms : ms = []
    · rw [hms, List.nil_append, if_pos rfl]
    · rw [if_neg hms, ite_self, if_neg fun hnil => hms (List.append_eq_nil_iff.mp hnil).1]
  lastRecvAny := h'.lastRecvAny.trans h.lastRecvAny
  testSent := by
    rw [h'.testSent, h.testSent, ← ite_or]
    simp only [List.mem_append, or_comm]

theorem Follows.trans (h : Follows now c d) (h' : Follows now d e) : Follows now c e := by
  obtain ⟨ms, hms, hall⟩ := h
  obtain ⟨ns, hns, hall'⟩ := h'
  refine ⟨ms ++ ns, hms.trans hns, ?_⟩
  rw [List.all_append, hall, hall']
  rfl

variable (now)

theorem follows_of_eq (ha : sends e.actions = sends d.actions)
    (hs : e.lastSendAny = d.lastSendAny) (hr : e.lastRecvAny = d.lastRecvAny)
    (ht : e.testSent = d.testSent) : Follows now d e :=
  ⟨[], .of_eq ha hs hr ht, rfl⟩

section

variable (d : Connection)

theorem follows_transition (target : State) : Follows now d (d.transition target) := by
  refine follows_of_eq now (sends_transition d target) ?_ ?_ ?_ <;> rw [transition_eq]

theorem emits_emitU {function : UFunction} (h : function ≠ .testFrAct) :
    Emits now d (d.emitU function now) [.u function] where
  actions := by simp [emitU, emitApdu, push]
  lastSendAny := rfl
  lastRecvAny := rfl
  testSent := by
    rw [if_neg]
    · rfl
    · rw [List.mem_singleton, Apdu.u.injEq]
      exact h.symm

theorem follows_sendIframe (asdu : Bytes) : Follows now d (d.sendIframe asdu now) :=
  ⟨[.i d.sendNext d.recvNext asdu], ⟨by simp [sendIframe], rfl, rfl, rfl⟩, rfl⟩

theorem follows_emitSupervisory : Follows now d (d.emitSupervisory now) :=
  ⟨[.s d.recvNext], ⟨by simp [emitSupervisory], rfl, rfl, rfl⟩, rfl⟩

/-- An action that is no APDU. -/
theorem follows_push {a : Action} (ha : a.apdu? = none) : Follows now d (d.push a) := by
  refine follows_of_eq now ?_ rfl rfl rfl
  rw [push, sends_append, sends_cons, ha, sends_nil]
  exact List.append_nil _

theorem follows_reject : Follows now d d.reject :=
  (follows_push now d rfl).trans (follows_transition now _ .closed)

end

/-- The flush loop sends I-frames. -/
theorem follows_flushLoop (q : List Bytes) (d : Connection) :
    Follows now d (flushLoop now q d) := by
  induction q generalizing d with
  | nil => exact follows_of_eq now rfl rfl rfl rfl
  | cons asdu rest ih =>
    rw [flushLoop]
    split
    · exact (follows_sendIframe now d asdu).trans (ih _)
    · exact follows_of_eq now rfl rfl rfl rfl

theorem follows_flushPending (d : Connection) : Follows now d (d.flushPending now) :=
  follows_flushLoop now d.pending d

theorem follows_acknowledge (d : Connection) (nr : SeqNo) :
    Follows now d (d.acknowledge nr now) := by
  obtain ⟨ms, hms, hall⟩ := follows_flushPending now
    { d with sent := d.sent.dropWhile fun e => acked nr e.1 }
  exact ⟨ms, ⟨hms.1, hms.2, hms.3, hms.4⟩, hall⟩

/-- The timers send no start or stop function. -/
theorem follows_runTimers (c : Connection) : Follows now c (c.runTimers now) :=
  runTimers_rel c now (R := Follows now) (fun _ => follows_of_eq now rfl rfl rfl rfl)
    (fun _ _ _ h h' => h.trans h')
    (fun d => (follows_push now d rfl).trans (follows_transition now _ .closed))
    (follows_emitSupervisory now)
    (fun _ => ⟨[.u .testFrAct], ⟨by simp [emitU, emitApdu, push], rfl, rfl, rfl⟩, rfl⟩)
    (fun d => (follows_transition now d .stopped).trans (follows_push now _ rfl))

end Emits

/-- What a connection refuses it does not answer. -/
theorem control_of_refused (h : refuses c.role c.state function = true) :
    c.control (.apdu (.u function)) = none := by
  cases function with
  | startDtAct =>
    refine if_neg fun hc => ?_
    rw [hc.1, hc.2] at h
    exact absurd h (by decide)
  | stopDtAct =>
    refine if_neg fun hc => ?_
    rw [hc] at h
    exact absurd h (by simp [refuses])
  | startDtCon | stopDtCon | testFrAct | testFrCon => rfl

/-- What the arrival of an APDU changes by itself. -/
def hears (c : Connection) (input : Input) (now : Instant) : Connection :=
  { c with
    lastRecvAny := if input.isApdu then some now else c.lastRecvAny
    testSent := if input = .apdu (.u .testFrCon) then none else c.testSent }

/-- **An input is answered by its control function first**, and every handler
notes what it sends. -/
theorem exists_emits_onInput (c : Connection) (input : Input) (now : Instant) :
    ∃ ms, Emits now (c.hears input now) (c.onInput input now)
        ((c.control input).toList.map .u ++ ms) ∧ ms.all (fun m => !m.isControl) = true := by
  have hrest {input : Input} {d : Connection} (hc : c.control input = none)
      (h : Follows now (c.hears input now) d) : ∃ ms, Emits now (c.hears input now) d
        ((c.control input).toList.map .u ++ ms) ∧ ms.all (fun m => !m.isControl) = true := by
    rw [hc]
    exact h
  have hanswer {input : Input} {function : UFunction} {d e : Connection}
      (hc : c.control input = some function) (he : Emits now (c.hears input now) e [.u function])
      (h : Follows now e d) : ∃ ms, Emits now (c.hears input now) d
        ((c.control input).toList.map .u ++ ms) ∧ ms.all (fun m => !m.isControl) = true := by
    obtain ⟨ms, hms, hall⟩ := h
    rw [hc]
    exact ⟨ms, he.trans hms, hall⟩
  -- on all but one course the test frame plays no role
  have hnote (m : Apdu) (hm : m ≠ .u .testFrCon) :
      Emits now (c.hears (.apdu m) now) { c with lastRecvAny := some now } [] := by
    refine .of_eq rfl rfl rfl ?_
    show _ = if _ then _ else _
    rw [if_neg fun heq => hm (Input.apdu.inj heq)]
  have h := course_onInput c input now
  generalize c.onInput input now = d at h ⊢
  cases h with
  | accept send recv asdu h =>
    have hcount : Follows now (c.hears (.apdu (.i send recv asdu)) now)
        (counted { c with lastRecvAny := some now } now) := follows_of_eq now rfl rfl rfl rfl
    have hpush := hcount.trans ((follows_acknowledge now _ recv).trans
      (follows_push now _ (a := .deliverAsdu asdu) rfl))
    unfold ackIfDue
    split
    · exact hrest rfl (hpush.trans (follows_emitSupervisory now _))
    · exact hrest rfl hpush
  | ack nr h =>
    exact hrest rfl (.trans ⟨_, hnote _ (by simp), rfl⟩ (follows_acknowledge now _ nr))
  | startDtCon hr hs =>
    exact hrest rfl (.trans ⟨_, hnote _ (by decide), rfl⟩
      ((follows_transition now _ .active).trans (follows_flushPending now _)))
  | startDtAct hr hs =>
    exact hanswer (if_pos ⟨hr, hs⟩) ((hnote _ (by decide)).trans (emits_emitU now _ (by decide)))
      ((follows_transition now _ .active).trans (follows_flushPending now _))
  | stopDtAct hr =>
    exact hanswer (if_pos hr) ((hnote _ (by decide)).trans (emits_emitU now _ (by decide)))
      (follows_transition now _ .stopped)
  | stopDtCon hr hs he =>
    exact hrest rfl (.trans ⟨_, hnote _ (by decide), rfl⟩
      ((follows_transition now _ .stopped).trans (follows_push now _ rfl)))
  | testFrAct =>
    exact hrest rfl ⟨_, (hnote _ (by decide)).trans (emits_emitU now _ (by decide)), rfl⟩
  | refuseI send recv asdu h =>
    exact hrest rfl (follows_reject now { c with lastRecvAny := some now })
  | refuseU function h =>
    have hne : function ≠ .testFrCon := by
      rintro rfl
      cases h
    exact hrest (control_of_refused h) (.trans
      ⟨_, hnote (.u function) fun heq => hne (Apdu.u.inj heq), rfl⟩ (follows_reject now _))
  | start h =>
    exact hanswer (if_pos h) (emits_emitU now c (by decide)) (follows_transition now _ .starting)
  | noStart h => exact hrest (if_neg h) (follows_of_eq now rfl rfl rfl rfl)
  | stop hs hr =>
    exact hanswer (if_pos ⟨hs, hr⟩) (emits_emitU now c (by decide))
      (follows_transition now _ .stopping)
  | serverStop hs hr =>
    exact hrest (if_neg fun h => hr h.2) (follows_transition now c .stopped)
  | noStop hs => exact hrest (if_neg fun h => hs h.1) (follows_of_eq now rfl rfl rfl rfl)
  | send asdu hs hk => exact hrest rfl (follows_sendIframe now c asdu)
  | earlyStopDtCon hr hs he => exact hrest rfl ⟨_, hnote _ (by decide), rfl⟩
  | noAck nr h => exact hrest rfl ⟨_, hnote _ (by simp), rfl⟩
  | _ => exact hrest rfl (follows_of_eq now rfl rfl rfl rfl)

/-- **A call notes what it receives and sends**: it sends its control function,
then APDUs that are no start or stop function. -/
theorem exists_emits_handle (hc : c.actions = []) (input : Input) (now : Instant) :
    ∃ ms, Emits now (c.hears input now) ((c.onInput input now).runTimers now)
        ((c.control input).toList.map .u ++ ms)
      ∧ sends (c.handle input now).2 = (c.control input).toList.map .u ++ ms
      ∧ ∀ m ∈ ms, m.isControl = false := by
  obtain ⟨ms, hms, hall⟩ := exists_emits_onInput c input now
  obtain ⟨ns, hns, hall'⟩ := follows_runTimers now (c.onInput input now)
  have hboth := hms.trans hns
  rw [List.append_assoc] at hboth
  refine ⟨ms ++ ns, hboth, hboth.actions.trans ?_, fun m hm => ?_⟩
  · show sends c.actions ++ _ = _
    rw [hc]
    rfl
  · rw [← Bool.not_eq_true']
    exact List.all_eq_true.mp (by rw [List.all_append, hall, hall']; rfl) m hm

end Connection

/-! ## Why a call disconnects -/

/-- The reason an action tears the connection down for, if it does. -/
@[simp] def Action.reason? : Action → Option DisconnectReason
  | .sendApdu _ => none
  | .deliverAsdu _ => none
  | .stateChanged _ => none
  | .disconnect reason => some reason

/-- The reasons a list of actions tears the connection down for. -/
def reasons (as : List Action) : List DisconnectReason :=
  as.filterMap Action.reason?

@[simp] theorem reasons_append (as bs : List Action) :
    reasons (as ++ bs) = reasons as ++ reasons bs := List.filterMap_append

@[simp] theorem reasons_nil : reasons [] = [] := rfl

@[simp] theorem reasons_cons (a : Action) (as : List Action) :
    reasons (a :: as) = a.reason?.toList ++ reasons as :=
  filterMap_cons_toList Action.reason? a as

/-- A list of actions disconnects if it has a reason to. -/
theorem disconnects_eq_false_iff (as : List Action) : disconnects as = false ↔ reasons as = [] := by
  induction as with
  | nil => simp
  | cons a as ih =>
    rw [disconnects_cons, Bool.or_eq_false_iff, ih, reasons_cons, List.append_eq_nil_iff]
    cases a <;> simp

theorem disconnect_mem_iff (as : List Action) (reason : DisconnectReason) :
    .disconnect reason ∈ as ↔ reason ∈ reasons as := by
  rw [reasons, List.mem_filterMap]
  constructor
  · intro h
    exact ⟨_, h, rfl⟩
  · rintro ⟨a, ha, hr⟩
    cases a with
    | disconnect r =>
      rw [← Option.some.inj hr]
      exact ha
    | sendApdu | deliverAsdu | stateChanged => exact absurd hr (by simp)

namespace Connection

@[simp] theorem reasons_transition (c : Connection) (target : State) :
    reasons (c.transition target).actions = reasons c.actions := by
  rw [transition_eq]
  split <;> simp

/-- The flush loop does not disconnect. -/
theorem reasons_flushLoop (now : Instant) (q : List Bytes) (c : Connection) :
    reasons (flushLoop now q c).actions = reasons c.actions := by
  induction q generalizing c with
  | nil => rfl
  | cons asdu rest ih =>
    rw [flushLoop]
    split
    · rw [ih]
      simp [sendIframe]
    · rfl

@[simp] theorem reasons_flushPending (c : Connection) (now : Instant) :
    reasons (c.flushPending now).actions = reasons c.actions :=
  reasons_flushLoop now c.pending c

@[simp] theorem reasons_acknowledge (c : Connection) (nr : SeqNo) (now : Instant) :
    reasons (c.acknowledge nr now).actions = reasons c.actions :=
  reasons_flushPending _ now

@[simp] theorem reasons_emitU (c : Connection) (function : UFunction)
    (now : Instant) : reasons (c.emitU function now).actions = reasons c.actions := by
  simp [emitU, emitApdu, push]

@[simp] theorem reasons_push (c : Connection) (a : Action) :
    reasons (c.push a).actions = reasons c.actions ++ reasons [a] :=
  reasons_append _ _

@[simp] theorem reasons_emitSupervisory (c : Connection) (now : Instant) :
    reasons (c.emitSupervisory now).actions = reasons c.actions := by
  simp [emitSupervisory]

/-- The STOPDT_con that ends a connection: nothing is outstanding. -/
def ends (c : Connection) : Input → Bool
  | .apdu (.u .stopDtCon) =>
    !refuses c.role c.state .stopDtCon && c.sent.isEmpty
  | _ => false

/-- Why an input disconnects, if it does. -/
def verdict (c : Connection) (input : Input) : List DisconnectReason :=
  if c.rejects input then [.protocolError]
  else if c.ends input then [.stoppedCleanly]
  else []

/-- **An input disconnects when it is rejected or ends the connection.** -/
theorem reasons_onInput (c : Connection) (input : Input) (now : Instant) :
    reasons (c.onInput input now).actions = reasons c.actions ++ c.verdict input := by
  have hrej : ∀ d : Connection,
      reasons d.reject.actions = reasons d.actions ++ [.protocolError] := by
    intro d
    rw [reject, reasons_transition, reasons_push]
    rfl
  have h := course_onInput c input now
  generalize c.onInput input now = d at h ⊢
  unfold verdict
  cases h with
  | accept send recv asdu h =>
    rw [rejects, h]
    unfold ackIfDue
    split <;> simp [counted, ends]
  | refuseI send recv asdu h | refuseU function h =>
    rw [rejects, h, hrej]
    rfl
  | send asdu hs hk => simp [rejects, ends, sendIframe]
  | _ => simp_all [rejects, refuses, ends]

/-- Why the timers disconnect, if they do. -/
def timerVerdict (c : Connection) (now : Instant) : List DisconnectReason :=
  if c.t1Expired now then [.ackTimeout]
  else if c.drained then [.stoppedCleanly]
  else []

/-- What `t2` and `t3` send leaves the end of the connection to the tail. -/
theorem runT3_runT2 (c : Connection) (now : Instant) :
    reasons ((c.runT2 now).runT3 now).actions = reasons c.actions
      ∧ ((c.runT2 now).runT3 now).state = c.state
      ∧ ((c.runT2 now).runT3 now).drained = c.drained := by
  have h₂ : reasons (c.runT2 now).actions = reasons c.actions
      ∧ (c.runT2 now).state = c.state ∧ (c.runT2 now).drained = c.drained := by
    obtain h | h := runT2_eq c now
    · rw [h]
      exact ⟨rfl, rfl, rfl⟩
    · rw [h]
      exact ⟨reasons_emitSupervisory c now, rfl, rfl⟩
  generalize c.runT2 now = d at h₂ ⊢
  obtain h | ⟨-, h⟩ := runT3_eq d now
  · rw [h]
    exact h₂
  · rw [h]
    exact ⟨(reasons_emitU _ .testFrAct now).trans h₂.1, h₂.2.1, h₂.2.2⟩

/-- **The timers disconnect for an overdue acknowledgement, or when a
connection that is stopping has drained**, and leave the state alone
otherwise. -/
theorem verdict_runTimers (c : Connection) (now : Instant) :
    reasons (c.runTimers now).actions = reasons c.actions ++ c.timerVerdict now
      ∧ (c.runTimers now).state = if c.t1Expired now then .closed
          else if c.drained then .stopped else c.state := by
  obtain ⟨hreasons, hstate, hdrained⟩ := runT3_runT2 c now
  unfold runTimers timerVerdict
  by_cases ht1 : c.t1Expired now = true
  · rw [if_pos ht1, if_pos ht1, if_pos ht1, timeOut, reasons_transition, reasons_push,
      transition_state]
    exact ⟨rfl, rfl⟩
  · rw [if_neg ht1, if_neg ht1, if_neg ht1, runStopping, hdrained]
    by_cases hd : c.drained = true
    · rw [if_pos hd, if_pos hd, if_pos hd, reasons_push, reasons_transition, hreasons]
      exact ⟨rfl, transition_state _ _⟩
    · rw [if_neg hd, if_neg hd, if_neg hd, List.append_nil]
      exact ⟨hreasons, hstate⟩

/-- The timers do not find a protocol error. -/
theorem not_mem_timerVerdict (c : Connection) (now : Instant) :
    .protocolError ∉ c.timerVerdict now := by
  unfold timerVerdict
  split
  · decide
  · split <;> decide

section Handle

variable {c : Connection} {input : Input} {now : Instant}

/-- **A call disconnects for a reason of its input or of the timers.** -/
theorem disconnect_handle_iff (hc : c.actions = []) (reason : DisconnectReason) :
    .disconnect reason ∈ (c.handle input now).2
      ↔ reason ∈ c.verdict input ∨ reason ∈ (c.onInput input now).timerVerdict now := by
  rw [disconnect_mem_iff]
  show _ ∈ reasons ((c.onInput input now).runTimers now).actions ↔ _
  rw [(verdict_runTimers _ now).1, reasons_onInput, hc, reasons_nil, List.nil_append,
    List.mem_append]

/-- **A call reports a protocol error exactly when it rejects its input.** -/
theorem protocolError_mem_iff (hc : c.actions = []) :
    .disconnect .protocolError ∈ (c.handle input now).2 ↔ c.rejects input = true := by
  rw [disconnect_handle_iff hc, or_iff_left (not_mem_timerVerdict _ now), verdict]
  split
  · rename_i h
    simp [h]
  · rename_i h
    split <;> simp [h]

/-- **A call that does not disconnect ends in its target state**, having
neither rejected its input nor ended the connection. -/
theorem state_of_quiet (hc : c.actions = []) (hq : disconnects (c.handle input now).2 = false) :
    (c.handle input now).1.state = c.target input
      ∧ c.rejects input = false ∧ c.ends input = false := by
  rw [disconnects_eq_false_iff] at hq
  change reasons ((c.onInput input now).runTimers now).actions = [] at hq
  have hin := reasons_onInput c input now
  obtain ⟨h, hstate⟩ := verdict_runTimers (c.onInput input now) now
  rw [h, hin, hc, reasons_nil, List.nil_append, List.append_eq_nil_iff] at hq
  obtain ⟨hverdict, htimers⟩ := hq
  have hr : c.rejects input = false := by
    by_contra hr
    rw [verdict, if_pos (Bool.not_eq_false _ ▸ hr)] at hverdict
    exact absurd hverdict (by simp)
  have he : c.ends input = false := by
    by_contra he
    rw [verdict, hr, if_neg (by decide), if_pos (Bool.not_eq_false _ ▸ he)] at hverdict
    exact absurd hverdict (by simp)
  refine ⟨?_, hr, he⟩
  rw [← state_onInput c input now]
  refine hstate.trans ?_
  -- neither reason of the timers applies
  unfold timerVerdict at htimers
  split at htimers
  · exact absurd htimers (by simp)
  · rename_i ht1
    split at htimers
    · exact absurd htimers (by simp)
    · rename_i hd
      rw [if_neg ht1, if_neg hd]

end Handle

end Connection

end Frame104
