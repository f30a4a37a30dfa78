import Mathlib.Data.Nat.Bitwise
import Iec60870.Cyclic
import Iec60870.Machine
import Iec60870.Wire

/-!
# The IEC 60870-5-104 connection

The sans-I/O connection of `frame104`: sequence numbers (`seq.rs`), the
three APDU formats (`apdu.rs`) and the state machine that drives a link
(`state.rs`). A `Connection` is a record with the fields of the source, and
each method of the source is a function from the record to the record; the
actions a method queues stay in `actions` until `handle` drains them, as in
the source, so a method can be read against its counterpart line by line.

Instants and durations are natural numbers of one unit, and
`saturating_duration_since` is their truncated subtraction. Nothing asks
successive instants to increase: a statement over all runs is a statement
over all clocks.

The first half of the file is the translation. The second gives each
method the small equations the proofs use instead of unfolding it, and says
once what a call consists of: an input takes one of the courses `Course`
lists (`course_onInput`), and the timers compose four deeds
(`runTimers_rel`).
-/

namespace Frame104

/-! ## Sequence numbers and APDUs -/

/-- **A 15-bit sequence number**, `N(S)` or `N(R)`. -/
structure SeqNo where
  /-- The number itself. -/
  value : ℕ
  /-- It fits 15 bits. -/
  value_lt : value < 2 ^ 15
deriving DecidableEq, Repr

namespace SeqNo

/-- The largest sequence number. -/
def MAX : ℕ := (1 <<< 15) - 1

/-- The number of sequence numbers. -/
def MODULUS : ℕ := 1 <<< 15

/-- Masking with `MAX` keeps the low 15 bits. -/
theorem and_max (v : ℕ) : v &&& MAX = v % 2 ^ 15 :=
  Nat.and_two_pow_sub_one_eq_mod v 15

/-- A masked number is a sequence number. -/
theorem and_max_lt (v : ℕ) : v &&& MAX < 2 ^ 15 := by
  rw [and_max]
  exact Nat.mod_lt v (Nat.two_pow_pos 15)

/-- Construct from a raw 16-bit number, masking down to 15 bits. -/
def new (v : ℕ) : SeqNo := ⟨v &&& MAX, and_max_lt v⟩

/-- Wrapping addition modulo `2 ^ 15`: the sum wraps at 16 bits first. -/
def add (s : SeqNo) (n : ℕ) : SeqNo :=
  ⟨((s.value + n) % 2 ^ 16) &&& MAX, and_max_lt _⟩

/-- Wrapping increment. -/
def next (s : SeqNo) : SeqNo := s.add 1

/-- The number of frames from `s` to `later`, modulo `2 ^ 15`. The 16-bit
sum of the source does not overflow, both numbers being below `2 ^ 15`. -/
def distance (s later : SeqNo) : ℕ :=
  (later.value + MODULUS - s.value) &&& MAX

@[simp] theorem value_new_zero : (new 0).value = 0 := rfl

theorem value_next (s : SeqNo) : s.next.value = (s.value + 1) % 2 ^ 15 := by
  show ((s.value + 1) % 2 ^ 16) &&& MAX = _
  rw [and_max]
  omega

theorem distance_eq (s later : SeqNo) :
    s.distance later = Cyclic.distance (2 ^ 15) s.value later.value := by
  rw [distance, and_max]
  rfl

theorem ext_value {s t : SeqNo} (h : s.value = t.value) : s = t := by
  cases s
  cases t
  cases h
  rfl

end SeqNo

/-- U-format functions: act and con of STARTDT, STOPDT and TESTFR. -/
inductive UFunction where
  | startDtAct
  | startDtCon
  | stopDtAct
  | stopDtCon
  | testFrAct
  | testFrCon
deriving DecidableEq, Repr

/-- **An APDU**, in one of its three formats. -/
inductive Apdu where
  /-- Information transfer: an ASDU with send and receive numbers. -/
  | i (send recv : SeqNo) (asdu : Bytes)
  /-- Supervisory: acknowledges the I-frames before `recv`. -/
  | s (recv : SeqNo)
  /-- Unnumbered: connection control. -/
  | u (function : UFunction)
deriving DecidableEq, Repr

/-! ## The connection -/

/-- A reading of the caller's clock. -/
abbrev Instant := ℕ

/-- Connection role: which side initiates the STARTDT handshake. -/
inductive Role where
  /-- Controlling station. -/
  | client
  /-- Controlled station. -/
  | server
deriving DecidableEq, Repr

/-- Connection parameters. -/
structure Config where
  /-- Unacknowledged outgoing I-frames before sending is blocked. -/
  k : UInt16
  /-- Unacknowledged incoming I-frames before an ACK is due. -/
  w : UInt16
  /-- Time to wait for an ACK. -/
  t1 : ℕ
  /-- Time after which received I-frames are acknowledged unasked. -/
  t2 : ℕ
  /-- Idle time after which TESTFR is sent. -/
  t3 : ℕ
deriving DecidableEq, Repr

/-- The standard's values, in seconds. -/
def Config.default : Config where
  k := 12
  w := 8
  t1 := 15
  t2 := 10
  t3 := 20

/-- High-level connection state. -/
inductive State where
  | stopped
  | starting
  | active
  | stopping
  | closed
deriving DecidableEq, Repr

/-- The data-transfer phase, `State::Active | State::Stopping`. -/
def State.isTransfer : State → Bool
  | active | stopping => true
  | stopped | starting | closed => false

/-- Inputs to the state machine. -/
inductive Input where
  /-- An APDU was decoded from the peer. -/
  | apdu (apdu : Apdu)
  /-- The user wants to enable data transfer. -/
  | startDt
  /-- The user wants to stop data transfer. -/
  | stopDt
  /-- The user has an ASDU to send. -/
  | sendAsdu (asdu : Bytes)
  /-- Time has advanced. -/
  | tick
deriving DecidableEq, Repr

/-- Why a connection is torn down. -/
inductive DisconnectReason where
  | ackTimeout
  | protocolError
  | stoppedCleanly
deriving DecidableEq, Repr

/-- Actions for the I/O layer to perform. -/
inductive Action where
  /-- Write the APDU to the transport. -/
  | sendApdu (apdu : Apdu)
  /-- Deliver an ASDU to the application. -/
  | deliverAsdu (asdu : Bytes)
  /-- The state has changed. -/
  | stateChanged (state : State)
  /-- The connection should be torn down. -/
  | disconnect (reason : DisconnectReason)
deriving DecidableEq, Repr

/-- **The connection state machine.** -/
structure Connection where
  role : Role
  config : Config
  state : State
  /-- `N(S)` of the next I-frame to send. -/
  sendNext : SeqNo
  /-- `N(S)` expected of the peer next. -/
  recvNext : SeqNo
  /-- Sent but unacknowledged I-frames, in send order, with send time. -/
  sent : List (SeqNo × Instant)
  /-- Received I-frames not yet acknowledged. -/
  unackedRecv : ℕ
  lastRecvIframe : Option Instant
  lastSendAny : Option Instant
  lastRecvAny : Option Instant
  /-- When an unconfirmed TESTFR_act was sent. -/
  testSent : Option Instant
  /-- ASDUs queued because they could not be sent yet. -/
  pending : List Bytes
  /-- Actions to emit on the next drain. -/
  actions : List Action
deriving DecidableEq, Repr

namespace Connection

/-- A fresh connection. -/
def new (role : Role) (config : Config) : Connection where
  role := role
  config := config
  state := .stopped
  sendNext := SeqNo.new 0
  recvNext := SeqNo.new 0
  sent := []
  unackedRecv := 0
  lastRecvIframe := none
  lastSendAny := none
  lastRecvAny := none
  testSent := none
  pending := []
  actions := []

/-- Queue an action. -/
def push (c : Connection) (a : Action) : Connection :=
  { c with actions := c.actions ++ [a] }

/-- `emit_apdu`: queue an APDU for sending. -/
def emitApdu (c : Connection) (apdu : Apdu) : Connection :=
  c.push (.sendApdu apdu)

/-- Queue a U-frame and note the time, as the source does wherever it emits
one. -/
def emitU (c : Connection) (function : UFunction) (now : Instant) :
    Connection :=
  { c.emitApdu (.u function) with lastSendAny := some now }

/-- Change the state, reporting it if it is a change. -/
def transition (c : Connection) (target : State) : Connection :=
  if c.state ≠ target then
    { c with state := target }.push (.stateChanged target)
  else c

/-- Send an ASDU as the next I-frame, acknowledging what was received. -/
def sendIframe (c : Connection) (asdu : Bytes) (now : Instant) : Connection :=
  { c with
    sendNext := c.sendNext.next
    sent := c.sent ++ [(c.sendNext, now)]
    unackedRecv := 0
    lastSendAny := some now
    actions := c.actions ++ [.sendApdu (.i c.sendNext c.recvNext asdu)] }

/-- Send an S-frame. -/
def emitSupervisory (c : Connection) (now : Instant) : Connection :=
  { c with
    actions := c.actions ++ [.sendApdu (.s c.recvNext)]
    unackedRecv := 0
    lastSendAny := some now }

/-- The loop of `flush_pending`, over the queue it pops from. -/
def flushLoop (now : Instant) : List Bytes → Connection → Connection
  | [], c => { c with pending := [] }
  | asdu :: rest, c =>
    if c.sent.length < c.config.k.toNat then
      flushLoop now rest (c.sendIframe asdu now)
    else { c with pending := asdu :: rest }

/-- Send queued ASDUs while the window has room. -/
def flushPending (c : Connection) (now : Instant) : Connection :=
  flushLoop now c.pending c

/-- The loop test of `acknowledge`: the frame `seq` is acknowledged by
`nr`. -/
def acked (nr seq : SeqNo) : Bool :=
  !(seq.distance nr == 0 || decide (SeqNo.MAX / 2 < seq.distance nr))

/-- Process an incoming `N(R)`: drop the acknowledged entries from the front
of `sent`, then flush. -/
def acknowledge (c : Connection) (nr : SeqNo) (now : Instant) : Connection :=
  { c with sent := c.sent.dropWhile (fun e => acked nr e.1) }.flushPending now

/-- Close on a protocol error. -/
def reject (c : Connection) : Connection :=
  (c.push (.disconnect .protocolError)).transition .closed

/-- Process a U-frame. -/
def onUFrame (c : Connection) (function : UFunction) (now : Instant) :
    Connection :=
  match function, c.role, c.state with
  | .startDtCon, .client, .starting =>
    (c.transition .active).flushPending now
  | .startDtAct, .server, .stopped =>
    ((c.emitU .startDtCon now).transition .active).flushPending now
  | .stopDtAct, .server, _ =>
    (c.emitU .stopDtCon now).transition .stopped
  | .stopDtCon, .client, .stopping =>
    if c.sent.isEmpty then
      (c.transition .stopped).push (.disconnect .stoppedCleanly)
    else c
  | .testFrAct, _, _ => c.emitU .testFrCon now
  | .testFrCon, _, _ => { c with testSent := none }
  | _, _, _ => c.reject

/-- Process an I-frame. -/
def onIFrame (c : Connection) (send recv : SeqNo) (asdu : Bytes)
    (now : Instant) : Connection :=
  if !c.state.isTransfer then c.reject
  else if send ≠ c.recvNext then c.reject
  else
    let c := { c with
      recvNext := c.recvNext.next
      unackedRecv := min (c.unackedRecv + 1) (2 ^ 16 - 1)
      lastRecvIframe := some now }
    let c := (c.acknowledge recv now).push (.deliverAsdu asdu)
    if c.config.w.toNat ≤ c.unackedRecv then c.emitSupervisory now else c

/-- Process an APDU from the peer. -/
def onApdu (c : Connection) (apdu : Apdu) (now : Instant) : Connection :=
  let c := { c with lastRecvAny := some now }
  match apdu with
  | .u function => c.onUFrame function now
  | .s recv => if c.state.isTransfer then c.acknowledge recv now else c
  | .i send recv asdu => c.onIFrame send recv asdu now

/-- The user wants data transfer to start. -/
def onUserStartdt (c : Connection) (now : Instant) : Connection :=
  if c.role = .client ∧ c.state = .stopped then
    (c.emitU .startDtAct now).transition .starting
  else c

/-- The user wants data transfer to stop. -/
def onUserStopdt (c : Connection) (now : Instant) : Connection :=
  if c.state = .active then
    if c.role = .client then
      (c.emitU .stopDtAct now).transition .stopping
    else c.transition .stopped
  else c

/-- The user has an ASDU to send. -/
def onUserSend (c : Connection) (asdu : Bytes) (now : Instant) : Connection :=
  if c.state ≠ .active then { c with pending := c.pending ++ [asdu] }
  else if c.config.k.toNat ≤ c.sent.length then
    { c with pending := c.pending ++ [asdu] }
  else c.sendIframe asdu now

/-! The timer logic runs at the tail of every call. Its blocks, in the order
of the source: `t1` on the oldest I-frame and on an outstanding TESTFR_act,
which close the connection and end the block; `t2`; `t3`; and the close of a
drained connection that is stopping. -/

/-- `t1` has run out on a clock that was started at `since`. -/
def expired (since : Option Instant) (limit : ℕ) (now : Instant) : Bool :=
  match since with
  | some t => decide (limit ≤ now - t)
  | none => false

/-- The oldest unacknowledged I-frame, or the outstanding TESTFR_act, has
waited for `t1`. -/
def t1Expired (c : Connection) (now : Instant) : Bool :=
  expired (c.sent.head?.map Prod.snd) c.config.t1 now
    || expired c.testSent c.config.t1 now

/-- Close because an ACK is overdue. -/
def timeOut (c : Connection) : Connection :=
  (c.push (.disconnect .ackTimeout)).transition .closed

/-- Received I-frames are unacknowledged and have waited for `t2`. -/
def t2Due (c : Connection) (now : Instant) : Bool :=
  decide (0 < c.unackedRecv) && expired c.lastRecvIframe c.config.t2 now

/-- `t2`: acknowledge received I-frames. -/
def runT2 (c : Connection) (now : Instant) : Connection :=
  if c.t2Due now then c.emitSupervisory now else c

/-- The link has been idle for `t3`. -/
def t3Due (c : Connection) (now : Instant) : Bool :=
  c.state.isTransfer && c.testSent.isNone
    && expired ([c.lastSendAny, c.lastRecvAny].filterMap id).max? c.config.t3 now

/-- `t3`: test an idle link. -/
def runT3 (c : Connection) (now : Instant) : Connection :=
  if c.t3Due now then { c.emitU .testFrAct now with testSent := some now }
  else c

/-- Nothing is outstanding on a connection that is stopping. -/
def drained (c : Connection) : Bool :=
  decide (c.state = .stopping) && c.sent.isEmpty && c.pending.isEmpty

/-- Close a connection that is stopping once nothing is outstanding. -/
def runStopping (c : Connection) : Connection :=
  if c.drained then
    (c.transition .stopped).push (.disconnect .stoppedCleanly)
  else c

/-- The timer logic. -/
def runTimers (c : Connection) (now : Instant) : Connection :=
  if c.t1Expired now then c.timeOut
  else ((c.runT2 now).runT3 now).runStopping

/-- The input part of `handle`. -/
def onInput (c : Connection) (input : Input) (now : Instant) : Connection :=
  match input with
  | .apdu apdu => c.onApdu apdu now
  | .startDt => c.onUserStartdt now
  | .stopDt => c.onUserStopdt now
  | .sendAsdu asdu => c.onUserSend asdu now
  | .tick => c

/-- **Drive the state machine with an input**: process it, run the timers,
and hand out the queued actions. -/
def handle (c : Connection) (input : Input) (now : Instant) :
    Connection × List Action :=
  let c := (c.onInput input now).runTimers now
  ({ c with actions := [] }, c.actions)

/-- `handle` as the step of a reactive machine whose inputs carry the clock
reading they come with. -/
def step (c : Connection) (i : Input × Instant) : Connection × List Action :=
  c.handle i.1 i.2

end Connection

/-- A call of the connection. -/
abbrev Call := Machine.Call Connection (Input × Instant) Action

/-! ## What an action list says

The proofs read an action list in four ways: the APDUs it sends, the
I-frames among them, the `N(R)` they carry, and the ASDUs it delivers. -/

/-- The contents of an I-frame. -/
structure Iframe where
  send : SeqNo
  recv : SeqNo
  asdu : Bytes
deriving DecidableEq, Repr

/-- The I-frame an APDU is, if it is one. -/
@[simp] def Apdu.iframe? : Apdu → Option Iframe
  | .i send recv asdu => some ⟨send, recv, asdu⟩
  | .s _ => none
  | .u _ => none

/-- The `N(R)` an APDU carries, if it carries one. -/
@[simp] def Apdu.nr? : Apdu → Option SeqNo
  | .i _ recv _ => some recv
  | .s recv => some recv
  | .u _ => none

/-- The APDU an action sends, if it sends one. -/
@[simp] def Action.apdu? : Action → Option Apdu
  | .sendApdu apdu => some apdu
  | .deliverAsdu _ => none
  | .stateChanged _ => none
  | .disconnect _ => none

/-- The ASDU an action delivers, if it delivers one. -/
@[simp] def Action.asdu? : Action → Option Bytes
  | .sendApdu _ => none
  | .deliverAsdu asdu => some asdu
  | .stateChanged _ => none
  | .disconnect _ => none

/-- Whether an action tears the connection down. -/
@[simp] def Action.isDisconnect : Action → Bool
  | .sendApdu _ => false
  | .deliverAsdu _ => false
  | .stateChanged _ => false
  | .disconnect _ => true

/-- The APDUs a list of actions sends. -/
def sends (as : List Action) : List Apdu := as.filterMap Action.apdu?

/-- The I-frames a list of actions sends. -/
def iframes (as : List Action) : List Iframe :=
  (sends as).filterMap Apdu.iframe?

/-- The receive numbers a list of actions sends. -/
def nrs (as : List Action) : List SeqNo := (sends as).filterMap Apdu.nr?

/-- The ASDUs a list of actions delivers. -/
def deliveries (as : List Action) : List Bytes := as.filterMap Action.asdu?

/-- Whether a list of actions tears the connection down. -/
def disconnects (as : List Action) : Bool := as.any Action.isDisconnect

section

variable (as bs : List Action)

@[simp] theorem sends_append : sends (as ++ bs) = sends as ++ sends bs := List.filterMap_append

@[simp] theorem iframes_nil : iframes [] = [] := rfl

@[simp] theorem iframes_append : iframes (as ++ bs) = iframes as ++ iframes bs := by
  rw [iframes, sends_append, List.filterMap_append]
  rfl

@[simp] theorem nrs_nil : nrs [] = [] := rfl

@[simp] theorem nrs_append : nrs (as ++ bs) = nrs as ++ nrs bs := by
  rw [nrs, sends_append, List.filterMap_append]
  rfl

@[simp] theorem deliveries_nil : deliveries [] = [] := rfl

@[simp] theorem deliveries_append : deliveries (as ++ bs) = deliveries as ++ deliveries bs :=
  List.filterMap_append

@[simp] theorem disconnects_nil : disconnects [] = false := rfl

@[simp] theorem disconnects_append : disconnects (as ++ bs) = (disconnects as || disconnects bs) :=
  List.any_append

end

@[simp] theorem sends_nil : sends [] = [] := rfl

@[simp] theorem sends_cons (a : Action) (as : List Action) :
    sends (a :: as) = a.apdu?.toList ++ sends as :=
  Machine.filterMap_cons_toList Action.apdu? a as

@[simp] theorem iframes_cons (a : Action) (as : List Action) :
    iframes (a :: as) = (a.apdu?.bind Apdu.iframe?).toList ++ iframes as := by
  rcases a with (_ | _ | _) | _ | _ | _ <;> rfl

@[simp] theorem nrs_cons (a : Action) (as : List Action) :
    nrs (a :: as) = (a.apdu?.bind Apdu.nr?).toList ++ nrs as := by
  rcases a with (_ | _ | _) | _ | _ | _ <;> rfl

@[simp] theorem deliveries_cons (a : Action) (as : List Action) :
    deliveries (a :: as) = a.asdu?.toList ++ deliveries as :=
  Machine.filterMap_cons_toList Action.asdu? a as

@[simp] theorem disconnects_cons (a : Action) (as : List Action) :
    disconnects (a :: as) = (a.isDisconnect || disconnects as) := rfl

/-! ## What the methods leave alone

Every method but the two loops is a record update, so its effect on a field
is immediate once `transition` is written as one. The loops are handled by
what they keep: `Connection.core` is the part of a connection that sending
I-frames does not touch. -/

namespace Connection

/-- A transition changes the state and reports it, if it is a change. -/
theorem transition_eq (c : Connection) (target : State) : c.transition target = { c with
          state := target
          actions := c.actions ++ if c.state ≠ target then [.stateChanged target] else [] } := by
  unfold transition
  split
  · rfl
  · rename_i h
    rw [← not_not.mp h, List.append_nil]

@[simp] theorem transition_state (c : Connection) (target : State) :
    (c.transition target).state = target := by
  rw [transition_eq]

/-- Who the connection is, what it expects of the peer, and when it last
heard of it. -/
def core (c : Connection) :
    Role × Config × State × SeqNo × Option Instant × Option Instant :=
  (c.role, c.config, c.state, c.recvNext, c.lastRecvIframe, c.testSent)

/-- The flush loop keeps the core. -/
theorem core_flushLoop (now : Instant) (q : List Bytes) (c : Connection) :
    (flushLoop now q c).core = c.core := by
  induction q generalizing c with
  | nil => rfl
  | cons asdu rest ih =>
    rw [flushLoop]
    split
    · rw [ih]
      rfl
    · rfl

section Flush

variable (c : Connection) (now : Instant) (nr : SeqNo)

@[simp] theorem flushPending_role : (c.flushPending now).role = c.role :=
  congrArg Prod.fst (core_flushLoop now c.pending c)

@[simp] theorem flushPending_config : (c.flushPending now).config = c.config :=
  congrArg (fun v => v.2.1) (core_flushLoop now c.pending c)

@[simp] theorem flushPending_state : (c.flushPending now).state = c.state :=
  congrArg (fun v => v.2.2.1) (core_flushLoop now c.pending c)

@[simp] theorem flushPending_lastRecvIframe :
    (c.flushPending now).lastRecvIframe = c.lastRecvIframe :=
  congrArg (fun v => v.2.2.2.2.1) (core_flushLoop now c.pending c)

@[simp] theorem flushPending_testSent : (c.flushPending now).testSent = c.testSent :=
  congrArg (fun v => v.2.2.2.2.2) (core_flushLoop now c.pending c)

@[simp] theorem acknowledge_state : (c.acknowledge nr now).state = c.state :=
  flushPending_state _ now

end Flush

/-! ## What an input does

Every proof about an input goes through the same paths of the handlers.
`Course` lists them, with what is known on each and the connection it leads
to, and `course_onInput` says that the list is complete. -/

/-- The I-frame a connection accepts with an input, if it accepts one: the
frame arrives in the data-transfer phase and carries the expected send
number. -/
def accepts (c : Connection) : Input → Option Iframe
  | .apdu (.i send recv asdu) =>
    if c.state.isTransfer && send == c.recvNext then some ⟨send, recv, asdu⟩
    else none
  | .apdu (.s _) => none
  | .apdu (.u _) => none
  | .startDt => none
  | .stopDt => none
  | .sendAsdu _ => none
  | .tick => none

/-- The U-frames a connection in a role and a state refuses. -/
def refuses (role : Role) (state : State) : UFunction → Bool
  | .startDtCon => !(role == .client && state == .starting)
  | .startDtAct => !(role == .server && state == .stopped)
  | .stopDtAct => !(role == .server)
  | .stopDtCon => !(role == .client && state == .stopping)
  | .testFrAct => false
  | .testFrCon => false

variable {c : Connection} {send recv : SeqNo} {asdu : Bytes} {f : Iframe} {now : Instant}

/-- An accepted frame is the one in the input, in the data-transfer phase and
with the expected send number. -/
theorem accepts_iframe (h : c.accepts (.apdu (.i send recv asdu)) = some f) :
    c.state.isTransfer = true ∧ send = c.recvNext ∧ f = ⟨send, recv, asdu⟩ := by
  rw [accepts] at h
  split at h
  · rename_i hc
    rw [Bool.and_eq_true, beq_iff_eq] at hc
    exact ⟨hc.1, hc.2, (Option.some.inj h).symm⟩
  · exact absurd h (by simp)

/-- A refused I-frame closes the connection. -/
theorem onIFrame_of_refused (h : c.accepts (.apdu (.i send recv asdu)) = none) :
    c.onIFrame send recv asdu now = c.reject := by
  rw [accepts] at h
  unfold onIFrame
  split
  · rfl
  · rename_i hs
    split
    · rfl
    · rename_i hn
      rw [Bool.not_eq_true, Bool.not_eq_false'] at hs
      rw [not_not] at hn
      rw [hs, hn] at h
      simp at h

/-- The bookkeeping of an accepted I-frame, before it is acted on. -/
def counted (c : Connection) (now : Instant) : Connection :=
  { c with
    recvNext := c.recvNext.next
    unackedRecv := min (c.unackedRecv + 1) (2 ^ 16 - 1)
    lastRecvIframe := some now }

/-- Acknowledge if `w` I-frames are unacknowledged. -/
def ackIfDue (c : Connection) (now : Instant) : Connection :=
  if c.config.w.toNat ≤ c.unackedRecv then c.emitSupervisory now else c

/-- An accepted I-frame is counted, its receive number processed, its ASDU
delivered, and an acknowledgement sent if one is due. -/
theorem onIFrame_of_accepted (h : c.accepts (.apdu (.i send recv asdu)) = some f) :
    c.onIFrame send recv asdu now = (((c.counted now).acknowledge recv now).push
          (.deliverAsdu asdu)).ackIfDue now := by
  obtain ⟨hs, hn, -⟩ := accepts_iframe h
  unfold onIFrame
  rw [hs, if_neg (by simp), if_neg (not_not.mpr hn)]
  rfl

/-- **The courses an input can take.** -/
inductive Course (c : Connection) (now : Instant) : Input → Connection → Prop
  /-- The client asks for data transfer. -/
  | start (h : c.role = .client ∧ c.state = .stopped) :
      Course c now .startDt ((c.emitU .startDtAct now).transition .starting)
  | noStart (h : ¬ (c.role = .client ∧ c.state = .stopped)) : Course c now .startDt c
  /-- The client asks for its end. -/
  | stop (hs : c.state = .active) (hr : c.role = .client) :
      Course c now .stopDt ((c.emitU .stopDtAct now).transition .stopping)
  /-- The server ends it without asking. -/
  | serverStop (hs : c.state = .active) (hr : c.role ≠ .client) :
      Course c now .stopDt (c.transition .stopped)
  | noStop (hs : c.state ≠ .active) : Course c now .stopDt c
  /-- An ASDU waits for its turn. -/
  | queue (asdu : Bytes) (h : c.state = .active → c.config.k.toNat ≤ c.sent.length) :
      Course c now (.sendAsdu asdu) { c with pending := c.pending ++ [asdu] }
  /-- An ASDU is sent at once. -/
  | send (asdu : Bytes) (hs : c.state = .active) (hk : c.sent.length < c.config.k.toNat) :
      Course c now (.sendAsdu asdu) (c.sendIframe asdu now)
  | tick : Course c now .tick c
  /-- An S-frame acknowledges. -/
  | ack (nr : SeqNo) (h : c.state.isTransfer = true) : Course c now (.apdu (.s nr))
        ({ c with lastRecvAny := some now }.acknowledge nr now)
  | noAck (nr : SeqNo) (h : c.state.isTransfer = false) :
      Course c now (.apdu (.s nr)) { c with lastRecvAny := some now }
  /-- An I-frame is accepted. -/
  | accept (send recv : SeqNo) (asdu : Bytes)
      (h : c.accepts (.apdu (.i send recv asdu)) = some ⟨send, recv, asdu⟩) :
      Course c now (.apdu (.i send recv asdu))
        ((((counted { c with lastRecvAny := some now } now).acknowledge recv
          now).push (.deliverAsdu asdu)).ackIfDue now)
  /-- An I-frame is refused. -/
  | refuseI (send recv : SeqNo) (asdu : Bytes) (h : c.accepts (.apdu (.i send recv asdu)) = none) :
      Course c now (.apdu (.i send recv asdu))
        { c with lastRecvAny := some now }.reject
  | startDtCon (hr : c.role = .client) (hs : c.state = .starting) :
      Course c now (.apdu (.u .startDtCon))
        (({ c with lastRecvAny := some now }.transition .active).flushPending now)
  | startDtAct (hr : c.role = .server) (hs : c.state = .stopped) :
      Course c now (.apdu (.u .startDtAct))
        ((({ c with lastRecvAny := some now }.emitU .startDtCon now).transition
          .active).flushPending now)
  | stopDtAct (hr : c.role = .server) : Course c now (.apdu (.u .stopDtAct))
        (({ c with lastRecvAny := some now }.emitU .stopDtCon now).transition
          .stopped)
  | stopDtCon (hr : c.role = .client) (hs : c.state = .stopping) (he : c.sent.isEmpty = true) :
      Course c now (.apdu (.u .stopDtCon))
        (({ c with lastRecvAny := some now }.transition .stopped).push
          (.disconnect .stoppedCleanly))
  /-- STOPDT_con with I-frames outstanding is ignored. -/
  | earlyStopDtCon (hr : c.role = .client) (hs : c.state = .stopping)
      (he : c.sent.isEmpty = false) :
      Course c now (.apdu (.u .stopDtCon)) { c with lastRecvAny := some now }
  | testFrAct : Course c now (.apdu (.u .testFrAct))
        ({ c with lastRecvAny := some now }.emitU .testFrCon now)
  | testFrCon : Course c now (.apdu (.u .testFrCon))
        { c with lastRecvAny := some now, testSent := none }
  /-- A U-frame is refused. -/
  | refuseU (function : UFunction) (h : refuses c.role c.state function = true) :
      Course c now (.apdu (.u function)) { c with lastRecvAny := some now }.reject

/-- The course of a U-frame. -/
theorem course_onUFrame (c : Connection) (function : UFunction) (now : Instant) :
    c.Course now (.apdu (.u function))
      (onUFrame { c with lastRecvAny := some now } function now) := by
  unfold onUFrame
  split
  · exact .startDtCon ‹_› ‹_›
  · exact .startDtAct ‹_› ‹_›
  · exact .stopDtAct ‹_›
  · split
    · exact .stopDtCon ‹_› ‹_› ‹_›
    · exact .earlyStopDtCon ‹_› ‹_› (Bool.eq_false_iff.mpr ‹_›)
  · exact .testFrAct
  · exact .testFrCon
  · -- what matches none of the arms above is what `refuses` lists
    rename_i g _ _ _ _ _ _ _ _ _
    refine .refuseU g ?_
    cases g <;> simp_all [refuses, imp_iff_not_or]

/-- **Every input takes one of the courses.** -/
theorem course_onInput (c : Connection) (input : Input) (now : Instant) :
    c.Course now input (c.onInput input now) := by
  cases input with
  | apdu apdu =>
    cases apdu with
    | i send recv asdu =>
      show c.Course now _ (onIFrame { c with lastRecvAny := some now } send recv
        asdu now)
      cases hacc : c.accepts (.apdu (.i send recv asdu)) with
      | none =>
        rw [onIFrame_of_refused (c := { c with lastRecvAny := some now }) hacc]
        exact .refuseI send recv asdu hacc
      | some f =>
        rw [onIFrame_of_accepted (c := { c with lastRecvAny := some now }) hacc]
        rw [(accepts_iframe hacc).2.2] at hacc
        exact .accept send recv asdu hacc
    | s nr =>
      show c.Course now _ (if c.state.isTransfer then _ else _)
      split
      · exact .ack nr ‹_›
      · exact .noAck nr (Bool.eq_false_iff.mpr ‹_›)
    | u function => exact course_onUFrame c function now
  | startDt =>
    show c.Course now _ (if c.role = .client ∧ c.state = .stopped then _ else _)
    split
    · exact .start ‹_›
    · exact .noStart ‹_›
  | stopDt =>
    show c.Course now _ (if c.state = .active then
      if c.role = .client then _ else _ else _)
    split
    · split
      · exact .stop ‹_› ‹_›
      · exact .serverStop ‹_› ‹_›
    · exact .noStop ‹_›
  | sendAsdu asdu =>
    show c.Course now _ (if c.state ≠ .active then _ else
      if c.config.k.toNat ≤ c.sent.length then _ else _)
    split
    · exact .queue asdu (fun hs => absurd hs ‹_›)
    · split
      · exact .queue asdu (fun _ => ‹_›)
      · exact .send asdu (not_not.mp ‹_›) (not_le.mp ‹_›)
  | tick => exact .tick

/-- Role and parameters, fixed for the life of a connection. -/
def ident (c : Connection) : Role × Config := (c.role, c.config)

@[simp] theorem ident_transition (c : Connection) (target : State) :
    (c.transition target).ident = c.ident := by
  rw [transition_eq]
  rfl

@[simp] theorem ident_flushPending (c : Connection) (now : Instant) :
    (c.flushPending now).ident = c.ident :=
  Prod.ext (flushPending_role c now) (flushPending_config c now)

@[simp] theorem ident_acknowledge (c : Connection) (nr : SeqNo)
    (now : Instant) : (c.acknowledge nr now).ident = c.ident :=
  ident_flushPending _ now

/-- Processing an input does not change role or parameters. -/
theorem ident_onInput (c : Connection) (input : Input) (now : Instant) :
    (c.onInput input now).ident = c.ident := by
  have h := course_onInput c input now
  generalize c.onInput input now = d at h ⊢
  cases h with
  | accept send recv asdu h =>
    unfold ackIfDue
    split
    · exact ident_acknowledge _ recv now
    · exact ident_acknowledge _ recv now
  | ack nr h => exact ident_acknowledge _ nr now
  | startDtCon | startDtAct => rw [ident_flushPending, ident_transition]; rfl
  | start | stop | stopDtAct => rw [ident_transition]; rfl
  | serverStop hs hr => exact ident_transition c _
  | stopDtCon hr hs he => exact ident_transition { c with lastRecvAny := _ } _
  | refuseI | refuseU => exact ident_transition _ _
  | _ => rfl

/-! ## The timers -/

section Timers

variable (c : Connection) (now : Instant)

/-- `t2` touches the acknowledgement bookkeeping only. -/
theorem runT2_eq : c.runT2 now = c ∨ c.runT2 now = c.emitSupervisory now := by
  unfold runT2
  split
  · exact Or.inr rfl
  · exact Or.inl rfl

/-- `t3` sends TESTFR_act or does nothing. -/
theorem runT3_eq : c.runT3 now = c ∨ (c.state.isTransfer = true ∧ c.runT3 now
          = { c.emitU .testFrAct now with testSent := some now }) := by
  unfold runT3
  split
  · rename_i h
    unfold t3Due at h
    simp only [Bool.and_eq_true] at h
    exact Or.inr ⟨h.1.1, rfl⟩
  · exact Or.inl rfl

/-- The stopping tail closes a drained connection or does nothing. -/
theorem runStopping_eq : c.runStopping = c ∨ (c.drained = true ∧ c.runStopping
          = (c.transition .stopped).push (.disconnect .stoppedCleanly)) := by
  unfold runStopping
  split
  · rename_i h
    exact Or.inr ⟨h, rfl⟩
  · exact Or.inl rfl

/-- **The timers compose four deeds**: closing on an overdue ACK, an S-frame,
a TESTFR_act, and the end of a drained connection. A reflexive and transitive
relation that holds across each of them holds across the timers. -/
theorem runTimers_rel {R : Connection → Connection → Prop}
    (hrefl : ∀ d, R d d) (htrans : ∀ d e f, R d e → R e f → R d f)
    (h₁ : ∀ d, R d d.timeOut) (h₂ : ∀ d, R d (d.emitSupervisory now))
    (h₃ : ∀ d, R d { d.emitU .testFrAct now with testSent := some now })
    (h₄ : ∀ d, R d ((d.transition .stopped).push (.disconnect .stoppedCleanly))) :
    R c (c.runTimers now) := by
  have ht₂ : R c (c.runT2 now) := by
    obtain h | h := runT2_eq c now
    · rw [h]
      exact hrefl c
    · rw [h]
      exact h₂ c
  have ht₃ : ∀ d : Connection, R d (d.runT3 now) := by
    intro d
    obtain h | ⟨-, h⟩ := runT3_eq d now
    · rw [h]
      exact hrefl d
    · rw [h]
      exact h₃ d
  have ht₄ : ∀ d : Connection, R d d.runStopping := by
    intro d
    obtain h | ⟨-, h⟩ := runStopping_eq d
    · rw [h]
      exact hrefl d
    · rw [h]
      exact h₄ d
  unfold runTimers
  split
  · exact h₁ c
  · exact htrans _ _ _ ht₂ (htrans _ _ _ (ht₃ _) (ht₄ _))

/-- The timers do not change role or parameters. -/
theorem ident_runTimers : (c.runTimers now).ident = c.ident :=
  runTimers_rel c now (R := fun d e => e.ident = d.ident) (fun _ => rfl)
    (fun _ _ _ h h' => h'.trans h) (fun _ => ident_transition _ _)
    (fun _ => rfl) (fun _ => rfl) (fun d => ident_transition d _)

end Timers

/-- A call does not change role or parameters. -/
theorem ident_handle (c : Connection) (input : Input) (now : Instant) :
    (c.handle input now).1.ident = c.ident :=
  (ident_runTimers _ now).trans (ident_onInput c input now)

/-- **Role and parameters are those the connection was built with**, and the
action queue is empty between calls. -/
theorem ident_of_run {role : Role} {config : Config} {h : List Call}
    (r : Machine.Run step (new role config) h c) :
    c.role = role ∧ c.config = config ∧ c.actions = [] := by
  induction r with
  | nil => exact ⟨rfl, rfl, rfl⟩
  | @snoc g d r i ih =>
    have hid := ident_handle d i.1 i.2
    exact ⟨(congrArg Prod.fst hid).trans ih.1, (congrArg Prod.snd hid).trans ih.2.1, rfl⟩

end Connection

end Frame104
