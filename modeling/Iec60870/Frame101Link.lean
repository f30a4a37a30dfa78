import Iec60870.Machine
import Iec60870.Frame101Control

/-!
# The link-layer machine of IEC 60870-5-101

The state machine of `frame101/link.rs` in its unbalanced mode: a master
that sends and polls, an outstation that answers. `Connection.handle` is one
call – an input and a reading of the clock – and returns the actions the
surrounding layer has to perform. As in the source, a handler changes the
connection and appends to its list of actions, the timers run after every
input, and the list is handed out at the end of the call.

Instants and durations are natural numbers of one unit, so that
`saturating_duration_since` is truncated subtraction. The counter of
transmissions is an octet and wraps, as the source's does without overflow
checks.

The machine is over an arbitrary type of ASDUs and commutes with renaming
them (`Connection.handle_map`): it moves ASDUs around and never looks at
them.
-/

namespace Frame101

open Machine

/-! ## The vocabulary of the machine -/

/-- A reading of the clock (`Instant`). -/
abbrev Instant := ℕ

/-- The parameters of a connection (`Config`). -/
structure Config where
  /-- The address of the outstation. -/
  linkAddress : LinkAddress
  /-- How long the master waits for an acknowledgement. -/
  timeout : ℕ
  /-- How often it retransmits before the link is down. -/
  maxRetries : UInt8
deriving DecidableEq, Repr

/-- The default parameters, with the timeout in seconds. -/
def Config.default : Config where
  linkAddress := ⟨0⟩
  timeout := 1
  maxRetries := 3

/-- The two roles (`Role`). -/
inductive Role where
  | master
  | outstation
deriving DecidableEq, Repr

/-- The transfer modes (`Mode`). -/
inductive Mode where
  | unbalanced
  | balanced
deriving DecidableEq, Repr

/-- The state of the link (`LinkState`). -/
inductive LinkState where
  | notReady
  | ready
  | failed
deriving DecidableEq, Repr

/-- The inputs of the machine (`Input`). -/
inductive Input (α : Type) where
  | frameReceived (frame : Frame α)
  | tick
  | sendUserData (asdu : α)
  | requestStatus
  | resetRemoteLink
  | requestUserDataClass1
  | requestUserDataClass2
deriving DecidableEq, Repr

/-- Why a link error is reported (`Reason`). -/
inductive Reason where
  | ackTimeout
  | nack
  | protocolError
deriving DecidableEq, Repr

/-- The actions of the machine (`Action`). -/
inductive Action (α : Type) where
  | sendFrame (frame : Frame α)
  | deliverAsdu (asdu : α)
  | linkStateChanged (state : LinkState)
  | linkError (reason : Reason)
deriving DecidableEq, Repr

/-- A frame that awaits its acknowledgement (`PendingSend`). -/
structure PendingSend (α : Type) where
  /-- The frame, kept for retransmission. -/
  frame : Frame α
  /-- When it was last transmitted. -/
  sentAt : Instant
  /-- How often it has been transmitted. -/
  attempts : UInt8
deriving DecidableEq, Repr

/-- **A connection** (`Connection`), at either end of the link. -/
structure Connection (α : Type) where
  role : Role
  config : Config
  linkState : LinkState
  /-- The frame count bit of the master's next send. -/
  fcb : Bool
  /-- The frame count bit the outstation has seen last. -/
  lastFcbSeen : Option Bool
  /-- The exchange in progress. -/
  pending : Option (PendingSend α)
  /-- The ASDUs to be sent. -/
  sendQueue : List α
  /-- The actions of the current call. -/
  actions : List (Action α)
deriving DecidableEq, Repr

namespace Connection

variable {α : Type}

/-- A new connection in the unbalanced mode. -/
def unbalanced (role : Role) (config : Config) : Connection α where
  role := role
  config := config
  linkState := .notReady
  fcb := false
  lastFcbSeen := none
  pending := none
  sendQueue := []
  actions := []

/-- A new connection (`new`): the balanced mode is not implemented, and
asking for it panics. -/
def new (role : Role) (mode : Mode) (config : Config) : Option (Connection α) :=
  if mode ≠ .balanced then some (unbalanced role config) else none

/-! ## Emitting -/

/-- Append an action to those of the call. -/
def emit (c : Connection α) (a : Action α) : Connection α :=
  { c with actions := c.actions ++ [a] }

/-- Enter a state of the link (`transition_link`). -/
def transitionLink (c : Connection α) (newState : LinkState) : Connection α :=
  if c.linkState ≠ newState then
    { c with linkState := newState }.emit (.linkStateChanged newState)
  else c

/-- Report an error (`emit_link_error`). -/
def emitLinkError (c : Connection α) (reason : Reason) : Connection α :=
  c.emit (.linkError reason)

/-- The control frame with a control field (`build_fixed`). -/
def buildFixed (c : Connection α) (cf : ControlField) : Frame α :=
  .fixedLength cf.encode c.config.linkAddress

/-- An answer of the outstation without an ASDU. -/
def answer (func : FuncCodeSecondary) (c : Connection α) : Connection α :=
  c.emit (.sendFrame (c.buildFixed (.secondary false false func)))

/-- Acknowledge (`send_ack`). -/
def sendAck (c : Connection α) : Connection α := answer .ack c

/-- Report the status of the link (`send_status`). -/
def sendStatus (c : Connection α) : Connection α := answer .statusOfLink c

/-- Report that there is no data (`send_nack_no_data`). -/
def sendNackNoData (c : Connection α) : Connection α := answer .nackNoData c

/-- Answer with an ASDU (`send_respond_user_data`). -/
def sendRespondUserData (c : Connection α) (asdu : α) : Connection α :=
  c.emit (.sendFrame (.variableLength
    (ControlField.encode (.secondary false false .respondUserData))
    c.config.linkAddress asdu))

/-- Send a frame and wait for its acknowledgement (`send_with_confirm`). -/
def sendWithConfirm (c : Connection α) (frame : Frame α) (now : Instant) :
    Connection α :=
  { c.emit (.sendFrame frame) with pending := some ⟨frame, now, 1⟩ }

/-- The frame of a confirmed send. -/
def userDataFrame (address : LinkAddress) (fcb : Bool) (asdu : α) : Frame α :=
  .variableLength (ControlField.encode (.primary fcb true .userDataConfirmed)) address asdu

/-- Send the next queued ASDU unless an exchange is in progress
(`maybe_flush_queue`). -/
def maybeFlushQueue (c : Connection α) (now : Instant) : Connection α :=
  if c.pending.isSome then c
  else
    match c.sendQueue with
    | [] => c
    | asdu :: rest =>
      { { c with sendQueue := rest }.sendWithConfirm
          (userDataFrame c.config.linkAddress c.fcb asdu) now with
        fcb := !c.fcb }

/-! ## The master's receive path -/

/-- A control frame of the outstation (`master_on_secondary_fixed`). -/
def masterOnSecondaryFixed (c : Connection α) (cf : ControlField) (now : Instant) :
    Connection α :=
  match cf with
  | .secondary _ _ .ack =>
    if c.pending.isSome then
      let c := { c with pending := none }
      let c := if c.linkState = .notReady then c.transitionLink .ready else c
      c.maybeFlushQueue now
    else c
  | .secondary _ _ .nack => { c with pending := none }.emitLinkError .nack
  | .secondary _ _ .statusOfLink =>
    let c := { c with pending := none }
    if c.linkState = .notReady then c.transitionLink .ready else c
  | .secondary _ _ .nackNoData => { c with pending := none }
  | _ => c.emitLinkError .protocolError

/-- A frame reaches the master (`master_on_frame`). -/
def masterOnFrame (c : Connection α) (frame : Frame α) (now : Instant) :
    Connection α :=
  match frame with
  | .single .ack =>
    if c.pending.isSome then { c with pending := none }.maybeFlushQueue now else c
  | .single .nack => { c with pending := none }.emitLinkError .nack
  | .fixedLength control _ =>
    match ControlField.decode control .secondary with
    | some cf => c.masterOnSecondaryFixed cf now
    | none => c.emitLinkError .protocolError
  | .variableLength control _ asdu =>
    match ControlField.decode control .secondary with
    | some (.secondary _ _ .respondUserData) =>
      { c with pending := none }.emit (.deliverAsdu asdu)
    | _ => c.emitLinkError .protocolError

/-! ## The outstation's receive path -/

/-- A control frame of the master (`outstation_on_primary_fixed`). -/
def outstationOnPrimaryFixed (c : Connection α) (cf : ControlField) :
    Connection α :=
  match cf with
  | .primary _ _ .resetRemoteLink =>
    ({ c with lastFcbSeen := none }.sendAck).transitionLink .ready
  | .primary _ _ .requestStatus => c.sendStatus
  | .primary _ _ .requestUserDataClass1 | .primary _ _ .requestUserDataClass2 =>
    match c.sendQueue with
    | asdu :: rest => { c with sendQueue := rest }.sendRespondUserData asdu
    | [] => c.sendNackNoData
  | _ => c

/-- A frame of the master with an ASDU (`outstation_on_primary_variable`). A
confirmed send whose frame count bit is the last one seen is a
retransmission: it is acknowledged and not delivered. -/
def outstationOnPrimaryVariable (c : Connection α) (cf : ControlField) (asdu : α) :
    Connection α :=
  match cf with
  | .primary fcb fcv .userDataConfirmed =>
    let duplicate := if fcv then c.lastFcbSeen == some fcb else false
    let c := if fcv then { c with lastFcbSeen := some fcb } else c
    let c := c.sendAck
    if !duplicate then c.emit (.deliverAsdu asdu) else c
  | .primary _ _ .userDataUnconfirmed => c.emit (.deliverAsdu asdu)
  | _ => c

/-- A frame reaches the outstation (`outstation_on_frame`). -/
def outstationOnFrame (c : Connection α) (frame : Frame α) : Connection α :=
  match frame with
  | .fixedLength control address =>
    if address ≠ c.config.linkAddress then c
    else
      match ControlField.decode control .primary with
      | some cf => c.outstationOnPrimaryFixed cf
      | none => c
  | .variableLength control address asdu =>
    if address ≠ c.config.linkAddress then c
    else
      match ControlField.decode control .primary with
      | some cf => c.outstationOnPrimaryVariable cf asdu
      | none => c
  | .single _ => c

/-! ## The calls -/

/-- A frame is received (`on_frame`). -/
def onFrame (c : Connection α) (frame : Frame α) (now : Instant) : Connection α :=
  match c.role with
  | .master => c.masterOnFrame frame now
  | .outstation => c.outstationOnFrame frame

/-- An ASDU is submitted (`on_send_user_data`): the outstation keeps it for
the next poll. -/
def onSendUserData (c : Connection α) (asdu : α) (now : Instant) : Connection α :=
  match c.role with
  | .master => { c with sendQueue := c.sendQueue ++ [asdu] }.maybeFlushQueue now
  | .outstation => { c with sendQueue := c.sendQueue ++ [asdu] }

/-- Ask the outstation something, unless an exchange is in progress. -/
def request (func : FuncCodePrimary) (c : Connection α) (now : Instant) :
    Connection α :=
  if c.role ≠ .master then c
  else if c.pending.isSome then c
  else c.sendWithConfirm (c.buildFixed (.primary false false func)) now

/-- Request the status of the link (`on_request_status`). -/
def onRequestStatus (c : Connection α) (now : Instant) : Connection α :=
  request .requestStatus c now

/-- Request user data (`on_request_class`). -/
def onRequestClass (c : Connection α) (func : FuncCodePrimary) (now : Instant) :
    Connection α :=
  request func c now

/-- Reset the link (`on_reset_remote_link`), giving up the exchange in
progress. -/
def onResetRemoteLink (c : Connection α) (now : Instant) : Connection α :=
  if c.role ≠ .master then c
  else
    { c with pending := none }.sendWithConfirm
      (c.buildFixed (.primary false false .resetRemoteLink)) now

/-- The timers (`run_timers`): an exchange that has timed out is repeated,
or given up after the last retry. -/
def runTimers (c : Connection α) (now : Instant) : Connection α :=
  match c.pending with
  | none => c
  | some p =>
    if now - p.sentAt ≥ c.config.timeout then
      if p.attempts > c.config.maxRetries then
        let c := { c with pending := none }
        let c := c.transitionLink .failed
        c.emit (.linkError .ackTimeout)
      else
        { c with pending := some ⟨p.frame, now, p.attempts + 1⟩ }.emit
          (.sendFrame p.frame)
    else c

/-- What an input does before the timers run. -/
def onInput (c : Connection α) (input : Input α) (now : Instant) : Connection α :=
  match input with
  | .frameReceived frame => c.onFrame frame now
  | .tick => c
  | .sendUserData asdu => c.onSendUserData asdu now
  | .requestStatus => c.onRequestStatus now
  | .resetRemoteLink => c.onResetRemoteLink now
  | .requestUserDataClass1 => c.onRequestClass .requestUserDataClass1 now
  | .requestUserDataClass2 => c.onRequestClass .requestUserDataClass2 now

/-- **One call of the machine** (`handle`). -/
def handle (c : Connection α) (i : Input α × Instant) :
    Connection α × List (Action α) :=
  let d := (c.onInput i.1 i.2).runTimers i.2
  ({ d with actions := [] }, d.actions)

end Connection

/-! ## Renaming the ASDUs -/

section Map

variable {α β : Type} (f : α → β)

/-- Rename the ASDU of an exchange. -/
def PendingSend.map (p : PendingSend α) : PendingSend β :=
  ⟨p.frame.map f, p.sentAt, p.attempts⟩

/-- Rename the ASDU of an input. -/
def Input.map : Input α → Input β
  | .frameReceived frame => .frameReceived (frame.map f)
  | .tick => .tick
  | .sendUserData asdu => .sendUserData (f asdu)
  | .requestStatus => .requestStatus
  | .resetRemoteLink => .resetRemoteLink
  | .requestUserDataClass1 => .requestUserDataClass1
  | .requestUserDataClass2 => .requestUserDataClass2

/-- Rename the ASDU of an action. -/
def Action.map : Action α → Action β
  | .sendFrame frame => .sendFrame (frame.map f)
  | .deliverAsdu asdu => .deliverAsdu (f asdu)
  | .linkStateChanged state => .linkStateChanged state
  | .linkError reason => .linkError reason

namespace Connection

/-- Rename the ASDUs a connection holds. -/
def map (c : Connection α) : Connection β where
  role := c.role
  config := c.config
  linkState := c.linkState
  fcb := c.fcb
  lastFcbSeen := c.lastFcbSeen
  pending := c.pending.map (PendingSend.map f)
  sendQueue := c.sendQueue.map f
  actions := c.actions.map (Action.map f)

variable (c : Connection α)

theorem emit_map (a : Action α) : (c.map f).emit (a.map f) = (c.emit a).map f := by
  unfold emit map
  rw [List.map_append]
  rfl

theorem transitionLink_map (newState : LinkState) :
    (c.map f).transitionLink newState = (c.transitionLink newState).map f := by
  unfold transitionLink
  rw [apply_ite (map f), ← emit_map]
  rfl

theorem sendWithConfirm_map (frame : Frame α) (now : Instant) :
    (c.map f).sendWithConfirm (frame.map f) now = (c.sendWithConfirm frame now).map f := by
  unfold sendWithConfirm
  rw [show (Action.sendFrame (frame.map f)) = (Action.sendFrame frame).map f
    from rfl, emit_map]
  rfl

theorem maybeFlushQueue_map (now : Instant) :
    (c.map f).maybeFlushQueue now = (c.maybeFlushQueue now).map f := by
  obtain ⟨role, config, linkState, fcb, lastFcbSeen, pending, sendQueue, acts⟩ := c
  cases pending with
  | some p => rfl
  | none =>
    cases sendQueue with
    | nil => rfl
    | cons asdu rest =>
      exact congrArg (fun d : Connection β => { d with fcb := !fcb })
        (sendWithConfirm_map f ⟨role, config, linkState, fcb, lastFcbSeen, none,
          rest, acts⟩ (userDataFrame config.linkAddress fcb asdu) now)

/-- What a control frame does to the state of the link commutes with
renaming. -/
theorem ready_map : (if (c.map f).linkState = .notReady then (c.map f).transitionLink .ready
      else c.map f)
      = (if c.linkState = .notReady then c.transitionLink .ready else c).map f := by
  rw [transitionLink_map, apply_ite (map f)]
  rfl

theorem masterOnSecondaryFixed_map (cf : ControlField) (now : Instant) :
    (c.map f).masterOnSecondaryFixed cf now = (c.masterOnSecondaryFixed cf now).map f := by
  have hp : (c.map f).pending.isSome = c.pending.isSome := Option.isSome_map
  cases cf with
  | primary fcb fcv func => exact emit_map f c (.linkError .protocolError)
  | secondary acd dfc func =>
    cases func with
    | ack =>
      unfold masterOnSecondaryFixed
      rw [hp, apply_ite (map f), ← maybeFlushQueue_map, ← ready_map]
      rfl
    | nack => exact emit_map f { c with pending := none } (.linkError .nack)
    | respondUserData => exact emit_map f c (.linkError .protocolError)
    | nackNoData => rfl
    | statusOfLink => exact ready_map f { c with pending := none }

theorem masterOnFrame_map (frame : Frame α) (now : Instant) :
    (c.map f).masterOnFrame (frame.map f) now = (c.masterOnFrame frame now).map f := by
  have hp : (c.map f).pending.isSome = c.pending.isSome := Option.isSome_map
  cases frame with
  | single char =>
    cases char with
    | ack =>
      unfold masterOnFrame Frame.map
      rw [hp, apply_ite (map f), ← maybeFlushQueue_map]
      rfl
    | nack => exact emit_map f { c with pending := none } (.linkError .nack)
  | fixedLength control address =>
    cases hd : ControlField.decode control .secondary with
    | none =>
      simp only [masterOnFrame, Frame.map, hd]
      exact emit_map f c (.linkError .protocolError)
    | some cf =>
      simp only [masterOnFrame, Frame.map, hd]
      exact masterOnSecondaryFixed_map f c cf now
  | variableLength control address asdu =>
    simp only [masterOnFrame, Frame.map]
    split
    · exact emit_map f { c with pending := none } (.deliverAsdu asdu)
    · exact emit_map f c (.linkError .protocolError)

theorem answer_map (func : FuncCodeSecondary) : answer func (c.map f) = (answer func c).map f :=
  emit_map f c (.sendFrame (.fixedLength _ _))

theorem outstationOnPrimaryFixed_map (cf : ControlField) : (c.map f).outstationOnPrimaryFixed cf
      = (c.outstationOnPrimaryFixed cf).map f := by
  have hpoll : (match (c.map f).sendQueue with
      | asdu :: rest => { c.map f with sendQueue := rest }.sendRespondUserData asdu
      | [] => (c.map f).sendNackNoData)
      = (match c.sendQueue with
      | asdu :: rest => { c with sendQueue := rest }.sendRespondUserData asdu
      | [] => c.sendNackNoData).map f := by
    obtain ⟨role, config, linkState, fcb, lastFcbSeen, pending, queue, acts⟩ := c
    cases queue with
    | nil => exact answer_map f _ .nackNoData
    | cons asdu rest =>
      exact emit_map f ⟨role, config, linkState, fcb, lastFcbSeen, pending, rest,
        acts⟩ (.sendFrame (.variableLength _ _ asdu))
  cases cf with
  | secondary acd dfc func => rfl
  | primary fcb fcv func =>
    cases func with
    | resetRemoteLink =>
      unfold outstationOnPrimaryFixed
      rw [← transitionLink_map]
      exact congrArg (transitionLink · .ready) (answer_map f { c with lastFcbSeen := none } .ack)
    | requestStatus => exact answer_map f c .statusOfLink
    | requestUserDataClass1 | requestUserDataClass2 => exact hpoll
    | resetUserProcess | userDataConfirmed | userDataUnconfirmed => rfl

theorem confirm_map (duplicate : Bool) (asdu : α) :
    (if !duplicate then (c.map f).sendAck.emit (.deliverAsdu (f asdu))
      else (c.map f).sendAck)
      = (if !duplicate then c.sendAck.emit (.deliverAsdu asdu)
        else c.sendAck).map f := by
  rw [apply_ite (map f), ← emit_map]
  unfold sendAck
  rw [answer_map]
  rfl

theorem outstationOnPrimaryVariable_map (cf : ControlField) (asdu : α) :
    (c.map f).outstationOnPrimaryVariable cf (f asdu)
      = (c.outstationOnPrimaryVariable cf asdu).map f := by
  cases cf with
  | secondary acd dfc func => rfl
  | primary fcb fcv func =>
    cases func with
    | userDataConfirmed =>
      cases fcv with
      | false => exact confirm_map f c false asdu
      | true =>
        exact confirm_map f { c with lastFcbSeen := some fcb }
          (c.lastFcbSeen == some fcb) asdu
    | userDataUnconfirmed => exact emit_map f c (.deliverAsdu asdu)
    | _ => rfl

theorem outstationOnFrame_map (frame : Frame α) :
    (c.map f).outstationOnFrame (frame.map f) = (c.outstationOnFrame frame).map f := by
  cases frame with
  | single char => rfl
  | fixedLength control address =>
    simp only [outstationOnFrame, Frame.map, apply_ite (map f)]
    refine if_congr Iff.rfl rfl ?_
    cases ControlField.decode control .primary with
    | none => rfl
    | some cf => exact outstationOnPrimaryFixed_map f c cf
  | variableLength control address asdu =>
    simp only [outstationOnFrame, Frame.map, apply_ite (map f)]
    refine if_congr Iff.rfl rfl ?_
    cases ControlField.decode control .primary with
    | none => rfl
    | some cf => exact outstationOnPrimaryVariable_map f c cf asdu

theorem onFrame_map (frame : Frame α) (now : Instant) :
    (c.map f).onFrame (frame.map f) now = (c.onFrame frame now).map f := by
  unfold onFrame
  rw [show (c.map f).role = c.role from rfl]
  cases c.role with
  | master => exact masterOnFrame_map f c frame now
  | outstation => exact outstationOnFrame_map f c frame

theorem onSendUserData_map (asdu : α) (now : Instant) :
    (c.map f).onSendUserData (f asdu) now = (c.onSendUserData asdu now).map f := by
  have hq : { c.map f with sendQueue := (c.map f).sendQueue ++ [f asdu] }
      = { c with sendQueue := c.sendQueue ++ [asdu] }.map f := by
    unfold map
    rw [List.map_append]
    rfl
  unfold onSendUserData
  rw [hq, maybeFlushQueue_map, show (c.map f).role = c.role from rfl]
  cases c.role with
  | master | outstation => rfl

theorem request_map (func : FuncCodePrimary) (now : Instant) :
    request func (c.map f) now = (request func c now).map f := by
  have hp : (c.map f).pending.isSome = c.pending.isSome := Option.isSome_map
  unfold request
  rw [hp, apply_ite (map f), apply_ite (map f), ← sendWithConfirm_map]
  rfl

theorem onResetRemoteLink_map (now : Instant) :
    (c.map f).onResetRemoteLink now = (c.onResetRemoteLink now).map f := by
  unfold onResetRemoteLink
  rw [apply_ite (map f), ← sendWithConfirm_map]
  rfl

theorem runTimers_map (now : Instant) : (c.map f).runTimers now = (c.runTimers now).map f := by
  obtain ⟨role, config, linkState, fcb, lastFcbSeen, pending, queue, acts⟩ := c
  cases pending with
  | none => rfl
  | some p =>
    simp only [runTimers, apply_ite (map f), ← emit_map, ← transitionLink_map]
    rfl

theorem onInput_map (input : Input α) (now : Instant) :
    (c.map f).onInput (input.map f) now = (c.onInput input now).map f := by
  cases input with
  | frameReceived frame => exact onFrame_map f c frame now
  | tick => rfl
  | sendUserData asdu => exact onSendUserData_map f c asdu now
  | requestStatus | requestUserDataClass1 | requestUserDataClass2 => exact request_map f c _ now
  | resetRemoteLink => exact onResetRemoteLink_map f c now

/-- **The machine never looks at an ASDU**: renaming them before a call is
renaming them after it. -/
theorem handle_map (i : Input α × Instant) : (c.map f).handle (i.1.map f, i.2)
      = ((c.handle i).1.map f, (c.handle i).2.map (Action.map f)) := by
  unfold handle
  rw [onInput_map, runTimers_map]
  rfl

end Connection

end Map

end Frame101
