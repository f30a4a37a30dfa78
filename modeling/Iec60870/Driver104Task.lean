import Mathlib.Data.Finset.Basic
import Iec60870.AsduEnvelope
import Iec60870.Driver104Receive
import Iec60870.Frame104Recv

/-!
# The driver task

The task that owns a connection and its transport (`driver.rs`). It waits for
a command of the application, for its timer or for octets of the peer, hands
each to the connection and performs the actions that come back, one after the
other: it writes APDUs to the transport, reports events to the application,
and delivers ASDUs. An ASDU that the policy refuses is dropped; one of a file
transfer goes to the file transfer service, through a channel of its own, and
every other one to the application.

`Driver.apply` is one of these steps, as far as the task may run before
another one does. After a read the task is in its decode loop until no
complete APDU is left, and looks at nothing else meanwhile. If the channel to
the service is full, it waits there.

What the task still has to deliver to the service is `Driver.pending`: it is
fixed when a read begins, by what the buffer holds then, and each step of the
loop that delivers an ASDU takes one away (`pending_apply`).
-/

namespace Frame104

open Iec60870 Chunked

/-! ## Which ASDUs go where -/

/-- What the application accepts from the peer (`AsduPolicy`); an axis without
a list is unrestricted. -/
structure AsduPolicy where
  allowedTypeIds : Option (Finset UInt8)
  allowedCauses : Option (Finset UInt8)
  allowedCommonAddresses : Option (Finset UInt16)

namespace AsduPolicy

/-- The policy that accepts everything. -/
def new : AsduPolicy := ⟨none, none, none⟩

/-- Whether an axis is restricted (`is_restrictive`). -/
def isRestrictive (p : AsduPolicy) : Bool :=
  p.allowedTypeIds.isSome || p.allowedCauses.isSome
    || p.allowedCommonAddresses.isSome

/-- Whether an axis lets a value pass. -/
def onAxis {α : Type} [DecidableEq α] (allowed : Option (Finset α)) (a : α) : Bool :=
  match allowed with
  | some set => decide (a ∈ set)
  | none => true

/-- Whether a header is accepted (`allows`). -/
def allows (p : AsduPolicy) (typeId causeRaw : UInt8) (ca : UInt16) : Bool :=
  onAxis p.allowedTypeIds typeId && onAxis p.allowedCauses causeRaw
    && onAxis p.allowedCommonAddresses ca

end AsduPolicy

/-- Whether the header of an ASDU passes the policy (`asdu_passes_policy`); one
that is too short passes. -/
def asduPassesPolicy (asdu : Bytes) (policy : AsduPolicy) : Bool :=
  match asdu with
  | typeId :: _ :: cause :: _ :: lo :: hi :: _ =>
    policy.allows typeId (cause &&& 0x3F) (UInt16.ofNat (Wire.ofLe [lo, hi]))
  | _ => true

/-- Whether an ASDU is one of a file transfer, by its first octet. -/
def isFileTransfer (asdu : Bytes) : Bool :=
  match asdu with
  | typeId :: _ => decide (120 ≤ typeId ∧ typeId ≤ 126)
  | [] => false

/-- Where a delivered ASDU goes. -/
inductive Destination where
  /-- Nowhere: the policy refuses it, or it cannot be decoded. -/
  | dropped
  /-- To the file transfer service, with its common address. -/
  | service (ca : CommonAddress) (asdu : Asdu)
  | application
deriving DecidableEq

/-- **Where a delivered ASDU goes** (the arm `DeliverAsdu` of `apply_actions`,
of a connection with a file transfer service). -/
def destination (policy : AsduPolicy) (asdu : Bytes) : Destination :=
  if policy.isRestrictive && !asduPassesPolicy asdu policy then .dropped
  else if isFileTransfer asdu then
    match (Asdu.decode AsduAddressing.iec104).run asdu with
    | .ok (parsed, _) => .service parsed.ca parsed
    | .error _ => .dropped
  else .application

/-! ## The task -/

/-- The commands to the driver (`Command`). -/
inductive Command where
  | sendAsdu (asdu : Bytes)
  | startDt
  | stopDt
deriving DecidableEq, Repr

/-- The input a command is for the connection. -/
def Command.input : Command → Input
  | .sendAsdu asdu => .sendAsdu asdu
  | .startDt => .startDt
  | .stopDt => .stopDt

/-- What the driver reports to the application (`DriverEvent`). -/
inductive DriverEvent where
  | asdu (asdu : Bytes)
  | stateChanged (state : State)
  | closed (reason : Option DisconnectReason)
deriving DecidableEq, Repr

/-- What the driver does that can be seen from outside. -/
inductive DriverEffect where
  /-- Octets written to the transport. -/
  | wrote (octets : Bytes)
  | event (e : DriverEvent)
  /-- An ASDU sent to the file transfer service. -/
  | routed (ca : CommonAddress) (asdu : Asdu)
deriving DecidableEq

/-- Where the task is. -/
inductive Phase where
  /-- It waits for a command, the timer or octets (`select!`). -/
  | waiting
  /-- It performs actions (`apply_actions`), in the decode loop or not. -/
  | applying (rest : List Action) (keepGoing decoding : Bool)
  /-- It has returned. -/
  | ended
deriving DecidableEq, Repr

/-- **The driver task** (`run`). -/
structure Driver where
  policy : AsduPolicy
  conn : Connection
  rxBuf : Bytes
  phase : Phase
  /-- The application still takes events. -/
  listening : Bool

namespace Driver

/-- The task before anything has happened. -/
def init (role : Role) (config : Config) (policy : AsduPolicy) : Driver :=
  ⟨policy, Connection.new role config, [], .waiting, true⟩

/-- Hand an input to the connection and start on its actions. -/
def handle (d : Driver) (input : Input) (now : Instant) (decoding : Bool) :
    Driver :=
  let r := d.conn.handle input now
  { d with conn := r.1, phase := .applying r.2 true decoding }

/-- A command arrives. -/
def onCommand (d : Driver) (cmd : Command) (now : Instant) : Driver :=
  d.handle cmd.input now false

/-- The timer fires. -/
def onTick (d : Driver) (now : Instant) : Driver := d.handle .tick now false

/-- An event for the application, if it still takes them. -/
def tell (d : Driver) (e : DriverEvent) : List DriverEffect :=
  if d.listening then [.event e] else []

/-- Octets arrive; none are the end of the stream. -/
def onRead (d : Driver) (chunk : Bytes) : Driver × List DriverEffect :=
  if chunk.isEmpty then ({ d with phase := .ended }, d.tell (.closed none))
  else ({ d with rxBuf := d.rxBuf ++ chunk, phase := .applying [] true true }, [])

/-- Report an event; the task ends if no one listens. -/
def report (d : Driver) (e : DriverEvent) (rest : List Action)
    (keepGoing decoding : Bool) : Driver × List DriverEffect :=
  ({ d with phase := .applying rest (keepGoing && d.listening) decoding }, d.tell e)

/-- Perform an action. With a full channel to the service (`room`) the task
waits at an ASDU for it. -/
def perform (d : Driver) (room : Bool) (action : Action) (rest : List Action)
    (keepGoing decoding : Bool) : Driver × List DriverEffect :=
  let next := { d with phase := .applying rest keepGoing decoding }
  match action with
  | .sendApdu apdu =>
    match Codec.encode apdu with
    | .ok octets => (next, [.wrote octets])
    | .error _ => ({ d with phase := .ended }, [])
  | .deliverAsdu asdu =>
    match destination d.policy asdu with
    | .dropped => (next, [])
    | .service ca parsed => if room then (next, [.routed ca parsed]) else (d, [])
    | .application => d.report (.asdu asdu) rest keepGoing decoding
  | .stateChanged state => d.report (.stateChanged state) rest keepGoing decoding
  | .disconnect reason =>
    ({ d with phase := .applying rest false decoding },
      d.tell (.closed (some reason)))

/-- The head of the decode loop: the next APDU of the buffer, or the end of
the loop with its guard. -/
def decodeNext (d : Driver) (now : Instant) : Driver × List DriverEffect :=
  match Codec.decodeSlice d.rxBuf with
  | .error _ => ({ d with phase := .ended }, [])
  | .ok (some (apdu, consumed)) =>
    ({ d with rxBuf := d.rxBuf.drop consumed }.handle (.apdu apdu) now true, [])
  | .ok none =>
    if d.rxBuf.length > MAX_RX_BUFFERED then
      ({ d with phase := .ended }, d.tell (.closed none))
    else ({ d with phase := .waiting }, [])

/-- **One step of the task** that is not at its `select!`. -/
def apply (d : Driver) (room : Bool) (now : Instant) : Driver × List DriverEffect :=
  match d.phase with
  | .applying (action :: rest) keepGoing decoding =>
    d.perform room action rest keepGoing decoding
  | .applying [] false _ => ({ d with phase := .ended }, [])
  | .applying [] true false => ({ d with phase := .waiting }, [])
  | .applying [] true true => d.decodeNext now
  | .waiting | .ended => (d, [])

end Driver

/-! ## What is still to be delivered to the service -/

/-- Whether an ASDU goes to the service. -/
def toService (policy : AsduPolicy) (asdu : Bytes) : Bool :=
  match destination policy asdu with
  | .service _ _ => true
  | _ => false

/-- The ASDUs for the service among the actions of a list. -/
def serviceActions (policy : AsduPolicy) (as : List Action) : ℕ :=
  (deliveries as).countP (toService policy)

/-- The ASDU of an APDU, if it has one. -/
def Apdu.asdu? : Apdu → Option Bytes
  | .i _ _ asdu => some asdu
  | _ => none

/-- **The ASDUs for the service among the complete APDUs of a buffer.** -/
def serviceAsdus (policy : AsduPolicy) (buf : Bytes) : ℕ :=
  ((decodeAll Codec.decodeSlice buf).items.filterMap Apdu.asdu?).countP (toService policy)

/-- **What the task still has to deliver to the service** before it waits
again. -/
def Driver.pending (d : Driver) : ℕ :=
  match d.phase with
  | .applying rest _ decoding =>
    serviceActions d.policy rest + if decoding then serviceAsdus d.policy d.rxBuf else 0
  | .waiting | .ended => 0

/-- The ASDUs for the service among the effects of a step. -/
def routedCount (es : List DriverEffect) : ℕ :=
  es.countP fun
    | .routed _ _ => true
    | _ => false

section Pending

variable {policy : AsduPolicy} {c : Connection}

theorem serviceActions_cons (a : Action) (as : List Action) : serviceActions policy (a :: as)
      = a.asdu?.toList.countP (toService policy) + serviceActions policy as := by
  rw [serviceActions, deliveries_cons, List.countP_append]
  rfl

/-- An APDU delivers no more than its own ASDU. -/
theorem serviceActions_handle_apdu (hc : c.actions = []) (apdu : Apdu)
    (now : Instant) : serviceActions policy (c.handle (.apdu apdu) now).2
      ≤ apdu.asdu?.toList.countP (toService policy) := by
  obtain ⟨-, -, -, -, hdel⟩ :=
    Connection.exists_recvView_handle hc (.apdu apdu) now
  rw [serviceActions, hdel]
  cases haccepts : c.accepts (.apdu apdu) with
  | none => exact Nat.zero_le _
  | some f =>
    cases apdu with
    | i send recv asdu =>
      obtain ⟨-, -, rfl⟩ := Connection.accepts_iframe haccepts
      exact le_rfl
    | s | u => exact absurd haccepts nofun

/-- No other input delivers anything. -/
theorem serviceActions_handle_other (hc : c.actions = []) {input : Input}
    (hi : ∀ apdu, input ≠ .apdu apdu) (now : Instant) :
    serviceActions policy (c.handle input now).2 = 0 := by
  obtain ⟨-, -, -, -, hdel⟩ := Connection.exists_recvView_handle hc input now
  have hnone : c.accepts input = none := by
    cases input with
    | apdu apdu => exact absurd rfl (hi apdu)
    | _ => rfl
  rw [serviceActions, hdel, hnone]
  rfl

/-- The first APDU of a buffer, then the rest. -/
theorem serviceAsdus_some {buf : Bytes} {apdu : Apdu} {n : ℕ}
    (h : Codec.decodeSlice buf = .ok (some (apdu, n))) : serviceAsdus policy buf
      = apdu.asdu?.toList.countP (toService policy) + serviceAsdus policy (buf.drop n) := by
  rw [serviceAsdus, decodeAll_some Codec.incremental_decodeSlice h]
  show ((apdu :: _).filterMap Apdu.asdu?).countP _ = _
  rw [Machine.filterMap_cons_toList, List.countP_append]
  rfl

/-- An event is no ASDU for the service. -/
theorem routedCount_tell (d : Driver) (e : DriverEvent) : routedCount (d.tell e) = 0 := by
  unfold Driver.tell
  split <;> rfl

variable (d : Driver)

/-- What a step of the task leaves and delivers. -/
structure Driver.Delivers (d : Driver) (r : Driver × List DriverEffect) : Prop where
  pending : r.1.pending + routedCount r.2 ≤ d.pending
  policy : r.1.policy = d.policy
  actions : d.conn.actions = [] → r.1.conn.actions = []

/-- Performing an action. -/
theorem delivers_perform (room : Bool) {action : Action} {rest : List Action}
    {keepGoing decoding : Bool}
    (h : d.phase = .applying (action :: rest) keepGoing decoding) :
    d.Delivers (d.perform room action rest keepGoing decoding) := by
  have hpending : d.pending = action.asdu?.toList.countP (toService d.policy)
        + (serviceActions d.policy rest
          + if decoding then serviceAsdus d.policy d.rxBuf else 0) := by
    rw [Driver.pending, h]
    show serviceActions d.policy (action :: rest) + _ = _
    rw [serviceActions_cons, Nat.add_assoc]
  have hnext (k : Bool) :
      { d with phase := .applying rest k decoding }.pending
        = serviceActions d.policy rest
          + if decoding then serviceAsdus d.policy d.rxBuf else 0 := rfl
  have hquiet (k : Bool) {es : List DriverEffect} (hes : routedCount es = 0) :
      d.Delivers ({ d with phase := .applying rest k decoding }, es) := by
    refine ⟨?_, rfl, id⟩
    rw [hpending, hnext, hes]
    exact Nat.le_add_left _ _
  unfold Driver.perform
  dsimp only
  split
  · split
    · exact hquiet _ rfl
    · exact ⟨Nat.zero_le _, rfl, id⟩
  · rename_i asdu
    split
    · exact hquiet _ rfl
    · rename_i ca parsed hdest
      -- An ASDU for the service: with room it leaves what is to be delivered,
      -- without it the task stays where it is.
      split
      · have hone : [asdu].countP (toService d.policy) = 1 := by
          rw [List.countP_singleton, toService, hdest]
          rfl
        refine ⟨?_, rfl, id⟩
        rw [hpending, hnext]
        show _ + 1 ≤ [asdu].countP (toService d.policy) + _
        rw [hone, Nat.add_comm]
      · exact ⟨le_rfl, rfl, id⟩
    · exact hquiet _ (routedCount_tell ..)
  · exact hquiet _ (routedCount_tell ..)
  · exact hquiet _ (routedCount_tell ..)

/-- The head of the decode loop. -/
theorem delivers_decodeNext (hc : d.conn.actions = []) {keepGoing : Bool}
    (h : d.phase = .applying [] keepGoing true) (now : Instant) :
    d.Delivers (d.decodeNext now) := by
  have hpending : d.pending = serviceAsdus d.policy d.rxBuf := by
    rw [Driver.pending, h]
    exact Nat.zero_add _
  unfold Driver.decodeNext
  split
  · exact ⟨Nat.zero_le _, rfl, id⟩
  · rename_i apdu consumed hdecode
    refine ⟨?_, rfl, fun _ => rfl⟩
    rw [hpending, serviceAsdus_some hdecode]
    exact Nat.add_le_add_right (serviceActions_handle_apdu hc apdu now) _
  · split
    · refine ⟨?_, rfl, id⟩
      rw [routedCount_tell]
      exact Nat.zero_le _
    · exact ⟨Nat.zero_le _, rfl, id⟩

/-- **A step of the task delivers what it was to deliver**, and adds nothing
to it. -/
theorem delivers_apply (hc : d.conn.actions = []) (room : Bool) (now : Instant) :
    d.Delivers (d.apply room now) := by
  unfold Driver.apply
  split
  · exact delivers_perform d room ‹_›
  · exact ⟨Nat.zero_le _, rfl, id⟩
  · exact ⟨Nat.zero_le _, rfl, id⟩
  · exact delivers_decodeNext d hc ‹_› now
  · exact ⟨le_rfl, rfl, id⟩
  · exact ⟨le_rfl, rfl, id⟩

/-- With a command or the timer there is nothing to deliver. -/
theorem pending_handle_other (hc : d.conn.actions = []) {input : Input}
    (hi : ∀ apdu, input ≠ .apdu apdu) (now : Instant) :
    (d.handle input now false).pending = 0 :=
  serviceActions_handle_other hc hi now

/-- A read does not touch the connection. -/
theorem conn_onRead (chunk : Bytes) : (d.onRead chunk).1.conn = d.conn := by
  unfold Driver.onRead
  split <;> rfl

/-- With a read it is what the buffer holds. -/
theorem pending_onRead (chunk : Bytes) :
    (d.onRead chunk).1.pending ≤ serviceAsdus d.policy (d.rxBuf ++ chunk) := by
  unfold Driver.onRead
  split
  · exact Nat.zero_le _
  · exact (Nat.zero_add _).le

end Pending

end Frame104
