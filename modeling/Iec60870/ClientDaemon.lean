import Iec60870.Points
import Iec60870.Switchboard

/-!
# The client daemon

The master side of the test tools (`client.rs`). Clients of the control socket ask for
commands and interrogations; each request is a call of its own, and many are in progress
at once. What comes from the outstation goes through one event pump (`process_asdu`),
which has to find the calls that wait for it. For this the state has two maps: the waiters
of commands (`cmd_waiters`), by type identification and address, and the collectors of
interrogations (`interrogations`), by common address and qualifier.

A call and the pump are connected by channels that the call makes. The sender is put
into the map and the receiver stays with the call. In the model, a map and the calls that
have been registered in it are a `Switchboard.Board`: its slots are the entries of the map,
and the line of a call is the call with its receivers. To insert or to remove an entry
drops the sender that was there, and its receiver finds out.

Calls take the lock of the state now and again and do not hold it in between. So a step of
the daemon (`step`) is what a call does under the lock once, or what it finds at one of its
receivers, or an ASDU that the pump takes.

Of the calls, the answers are modelled, and what they send. The cache is there without the
time at which a point was received, and file transfers, the status and the shutdown are
left out.
-/

open Iec60870 FileTransfer Machine Points Switchboard

namespace Client

variable {F32 F64 : Type}

/-! ## What is read from an ASDU -/

/-- Quality bits for an answer. -/
def qualityToWire (overflow : Bool) (quality : Quality) : QualityWire :=
  { overflow
    blocked := quality.blocked
    substituted := quality.substituted
    notTopical := quality.notTopical
    invalid := quality.invalid }

/-- Those of a measured value (`qds_to_wire`). -/
def qdsToWire (qds : Qds) : QualityWire := qualityToWire qds.overflow qds.quality

/-- Those of a single point (`siq_to_wire`). -/
def siqToWire (siq : Siq) : QualityWire := qualityToWire false siq.quality

/-- Those of a double point (`diq_to_wire`). -/
def diqToWire (diq : Diq) : QualityWire := qualityToWire false diq.quality

/-- The state of a double point (`dp_to_wire`). -/
def dpToWire : DoublePoint → DoublePointWire
  | .intermediate => .intermediate
  | .off => .off
  | .on => .on
  | .indeterminate => .indeterminate

/-- A point that was reported, as a collector gets it. -/
structure Point (F32 : Type) where
  kind : PointKind
  ioa : UInt32
  value : PointValue F32
  quality : QualityWire
deriving DecidableEq, Repr

/-- The number under which a point is kept (`seen`). -/
def Point.key (p : Point F32) : UInt8 × UInt32 := (p.kind.typeId, p.ioa)

/-- An information object of a monitor type: a point, and its time tag if it has one. -/
structure Observation (F32 : Type) where
  point : Point F32
  timestamp : Option Cp56Time2a
deriving DecidableEq, Repr

/-- The objects of an ASDU, if it can be read as one of the type. -/
def objects {E : Type} (T : Payload (List (Ioa × E))) (a : Asdu) (kind : PointKind)
    (read : E → PointValue F32 × QualityWire × Option Cp56Time2a) : List (Observation F32) :=
  match a.decodePayload T .iec104 with
  | .ok objects => objects.map fun o =>
    let (value, quality, timestamp) := read o.2
    ⟨⟨kind, o.1.raw, value, quality⟩, timestamp⟩
  | .error _ => []

/-- **What an ASDU reports** (the last part of `process_asdu`). -/
def observations (fp : PointArith F32 F64) (a : Asdu) : List (Observation F32) :=
  match a.typeId with
  | 1 => objects M_SP_NA_1 a .spNa fun siq => (.single siq.on, siqToWire siq, none)
  | 3 => objects M_DP_NA_1 a .dpNa fun diq => (.double (dpToWire diq.state), diqToWire diq, none)
  | 9 => objects M_ME_NA_1 a .meNa fun (nva, qds) =>
    (.normalized (nvaAsF32 fp nva), qdsToWire qds, none)
  | 11 => objects M_ME_NB_1 a .meNb fun (sva, qds) => (.scaled sva.raw, qdsToWire qds, none)
  | 13 => objects M_ME_NC_1 a .meNc fun (r32, qds) =>
    (.float (fp.ofBits32 r32.bits), qdsToWire qds, none)
  | 30 => objects M_SP_TB_1 a .spTb fun (siq, ts) => (.single siq.on, siqToWire siq, some ts)
  | 31 => objects M_DP_TB_1 a .dpTb fun (diq, ts) =>
    (.double (dpToWire diq.state), diqToWire diq, some ts)
  | 34 => objects M_ME_TD_1 a .meTd fun (nva, qds, ts) =>
    (.normalized (nvaAsF32 fp nva), qdsToWire qds, some ts)
  | 35 => objects M_ME_TE_1 a .meTe fun (sva, qds, ts) =>
    (.scaled sva.raw, qdsToWire qds, some ts)
  | 36 => objects M_ME_TF_1 a .meTf fun (r32, qds, ts) =>
    (.float (fp.ofBits32 r32.bits), qdsToWire qds, some ts)
  | _ => []

/-- The ASDU ends an interrogation. -/
def isTermination (a : Asdu) : Bool :=
  a.cot.cause == .activationTermination && a.typeId == C_IC_NA_1.typeId

/-- The types of the commands (`cmd_type_ids`). -/
def cmdTypeIds : List UInt8 :=
  [C_SC_NA_1.typeId, C_DC_NA_1.typeId, C_RC_NA_1.typeId, C_SE_NA_1.typeId, C_SE_NB_1.typeId,
    C_SE_NC_1.typeId]

/-- The ASDU confirms a command. -/
def isConfirmation (a : Asdu) : Bool :=
  a.cot.cause == .activationCon && cmdTypeIds.contains a.typeId

/-- An interrogation or a command reports nothing. -/
theorem observations_of_mem {fp : PointArith F32 F64} {a : Asdu}
    (h : a.typeId ∈ C_IC_NA_1.typeId :: cmdTypeIds) : observations fp a = [] := by
  generalize ht : a.typeId = t at h
  unfold observations
  rw [ht]
  simp only [cmdTypeIds, List.mem_cons, List.not_mem_nil, or_false] at h
  obtain rfl | rfl | rfl | rfl | rfl | rfl | rfl := h <;> rfl

/-- The address of the first object. All commands begin with one of three octets. -/
def firstIoa : Bytes → Option UInt32
  | b₀ :: b₁ :: b₂ :: _ =>
    some (b₀.toUInt32 ||| (b₁.toUInt32 <<< 8) ||| (b₂.toUInt32 <<< 16))
  | _ => none

/-! ## Calls -/

/-- A oneshot channel, as its receiver finds it. -/
inductive Oneshot (α : Type) where
  | pending
  | sent (a : α)
  /-- The sender was dropped. -/
  | dropped
deriving DecidableEq, Repr

namespace Oneshot

variable {α : Type}

/-- The sender sends; it can do so once. -/
def send (a : α) : Oneshot α → Oneshot α
  | pending => sent a
  | o => o

/-- The sender is dropped. -/
def drop : Oneshot α → Oneshot α
  | pending => dropped
  | o => o

end Oneshot

/-- What `send_command_and_wait` is called with; `bytes` is the ASDU that it sends. -/
structure CommandRequest where
  typeId : UInt8
  ioa : UInt32
  ca : UInt16
  bytes : Bytes
deriving DecidableEq, Repr

/-- The key of the waiter. -/
def CommandRequest.key (req : CommandRequest) : UInt8 × UInt32 := (req.typeId, req.ioa)

/-- The answer to a command that was confirmed. -/
structure Confirmation where
  cot : String
  negative : Bool
deriving DecidableEq, Repr

/-- Where a call of `send_command_and_wait` is. -/
inductive CommandStage where
  /-- The waiter is registered, and the ASDU is on its way to the connection. -/
  | sending
  /-- It waits for the confirmation. -/
  | waiting
  /-- It is about to remove the waiter, and to answer with the error. -/
  | failing (message : String)
  | answered (response : Except String Confirmation)
deriving DecidableEq

/-- A call of `send_command_and_wait`, with the receiver `ack_rx`. -/
structure CommandCall where
  request : CommandRequest
  ack : Oneshot Bool
  stage : CommandStage

/-- The sender of the call is dropped. -/
def CommandCall.hangUp (call : CommandCall) : CommandCall := { call with ack := call.ack.drop }

/-- The pump sends whether the confirmation is a negative one. -/
def CommandCall.confirm (negative : Bool) (call : CommandCall) : CommandCall :=
  { call with ack := call.ack.send negative }

/-- What the call answers when it finds something at its receiver. -/
def CommandCall.response (call : CommandCall) : Option (Except String Confirmation) :=
  match call.ack with
  | .pending => none
  | .sent true => some (.error "negative ACTIVATION_CON")
  | .sent false => some (.ok ⟨"activation_con", false⟩)
  | .dropped => some (.error "command waiter dropped")

/-- The call goes on. -/
def CommandCall.goTo (stage : CommandStage) (call : CommandCall) : CommandCall :=
  { call with stage }

/-- What the wait of an interrogation ended with. -/
inductive Ended where
  /-- The channel of the done signal. -/
  | done
  | deadline
deriving DecidableEq, Repr

/-- The answer to an interrogation. -/
structure Interrogated (F32 : Type) where
  points : List (Point F32)
  count : ℕ
deriving DecidableEq

/-- Where a call of `handle_interrogate` is. -/
inductive InterrogateStage (F32 : Type) where
  /-- The collector is registered, and the ASDU is on its way to the connection. -/
  | sending
  /-- It waits for the done signal or the deadline. -/
  | waiting
  /-- It takes the points that are in the channel. -/
  | draining
  /-- It is about to remove the collector, and to answer. -/
  | cleaning
  /-- It is about to remove the collector, and to answer with the error. -/
  | failing (message : String)
  | answered (response : Except String (Interrogated F32))
deriving DecidableEq

/-- A call of `handle_interrogate`, with its receivers: `done_rx`, and the points that
are in the channel of `pt_rx`. -/
structure InterrogateCall (F32 : Type) where
  ca : UInt16
  qoi : Qoi
  done : Oneshot Unit
  buffer : List (Point F32)
  collected : List (Point F32)
  stage : InterrogateStage F32
  /-- The branch of the `select!` that was taken; only the statements look at it. -/
  ended : Option Ended

namespace InterrogateCall

variable (call : InterrogateCall F32)

/-- The key of the collector. -/
def key : UInt16 × UInt8 := (call.ca, call.qoi.raw)

/-- The call goes on. -/
def goTo (stage : InterrogateStage F32) : InterrogateCall F32 := { call with stage }

/-- The wait of the call is over. -/
def endWait (ended : Ended) : InterrogateCall F32 :=
  { call with stage := .draining, ended := some ended }

/-- A point is taken out of the channel. -/
def recv (p : Point F32) : InterrogateCall F32 :=
  { call with buffer := call.buffer.tail, collected := call.collected ++ [p] }

/-- The senders of the call are dropped. -/
def hangUp : InterrogateCall F32 := { call with done := call.done.drop }

/-- The pump has seen the termination. `done_tx` is taken when it is used. -/
def finish : InterrogateCall F32 := { call with done := call.done.send () }

/-- The capacity of the channel of a collector. -/
def capacity : ℕ := 256

/-- The pump passes a point on (`try_send`); if the channel is full it is lost. -/
def push (p : Point F32) : InterrogateCall F32 :=
  if call.buffer.length < capacity then { call with buffer := call.buffer ++ [p] } else call

end InterrogateCall

/-- The last point of every key (`seen`). -/
def seen (collected : List (Point F32)) : AList fun _ : UInt8 × UInt32 => Point F32 :=
  collected.foldl (fun m p => m.insert p.key p) ∅

/-- The answer of an interrogation: the last point of every key, by address. -/
def interrogated (collected : List (Point F32)) : Interrogated F32 :=
  let points := ((seen collected).entries.map Sigma.snd).insertionSort fun p q => p.ioa ≤ q.ioa
  { points, count := points.length }

/-! ## The state and the pump -/

/-- A point in the cache (`CachedPoint`). -/
structure CachedPoint (F32 : Type) where
  value : PointValue F32
  quality : QualityWire
  timestamp : Option Cp56Time2a
deriving DecidableEq, Repr

/-- The state of the daemon (`DaemonState`). The keys of the interrogations are a common
address and a qualifier, those of the waiters a type identification and an address; the
calls are numbered. -/
structure DaemonState (F32 : Type) where
  coa : UInt16
  cache : AList fun _ : PointKind × UInt32 => CachedPoint F32
  interrogations : Board (UInt16 × UInt8) ℕ (InterrogateCall F32)
  cmdWaiters : Board (UInt8 × UInt32) ℕ CommandCall

/-- The state of a new daemon. -/
def DaemonState.new (coa : UInt16) : DaemonState F32 := ⟨coa, ∅, .empty, .empty⟩

/-- An event for those that have subscribed (`Event::AsduReceived`). -/
structure Event (F32 : Type) where
  cot : String
  typeId : UInt8
  ioa : UInt32
  value : PointValue F32
deriving DecidableEq, Repr

section Pump

variable (st : DaemonState F32)

/-- The keys of the collectors for a common address. -/
def collectorKeys (ca : UInt16) : List (UInt16 × UInt8) :=
  st.interrogations.slots.keys.filter fun k => k.1 == ca

/-- Pass a point on to the collectors for a common address (`feed_interrogation`). -/
def feedInterrogation (ca : UInt16) (p : Point F32) : DaemonState F32 :=
  { st with interrogations :=
      st.interrogations.signalAll (collectorKeys st ca) fun call => call.push p }

/-- What is done with one object of a monitor type. -/
def observe (a : Asdu) (o : Observation F32) : DaemonState F32 :=
  let cache := st.cache.insert (o.point.kind, o.point.ioa)
    ⟨o.point.value, o.point.quality, o.timestamp⟩
  feedInterrogation { st with cache } a.ca.raw o.point

/-- **The pump takes an ASDU** (`process_asdu`). -/
def processAsdu (fp : PointArith F32 F64) (a : Asdu) : DaemonState F32 × List (Event F32) :=
  if isTermination a then
    -- the qualifier of the interrogation that has ended is not looked at
    ({ st with interrogations :=
        st.interrogations.signalAll (collectorKeys st a.ca.raw) InterrogateCall.finish }, [])
  else if isConfirmation a then
    match firstIoa a.payload with
    | some ioa =>
      -- nor is the common address of the command that was confirmed
      let told := st.cmdWaiters.signal (a.typeId, ioa) (CommandCall.confirm a.cot.negative)
      ({ st with cmdWaiters := told.unplug CommandCall.hangUp (a.typeId, ioa) }, [])
    | none => (st, [])
  else
    ((observations fp a).foldl (fun st o => observe st a o) st, (observations fp a).map fun o =>
        ⟨toString a.cot.cause.raw, a.typeId, o.point.ioa, o.point.value⟩)

end Pump

/-! ## Requests for commands -/

section Requests

/-- The arguments of `send_command_and_wait`, with the ASDU that it makes of them. -/
def sendCommandAndWait {P : Type} (T : Payload P) (typeId : UInt8) (ioa : UInt32)
    (ca : UInt16) (payload : P) : CommandRequest :=
  ⟨typeId, ioa, ca, encodeAsdu T payload (.of .activation) ⟨ca⟩⟩

variable (st : DaemonState F32) (ioa : UInt32) (ca : Option UInt16)

/-- The common address of a request, or that of the daemon (`resolve_ca`). -/
def resolveCa : UInt16 := ca.getD st.coa

/-- A single command (`handle_cmd_single`). -/
def handleCmdSingle (on : Bool) : CommandRequest :=
  sendCommandAndWait C_SC_NA_1 C_SC_NA_1.typeId ioa (resolveCa st ca) [(⟨ioa⟩, ⟨on, 0, false⟩)]

/-- A double command (`handle_cmd_double`). -/
def handleCmdDouble (on : Bool) : CommandRequest :=
  sendCommandAndWait C_DC_NA_1 C_DC_NA_1.typeId ioa (resolveCa st ca)
    [(⟨ioa⟩, ⟨if on then .on else .off, 0, false⟩)]

/-- The direction of a regulating step in a request (`StepDir`). -/
inductive StepDir where
  | lower
  | higher
deriving DecidableEq, Repr

/-- A regulating step command (`handle_cmd_regulating`). -/
def handleCmdRegulating (step : StepDir) : CommandRequest :=
  let direction := match step with
    | .lower => StepDirection.lower
    | .higher => StepDirection.higher
  sendCommandAndWait C_RC_NA_1 C_RC_NA_1.typeId ioa (resolveCa st ca)
    [(⟨ioa⟩, ⟨direction, 0, false⟩)]

/-- The kind of a set point in a request (`SetpointKind`). -/
inductive SetpointKind where
  | normalized
  | scaled
  | float
deriving DecidableEq, Repr

/-- A set point command (`handle_cmd_setpoint`). -/
def handleCmdSetpoint (fp : PointArith F32 F64) (kind : SetpointKind) (value : F64) :
    CommandRequest :=
  let qos : Qos := ⟨0, false⟩
  match kind with
  | .normalized => sendCommandAndWait C_SE_NA_1 C_SE_NA_1.typeId ioa (resolveCa st ca)
    [(⟨ioa⟩, nvaFromF32 fp (fp.castF64 value), qos)]
  | .scaled => sendCommandAndWait C_SE_NB_1 C_SE_NB_1.typeId ioa (resolveCa st ca)
    [(⟨ioa⟩, ⟨fp.castF64I16 value⟩, qos)]
  | .float => sendCommandAndWait C_SE_NC_1 C_SE_NC_1.typeId ioa (resolveCa st ca)
    [(⟨ioa⟩, ⟨fp.toBits32 (fp.castF64 value)⟩, qos)]

end Requests

/-! ## The machine -/

/-- What happens in a call of `send_command_and_wait`. -/
inductive CommandInput where
  /-- It registers its waiter. -/
  | register (req : CommandRequest)
  /-- The connection has taken the ASDU, or it is gone. -/
  | sent (ok : Bool)
  /-- It finds the confirmation, or that its waiter was dropped. -/
  | wake
  /-- The five seconds are over. -/
  | elapse
  /-- It takes the lock to remove its waiter. -/
  | cleanUp

/-- What happens in a call of `handle_interrogate`. -/
inductive InterrogateInput where
  /-- It registers its collector. -/
  | register (group : Option UInt8) (ca : Option UInt16)
  /-- The connection has taken the ASDU, or it is gone. -/
  | sent (ok : Bool)
  /-- It finds the done signal, or that its collector was dropped. -/
  | wake
  /-- The deadline of the wait is over. -/
  | elapse
  /-- It takes a point out of the channel. -/
  | recv
  /-- The time for this is over, or the collector was dropped, and the channel is
  empty. -/
  | drained
  /-- It takes the lock to remove its collector. -/
  | cleanUp

/-- What can happen next: something in the call with a number, or an ASDU comes in. -/
inductive Input where
  | command (n : ℕ) (i : CommandInput)
  | interrogate (n : ℕ) (i : InterrogateInput)
  | asdu (a : Asdu)

/-- What a call does for others to see. -/
inductive CallAction (R : Type) where
  | sendAsdu (bytes : Bytes)
  | answered (response : Except String R)

/-- What the daemon does. -/
inductive Action (F32 : Type) where
  | command (n : ℕ) (a : CallAction Confirmation)
  | interrogate (n : ℕ) (a : CallAction (Interrogated F32))
  | event (e : Event F32)

/-- The response to a connection task that is gone. -/
def sendFailed : String := "send failed: connection task gone"

/-- **What a call of `send_command_and_wait` does next.** -/
def CommandCall.next (call : CommandCall) : CommandInput →
    Option (Bool × (CommandCall → CommandCall) × List (CallAction Confirmation))
  | .register _ => none
  | .sent ok =>
    match call.stage with
    | .sending =>
      if ok then some (false, goTo .waiting, [.sendAsdu call.request.bytes])
      else some (false, goTo (.failing sendFailed), [])
    | _ => none
  | .wake =>
    match call.stage with
    | .waiting => call.response.map fun r => (false, goTo (.answered r), [.answered r])
    | _ => none
  | .elapse =>
    match call.stage, call.ack with
    -- a confirmation that is there is found first
    | .waiting, .pending =>
      some (false, goTo (.failing "timeout waiting for ACTIVATION_CON"), [])
    | _, _ => none
  | .cleanUp =>
    match call.stage with
    -- whose waiter it removes, is not looked at
    | .failing message =>
      some (true, goTo (.answered (.error message)), [.answered (.error message)])
    | _ => none

/-- The calls of `send_command_and_wait`. -/
def commandDesk :
    Desk (UInt8 × UInt32) CommandCall CommandInput (CallAction Confirmation) where
  new
    | .register req => some ⟨req, .pending, .sending⟩
    | _ => none
  key call := call.request.key
  hang := CommandCall.hangUp
  next := CommandCall.next

/-- **What a call of `handle_interrogate` does next.** -/
def InterrogateCall.next (call : InterrogateCall F32) : InterrogateInput →
    Option (Bool × (InterrogateCall F32 → InterrogateCall F32)
      × List (CallAction (Interrogated F32)))
  | .register _ _ => none
  | .sent ok =>
    match call.stage with
    | .sending =>
      if ok then some (false, (·.goTo .waiting), [.sendAsdu
        (encodeAsdu C_IC_NA_1 [(⟨0⟩, call.qoi)] (.of .activation) ⟨call.ca⟩)])
      else some (false, (·.goTo (.failing sendFailed)), [])
    | _ => none
  | .wake =>
    match call.stage, call.done with
    | .waiting, .pending => none
    | .waiting, _ => some (false, (·.endWait .done), [])
    | _, _ => none
  | .elapse =>
    match call.stage with
    | .waiting => some (false, (·.endWait .deadline), [])
    | _ => none
  | .recv =>
    match call.stage, call.buffer with
    | .draining, p :: _ => some (false, (·.recv p), [])
    | _, _ => none
  | .drained =>
    match call.stage, call.buffer with
    | .draining, [] => some (false, (·.goTo .cleaning), [])
    | _, _ => none
  | .cleanUp =>
    match call.stage with
    | .cleaning =>
      let response := .ok (interrogated call.collected)
      some (true, (·.goTo (.answered response)), [.answered response])
    | .failing message =>
      some (true, (·.goTo (.answered (.error message))), [.answered (.error message)])
    | _ => none

/-- The calls of `handle_interrogate`. -/
def interrogateDesk (coa : UInt16) : Desk (UInt16 × UInt8) (InterrogateCall F32)
    InterrogateInput (CallAction (Interrogated F32)) where
  new
    | .register group ca => some
      { ca := ca.getD coa
        qoi := group.elim .general .group
        done := .pending
        buffer := []
        collected := []
        stage := .sending
        ended := none }
    | _ => none
  key := InterrogateCall.key
  hang := InterrogateCall.hangUp
  next := InterrogateCall.next

/-- **One step of the daemon.** -/
def step (fp : PointArith F32 F64) (st : DaemonState F32) :
    Input → DaemonState F32 × List (Action F32)
  | .command n i =>
    let (cmdWaiters, actions) := commandDesk.turn st.cmdWaiters n i
    ({ st with cmdWaiters }, actions.map (.command n))
  | .interrogate n i =>
    let (interrogations, actions) := (interrogateDesk st.coa).turn st.interrogations n i
    ({ st with interrogations }, actions.map (.interrogate n))
  | .asdu a =>
    let (st, events) := processAsdu st fp a
    (st, events.map .event)

/-- A history of the daemon. -/
abbrev History (F32 : Type) := List (Call (DaemonState F32) Input (Action F32))

end Client
