import Mathlib.Data.List.AList
import Iec60870.FileTransferWire

/-!
# The file transfer service

The task that runs the file transfers of a connection
(`file_transfer/service.rs`). It keeps one session per common address and
file name, feeds the sessions with the ASDUs that the driver routes to it and
with the time, performs what they ask for – send an ASDU, read a chunk, write
a segment, finish – and opens sessions on its own when the peer announces or
selects a file.

The storage behind it is the application's: a `Provider` is any set of
functions over any state, so that a statement about every provider is one
about every sequence of answers.

`Service.step` goes as far as the task may run before another task does.
Whatever a session asks for in one call is a queue that the task works off,
one action at a time (`apply_actions`), and while it does so it looks at
nothing else; when there is nothing left to do it takes an intent of the
application, or an ASDU, or the tick of its timer, in this order (`run`).
What it does that can be seen from outside are its `Effect`s, among them the
calls of the provider with their answers. They carry the key of their
session, which is the peer and the file name of the events the source emits.
-/

namespace FileTransfer

open Iec60870 Machine

/-! ## What the service is given -/

/-- The parameters of the service (`FileTransferConfig`). The source has one
more that is reserved and read nowhere. -/
structure FileTransferConfig where
  /-- The longest chunk to ask the provider for. -/
  maxSegmentBytes : ℕ
  idleTimeout : ℕ
  maxConcurrentSessions : ℕ
  /-- The longest file accepted from the peer. -/
  maxInboundFileBytes : UInt32
deriving DecidableEq, Repr

/-- The default parameters, with the timeout in seconds. -/
def FileTransferConfig.default : FileTransferConfig where
  maxSegmentBytes := 240
  idleTimeout := 30
  maxConcurrentSessions := 8
  maxInboundFileBytes := 16 * 1024 * 1024

/-- The parameters of its sessions (`session_config`). -/
def FileTransferConfig.sessionConfig (c : FileTransferConfig) : SessionConfig where
  maxSegmentBytes := c.maxSegmentBytes
  idleTimeout := c.idleTimeout
  ioa := ⟨0⟩

/-- What a provider fails with (`FileTransferError`). -/
inductive FileTransferError where
  | notFound (nof : NameOfFile)
  | permissionDenied
  | io (message : String)
  | invalidState (message : String)
  | checksumMismatch
  | collision (nof : NameOfFile)
  | other (message : String)
deriving DecidableEq, Repr

/-- What the service reads of a file's metadata (`FileMetadata`). -/
structure FileMetadata where
  length : UInt32
deriving DecidableEq, Repr

/-- **A storage provider** (`FileTransferProvider`) with its state, its readers
(`FileReader`) and its writers (`FileWriter`). -/
structure Provider (π ρ ω : Type) where
  lookup : NameOfFile → π → Except FileTransferError (Option FileMetadata) × π
  openRead : NameOfFile → π → Except FileTransferError ρ × π
  openWrite : NameOfFile → UInt32 → π → Except FileTransferError ω × π
  readSegment : ρ → ℕ → π → (Except FileTransferError (Option Bytes) × ρ) × π
  writeSegment : ω → Bytes → π → (Except FileTransferError Unit × ω) × π
  finalize : ω → Bool → π → Except FileTransferError Unit × π

/-- How a transfer ends (`FileTransferOutcome`). -/
inductive FileTransferOutcome where
  | completed (bytes : UInt32)
  | failed (reason : FailureReason)
deriving DecidableEq, Repr

/-- The key of a session: the peer's common address and the file name. -/
abbrev Key := CommonAddress × NameOfFile

/-- What the application asks for (`Intent`), with the number of the caller
that waits for the reply. -/
inductive Intent where
  | fetch (ca : CommonAddress) (nof : NameOfFile) (reply : ℕ)
  | push (ca : CommonAddress) (nof : NameOfFile) (reply : ℕ)
deriving DecidableEq, Repr

/-- **What the service does for a session**: commands to the driver, events
(`FileTransferEvent`), replies, and calls of the provider with their
answers. -/
inductive Effect where
  /-- An ASDU for the driver. -/
  | command (asdu : Bytes)
  | started (role : Role)
  | segmentTransferred (bytes : UInt32)
  | finished (outcome : FileTransferOutcome)
  | replied (caller : ℕ) (result : Except FileTransferError UInt32)
  /-- A call of `read_segment`. -/
  | read (result : Except FileTransferError (Option Bytes))
  /-- A call of `write_segment`. -/
  | wrote (data : Bytes) (result : Except FileTransferError Unit)
  /-- A call of `finalize`. -/
  | finalized (success : Bool) (result : Except FileTransferError Unit)
deriving DecidableEq

/-! ## The service -/

variable {π ρ ω : Type}

/-- One transfer (`ActiveSession`). -/
structure ActiveSession (ρ ω : Type) where
  session : Session
  reader : Option ρ
  writer : Option ω
  /-- The caller to reply to. -/
  reply : Option ℕ

/-- What the task is in the middle of: the queue of `apply_actions`, and the
keys that `on_tick` has still to serve. -/
structure Work where
  key : Key
  queue : List SessionAction
  ticks : List Key
  /-- The reading of the clock that `on_tick` took. -/
  tickAt : Instant
deriving DecidableEq, Repr

/-- **The service** (`FileTransferService`), with the state of its provider and
with what waits in its channels. -/
structure Service (π ρ ω : Type) where
  provider : Provider π ρ ω
  world : π
  config : FileTransferConfig
  sessions : AList fun _ : Key => ActiveSession ρ ω
  intents : List Intent
  asdus : List (CommonAddress × Asdu)
  /-- What it is doing; `none` if it waits. -/
  work : Option Work

/-- The file name of an ASDU (`peek_nof`), behind the object address. -/
def peekNof (asdu : Asdu) : Option NameOfFile :=
  match asdu.payload with
  | _ :: _ :: _ :: lo :: hi :: _ => some ⟨UInt16.ofNat (Wire.ofLe [lo, hi])⟩
  | _ => none

/-- What a caller is told about a failure (`failure_to_error`). -/
def failureToError : FailureReason → FileTransferError
  | .timeout => .other "idle timeout"
  | .peerRejected => .other "peer rejected transfer"
  | .locallyRejected => .other "locally rejected transfer"
  | .checksumMismatch => .checksumMismatch
  | .protocolViolation => .other "protocol violation"
  | .aborted => .other "aborted"

/-! ### One action of a session -/

/-- What performing an action leaves: the session in the map, the actions that
come on top, the state of the provider, and the effects. -/
structure Performed (π ρ ω : Type) where
  entry : Option (ActiveSession ρ ω)
  extra : List SessionAction
  world : π
  effects : List Effect

/-- Read a chunk and hand it to the session (`pump_reader`). An error of the
reader is the end of the file. -/
def pumpReader (P : Provider π ρ ω) (entry : Option (ActiveSession ρ ω)) (world : π)
    (maxBytes : ℕ) (now : Instant) : Performed π ρ ω :=
  match entry with
  | none => ⟨none, [], world, []⟩
  | some active =>
    match active.reader with
    | none => ⟨some active, [], world, []⟩
    | some reader =>
      let r := P.readSegment reader maxBytes world
      let chunk := match r.1.1 with
        | .ok (some chunk) => chunk
        | .ok none => []
        | .error _ => []
      let next := active.session.step (.segmentReady chunk, now)
      ⟨some { active with session := next.1, reader := some r.1.2 }, next.2, r.2,
        [.read r.1.1]⟩

/-- Write a segment (`deliver_segment`). An error of the writer is only
logged. -/
def deliverSegment (P : Provider π ρ ω) (entry : Option (ActiveSession ρ ω))
    (world : π) (data : Bytes) : Performed π ρ ω :=
  let event := .segmentTransferred (UInt32.ofNat data.length)
  match entry with
  | none => ⟨none, [], world, []⟩
  | some active =>
    match active.writer with
    | none => ⟨some active, [], world, [event]⟩
    | some writer =>
      let r := P.writeSegment writer data world
      ⟨some { active with writer := some r.1.2 }, [], r.2, [.wrote data r.1.1, event]⟩

/-- Whether a transfer has succeeded. -/
def FileTransferOutcome.success : FileTransferOutcome → Bool
  | .completed _ => true
  | .failed _ => false

/-- What the caller is told about the outcome. -/
def FileTransferOutcome.result :
    FileTransferOutcome → Except FileTransferError UInt32
  | .completed bytes => .ok bytes
  | .failed reason => .error (failureToError reason)

/-- Close the writer, reply and forget the session (`finalize_session`). An
error of the writer is only logged. -/
def finalizeSession (P : Provider π ρ ω) (entry : Option (ActiveSession ρ ω))
    (world : π) (outcome : FileTransferOutcome) : Performed π ρ ω :=
  match entry with
  | none => ⟨none, [], world, []⟩
  | some active =>
    let told := (active.reply.map fun caller => .replied caller outcome.result).toList
      ++ [.finished outcome]
    match active.writer with
    | none => ⟨none, [], world, told⟩
    | some writer =>
      let r := P.finalize writer outcome.success world
      ⟨none, [], r.2, .finalized outcome.success r.1 :: told⟩

/-- **Perform an action** of the session at a key (the body of the loop of
`apply_actions`). -/
def perform (P : Provider π ρ ω) (key : Key) (entry : Option (ActiveSession ρ ω))
    (world : π) (action : SessionAction) (now : Instant) : Performed π ρ ω :=
  match action with
  | .requestNextSegment maxBytes => pumpReader P entry world maxBytes now
  | .deliverSegment data => deliverSegment P entry world data
  | .completed bytes => finalizeSession P entry world (.completed bytes)
  | .failed reason => finalizeSession P entry world (.failed reason)
  | action =>
    ⟨entry, [], world, ((message key.1 action).map Effect.command).toList⟩

namespace Service

/-- The service before anything has happened. -/
def init (provider : Provider π ρ ω) (world : π) (config : FileTransferConfig) :
    Service π ρ ω :=
  ⟨provider, world, config, ∅, [], [], none⟩

/-- Put a session in the map, or take it out. -/
def put (s : Service π ρ ω) (key : Key) (entry : Option (ActiveSession ρ ω)) :
    Service π ρ ω :=
  { s with
    sessions := match entry with
      | some active => s.sessions.insert key active
      | none => s.sessions.erase key }

/-- Go on with some work, if there is any left. -/
def resume (s : Service π ρ ω) (w : Work) : Service π ρ ω :=
  { s with work := if w.queue = [] ∧ w.ticks = [] then none else some w }

/-- Step the session at a key and start on what it asks for. -/
def stepSession (s : Service π ρ ω) (key : Key) (input : SessionInput)
    (now : Instant) (ticks : List Key) : Service π ρ ω :=
  match s.sessions.lookup key with
  | some active =>
    let r := active.session.step (input, now)
    (s.put key (some { active with session := r.1 })).resume ⟨key, r.2, ticks, now⟩
  | none => s.resume ⟨key, [], ticks, now⟩

/-- Open a session and start on what it asks for. -/
def openSession (s : Service π ρ ω) (key : Key) (active : ActiveSession ρ ω)
    (actions : List SessionAction) (now : Instant) : Service π ρ ω :=
  (s.put key (some active)).resume ⟨key, actions, [], now⟩

/-- Whether the map of sessions is full. -/
def isFull (s : Service π ρ ω) : Bool :=
  decide (s.sessions.keys.length ≥ s.config.maxConcurrentSessions)

/-- A new session of the service. -/
def newSession (s : Service π ρ ω) (role : Role) (nof : NameOfFile) : Session :=
  Session.new role nof s.config.sessionConfig

/-- Why an intent is refused before the provider is asked. -/
def refusal (s : Service π ρ ω) (key : Key) : Option FileTransferError :=
  if key ∈ s.sessions then
    some (.invalidState "another transfer is already in progress for this (ca, nof)")
  else if s.isFull then some (.invalidState "max_concurrent_sessions reached")
  else none

/-- `on_intent` with a fetch. -/
def onFetch (s : Service π ρ ω) (key : Key) (reply : ℕ) (now : Instant) :
    Service π ρ ω × List (Key × Effect) :=
  match s.refusal key with
  | some e => (s, [(key, .replied reply (.error e))])
  | none =>
    -- open the sink first, so that the caller fails fast
    let r := s.provider.openWrite key.2 0 s.world
    let s := { s with world := r.2 }
    match r.1 with
    | .error e => (s, [(key, .replied reply (.error e))])
    | .ok writer =>
      let next := (s.newSession .receiver key.2).step (.start 0, now)
      (s.openSession key ⟨next.1, none, some writer, some reply⟩ next.2 now,
        [(key, .started .receiver)])

/-- `on_intent` with a push. -/
def onPush (s : Service π ρ ω) (key : Key) (reply : ℕ) (now : Instant) :
    Service π ρ ω × List (Key × Effect) :=
  match s.refusal key with
  | some e => (s, [(key, .replied reply (.error e))])
  | none =>
    let r := s.provider.lookup key.2 s.world
    let s := { s with world := r.2 }
    match r.1 with
    | .error e => (s, [(key, .replied reply (.error e))])
    | .ok none => (s, [(key, .replied reply (.error (.notFound key.2)))])
    | .ok (some metadata) =>
      let r := s.provider.openRead key.2 s.world
      let s := { s with world := r.2 }
      match r.1 with
      | .error e => (s, [(key, .replied reply (.error e))])
      | .ok reader =>
        let next := (s.newSession .sender key.2).step (.start metadata.length, now)
        (s.openSession key ⟨next.1, some reader, none, some reply⟩ next.2 now,
          [(key, .started .sender)])

/-- Hand an ASDU to a session; one that cannot be read is dropped. -/
def dispatch (s : Service π ρ ω) (key : Key) (asdu : Asdu) (now : Instant) :
    Service π ρ ω :=
  match decodeFtAsdu asdu with
  | some input => s.stepSession key input now []
  | none => s

/-- The peer announces a file: open a receiver for it, unless the file is too
long. -/
def onFileReady (s : Service π ρ ω) (key : Key) (asdu : Asdu) (now : Instant) :
    Service π ρ ω × List (Key × Effect) :=
  match asdu.decodePayload F_FR_NA_1.payload AsduAddressing.iec104 with
  | .error _ => (s, [])
  | .ok fr =>
    if fr.lof.raw > s.config.maxInboundFileBytes then (s, [])
    else
      let r := s.provider.openWrite key.2 0 s.world
      let s := { s with world := r.2 }
      match r.1 with
      | .error _ => (s, [])
      | .ok writer =>
        let s := s.put key (some ⟨s.newSession .receiver key.2, none, some writer, none⟩)
        (s.dispatch key asdu now, [(key, .started .receiver)])

/-- The peer selects a file: open a sender for it. The length is loaded with
`Start`, whose actions are ignored. -/
def onSelect (s : Service π ρ ω) (key : Key) (asdu : Asdu) (now : Instant) :
    Service π ρ ω × List (Key × Effect) :=
  let r := s.provider.lookup key.2 s.world
  let s := { s with world := r.2 }
  match r.1 with
  | .ok (some metadata) =>
    let r := s.provider.openRead key.2 s.world
    let s := { s with world := r.2 }
    match r.1 with
    | .error _ => (s, [])
    | .ok reader =>
      let session := ((s.newSession .sender key.2).step (.start metadata.length, now)).1
      let s := s.put key (some ⟨session, some reader, none, none⟩)
      (s.dispatch key asdu now, [(key, .started .sender)])
  | _ => (s, [])

/-- `on_incoming` -/
def onIncoming (s : Service π ρ ω) (ca : CommonAddress) (asdu : Asdu)
    (now : Instant) : Service π ρ ω × List (Key × Effect) :=
  match peekNof asdu with
  | none => (s, [])
  | some nof =>
    let key := (ca, nof)
    if key ∈ s.sessions then (s.dispatch key asdu now, [])
    else if s.isFull then (s, [])
    else
      match asdu.typeId with
      | 120 => s.onFileReady key asdu now
      | 122 => s.onSelect key asdu now
      | _ => (s, [])

/-- `on_tick`: serve the sessions one after the other. The order is that of a
hash map, so it may be any. -/
def onTick (s : Service π ρ ω) (order : List Key) (now : Instant) :
    Service π ρ ω :=
  match if order.isPerm s.sessions.keys then order else s.sessions.keys with
  | key :: keys => s.stepSession key .tick now keys
  | [] => s

/-- Go on with the work in hand: the next action of the queue, or the next
session of `on_tick`. -/
def onWork (s : Service π ρ ω) (w : Work) (now : Instant) :
    Service π ρ ω × List (Key × Effect) :=
  match w.queue, w.ticks with
  | action :: queue, _ =>
    let p := FileTransfer.perform s.provider w.key (s.sessions.lookup w.key) s.world
      action now
    (({ s with world := p.world }.put w.key p.entry).resume
        { w with queue := queue ++ p.extra },
      p.effects.map fun e => (w.key, e))
  | [], key :: keys => (s.stepSession key .tick w.tickAt keys, [])
  | [], [] => ({ s with work := none }, [])

end Service

/-- The inputs of the service. -/
inductive ServiceInput where
  /-- The application submits an intent. -/
  | submit (intent : Intent)
  /-- The driver routes an ASDU to the service. -/
  | route (ca : CommonAddress) (asdu : Asdu)
  /-- The task runs. If the timer is due, the map has some order. -/
  | run (tick : Option (List Key))
deriving DecidableEq

/-- **One turn of the service** (`run`), up to the next point at which another
task may run. -/
def Service.step (s : Service π ρ ω) (i : ServiceInput × Instant) :
    Service π ρ ω × List (Key × Effect) :=
  match i.1 with
  | .submit intent => ({ s with intents := s.intents ++ [intent] }, [])
  | .route ca asdu => ({ s with asdus := s.asdus ++ [(ca, asdu)] }, [])
  | .run tick =>
    match s.work, s.intents, s.asdus, tick with
    | some w, _, _, _ => s.onWork w i.2
    | none, .fetch ca nof reply :: rest, _, _ =>
      { s with intents := rest }.onFetch (ca, nof) reply i.2
    | none, .push ca nof reply :: rest, _, _ =>
      { s with intents := rest }.onPush (ca, nof) reply i.2
    | none, [], (ca, asdu) :: rest, _ =>
      { s with asdus := rest }.onIncoming ca asdu i.2
    | none, [], [], some order => (s.onTick order i.2, [])
    | none, [], [], none => (s, [])

end FileTransfer
