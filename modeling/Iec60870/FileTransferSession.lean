import Iec60870.AsduFile
import Iec60870.Machine

/-!
# The file transfer session

The machine that drives one file transfer (`file_transfer/session.rs`). A
`Session` has a role, receiver or sender, and moves through the exchange
the standard prescribes: the receiver selects a file, is told that it is
ready, requests it, and takes the announced section segment by segment
until the last one comes with a checksum; the sender answers each of these
and asks the layer above for the data, one chunk at a time. Both compute
the checksum and count the octets as they go. A step that does not fit the
state, a negative answer or a wrong checksum fails the session, and so does
the idle timeout.

As in the source, a handler changes the session and appends to its list of
actions, and `Session.step` – one call of the machine – hands the list out.
Instants and durations are natural numbers of one unit.
-/

namespace FileTransfer

open Iec60870 Machine

/-- A reading of the clock (`Instant`). -/
abbrev Instant := ℕ

/-- The parameters of a session (`SessionConfig`). -/
structure SessionConfig where
  /-- The longest chunk to ask the provider for. -/
  maxSegmentBytes : ℕ
  /-- How long the session waits for progress. -/
  idleTimeout : ℕ
  /-- The object address its ASDUs carry. -/
  ioa : Ioa
deriving DecidableEq, Repr

/-- The default chunk (`DEFAULT_SEGMENT_BYTES`). -/
def defaultSegmentBytes : ℕ := 240

/-- The default parameters, with the timeout in seconds. -/
def SessionConfig.default : SessionConfig where
  maxSegmentBytes := defaultSegmentBytes
  idleTimeout := 30
  ioa := ⟨0⟩

/-- The two roles of a session (`Role`). -/
inductive Role where
  | receiver
  | sender
deriving DecidableEq, Repr

/-- Why a session fails (`FailureReason`). -/
inductive FailureReason where
  | timeout
  | peerRejected
  | locallyRejected
  | checksumMismatch
  | protocolViolation
  | aborted
deriving DecidableEq, Repr

/-- The states of a session (`SessionState`). -/
inductive SessionState where
  | idle
  | rxAwaitFileReady
  | rxAwaitSectionReady
  | rxReceivingSegments
  | txAwaitSelect
  | txAwaitRequest
  | txSendingSegments
  | txAwaitAck
  | completed
  | failed
deriving DecidableEq, Repr

/-- The inputs of a session (`SessionInput`). -/
inductive SessionInput where
  | start (length : UInt32)
  | fileReady (asdu : F_FR_NA_1)
  | sectionReady (asdu : F_SR_NA_1)
  | selectCall (asdu : F_SC_NA_1)
  | lastSection (asdu : F_LS_NA_1)
  | ackFile (asdu : F_AF_NA_1)
  | segment (asdu : F_SG_NA_1)
  | segmentReady (data : Bytes)
  | tick
  | abort
deriving DecidableEq, Repr

/-- The actions of a session (`SessionAction`). -/
inductive SessionAction where
  | sendFileReady (asdu : F_FR_NA_1)
  | sendSectionReady (asdu : F_SR_NA_1)
  | sendSelectCall (asdu : F_SC_NA_1)
  | sendLastSection (asdu : F_LS_NA_1)
  | sendAckFile (asdu : F_AF_NA_1)
  | sendSegment (asdu : F_SG_NA_1)
  | requestNextSegment (maxBytes : ℕ)
  | deliverSegment (data : Bytes)
  | completed (bytes : UInt32)
  | failed (reason : FailureReason)
deriving DecidableEq, Repr

/-- **A file transfer session** (`Session`). -/
structure Session where
  role : Role
  nof : NameOfFile
  state : SessionState
  config : SessionConfig
  fileLength : UInt32
  sectionLength : UInt32
  bytesTransferred : UInt32
  sectionChecksum : Checksum
  lastProgress : Option Instant
  awaitingProvider : Bool
  /-- The actions of the current call, in order. -/
  actions : List SessionAction
deriving DecidableEq, Repr

/-- Addition that stops at the largest `u32` (`saturating_add`). -/
def saturatingAdd (a b : UInt32) : UInt32 :=
  if a.toNat + b.toNat < 2 ^ 32 then a + b else 0xFFFFFFFF

namespace Session

/-- A new session (`Session::new`). -/
def new (role : Role) (nof : NameOfFile) (config : SessionConfig) : Session :=
  { role := role
    nof := nof
    state := .idle
    config := config
    fileLength := 0
    sectionLength := 0
    bytesTransferred := 0
    sectionChecksum := Checksum.zero
    lastProgress := none
    awaitingProvider := false
    actions := [] }

/-- Nothing happens to a session any more (`is_terminal`). -/
def isTerminal (s : Session) : Bool :=
  match s.state with
  | .completed | .failed => true
  | _ => false

/-- Append an action (`emit`). -/
def emit (s : Session) (action : SessionAction) : Session :=
  { s with actions := s.actions ++ [action] }

/-- Fail, unless the session is over (`fail`). -/
def fail (s : Session) (reason : FailureReason) : Session :=
  if s.isTerminal then s
  else { s with state := .failed }.emit (.failed reason)

/-- Ask the provider for a chunk, unless it has been asked
(`request_next_segment`). -/
def requestNextSegment (s : Session) : Session :=
  if s.awaitingProvider then s
  else
    let limit := min (max s.config.maxSegmentBytes 1) maxSegmentBytes
    { s with awaitingProvider := true }.emit (.requestNextSegment limit)

/-! ## Input handlers -/

/-- `on_start` -/
def onStart (s : Session) (length : UInt32) : Session :=
  if s.state ≠ .idle then s
  else
    match s.role with
    | .receiver =>
      let s := s.emit (.sendSelectCall
        { ioa := s.config.ioa
          nof := s.nof
          nos := NameOfSection.wholeFile
          scq := Scq.of .selectFile 0 })
      { s with state := .rxAwaitFileReady }
    | .sender =>
      let s := { s with fileLength := length, sectionLength := length }
      let s := s.emit (.sendFileReady
        { ioa := s.config.ioa
          nof := s.nof
          lof := ⟨length⟩
          frq := Frq.ready })
      { s with state := .txAwaitSelect }

/-- `on_file_ready` -/
def onFileReady (s : Session) (asdu : F_FR_NA_1) (now : Instant) : Session :=
  -- a sender that sees its own echo ignores it
  if s.role ≠ .receiver then s
  else if s.state ≠ .rxAwaitFileReady then s.fail .protocolViolation
  else
    let s := { s with lastProgress := some now }
    if asdu.frq.negative then s.fail .peerRejected
    else
      let s := { s with fileLength := asdu.lof.raw, sectionLength := asdu.lof.raw }
      let s := s.emit (.sendSelectCall
        { ioa := s.config.ioa
          nof := s.nof
          nos := NameOfSection.wholeFile
          scq := Scq.of .requestFile 0 })
      { s with state := .rxAwaitSectionReady }

/-- `on_section_ready` -/
def onSectionReady (s : Session) (asdu : F_SR_NA_1) (now : Instant) : Session :=
  if s.role ≠ .receiver ∨ s.state ≠ .rxAwaitSectionReady then
    s.fail .protocolViolation
  else
    let s := { s with lastProgress := some now }
    if asdu.srq.negative then s.fail .peerRejected
    else
      { s with
        sectionLength := asdu.los.raw
        bytesTransferred := 0
        sectionChecksum := Checksum.zero
        state := .rxReceivingSegments }

/-- `on_select_call` -/
def onSelectCall (s : Session) (asdu : F_SC_NA_1) (now : Instant) : Session :=
  if s.role ≠ .sender then s.fail .protocolViolation
  else
    let s := { s with lastProgress := some now }
    match s.state, asdu.scq.action with
    | .idle, .selectFile | .txAwaitSelect, .selectFile =>
      let s := s.emit (.sendFileReady
        { ioa := s.config.ioa
          nof := s.nof
          lof := ⟨s.fileLength⟩
          frq := Frq.ready })
      { s with state := .txAwaitRequest }
    | .txAwaitRequest, .requestFile =>
      let s := { s with sectionChecksum := Checksum.zero, bytesTransferred := 0 }
      let s := s.emit (.sendSectionReady
        { ioa := s.config.ioa
          nof := s.nof
          nos := ⟨1⟩
          los := ⟨s.sectionLength⟩
          srq := Srq.ready })
      let s := s.requestNextSegment
      { s with state := .txSendingSegments }
    | _, .deactivateFile | _, .deleteFile | _, .deactivateSection =>
      s.fail .aborted
    | _, _ => s.fail .protocolViolation

/-- `on_last_section` -/
def onLastSection (s : Session) (asdu : F_LS_NA_1) (now : Instant) : Session :=
  if s.role ≠ .receiver ∨ s.state ≠ .rxReceivingSegments then
    s.fail .protocolViolation
  else
    let s := { s with lastProgress := some now }
    if asdu.chs.raw ≠ s.sectionChecksum.raw then
      let s := s.emit (.sendAckFile
        { ioa := s.config.ioa
          nof := s.nof
          nos := asdu.nos
          afq := Afq.of .negativeSection 0 })
      s.fail .checksumMismatch
    else
      let s := s.emit (.sendAckFile
        { ioa := s.config.ioa
          nof := s.nof
          nos := asdu.nos
          afq := Afq.of .positiveFile 0 })
      let bytes := s.bytesTransferred
      { s with state := .completed }.emit (.completed bytes)

/-- `on_ack_file` -/
def onAckFile (s : Session) (asdu : F_AF_NA_1) (now : Instant) : Session :=
  if s.role ≠ .sender ∨ s.state ≠ .txAwaitAck then s.fail .protocolViolation
  else
    let s := { s with lastProgress := some now }
    match asdu.afq.action with
    | .positiveFile | .positiveSection =>
      let bytes := s.bytesTransferred
      { s with state := .completed }.emit (.completed bytes)
    | _ => s.fail .peerRejected

/-- `on_segment` -/
def onSegment (s : Session) (asdu : F_SG_NA_1) (now : Instant) : Session :=
  if s.role ≠ .receiver ∨ s.state ≠ .rxReceivingSegments then
    s.fail .protocolViolation
  else
    let s := { s with
      lastProgress := some now
      sectionChecksum := s.sectionChecksum.updateSlice asdu.segment
      bytesTransferred :=
        saturatingAdd s.bytesTransferred (UInt32.ofNat asdu.segment.length) }
    s.emit (.deliverSegment asdu.segment)

/-- `on_segment_ready` -/
def onSegmentReady (s : Session) (data : Bytes) (now : Instant) : Session :=
  if s.role ≠ .sender ∨ s.state ≠ .txSendingSegments then s
  else
    let s := { s with awaitingProvider := false }
    if data.isEmpty then
      -- end of file: close with the running checksum
      let s := s.emit (.sendLastSection
        { ioa := s.config.ioa
          nof := s.nof
          nos := ⟨1⟩
          lsq := .fileWithoutDeactivate
          chs := s.sectionChecksum })
      { s with state := .txAwaitAck, lastProgress := some now }
    else
      let s := { s with
        sectionChecksum := s.sectionChecksum.updateSlice data
        bytesTransferred :=
          saturatingAdd s.bytesTransferred (UInt32.ofNat data.length)
        lastProgress := some now }
      let s := s.emit (.sendSegment
        { ioa := s.config.ioa
          nof := s.nof
          nos := ⟨1⟩
          segment := data })
      s.requestNextSegment

/-- Fail if there has been no progress for too long; start the timer if it
is not running (`check_timeout`). -/
def checkTimeout (s : Session) (now : Instant) : Session :=
  if s.isTerminal then s
  else if s.state = .idle then s
  else
    match s.lastProgress with
    | some last =>
      if now - last ≥ s.config.idleTimeout then s.fail .timeout else s
    | none => { s with lastProgress := some now }

/-- The dispatch of an input to its handler. -/
def onInput (s : Session) (input : SessionInput) (now : Instant) : Session :=
  match input with
  | .start length => s.onStart length
  | .fileReady asdu => s.onFileReady asdu now
  | .sectionReady asdu => s.onSectionReady asdu now
  | .selectCall asdu => s.onSelectCall asdu now
  | .lastSection asdu => s.onLastSection asdu now
  | .ackFile asdu => s.onAckFile asdu now
  | .segment asdu => s.onSegment asdu now
  | .segmentReady data => s.onSegmentReady data now
  | .tick => s
  | .abort => s.fail .aborted

/-- **One call of the session** (`Session::step`). -/
def step (s : Session) (i : SessionInput × Instant) :
    Session × List SessionAction :=
  if s.isTerminal then (s, [])
  else
    let s := (s.onInput i.1 i.2).checkTimeout i.2
    ({ s with actions := [] }, s.actions)

end Session

/-- A call of a session, in a history. -/
abbrev Call := Machine.Call Session (SessionInput × Instant) SessionAction

/-! ## What a history says -/

/-- The payload of a delivered segment. -/
@[simp] def SessionAction.delivered? : SessionAction → Option Bytes
  | .deliverSegment data => some data
  | _ => none

/-- The byte count of a completion. -/
@[simp] def SessionAction.bytes? : SessionAction → Option UInt32
  | .completed bytes => some bytes
  | _ => none

/-- The segments a session has delivered, in order. -/
def delivered (h : List Call) : List Bytes :=
  h.flatMap fun c => c.actions.filterMap SessionAction.delivered?

/-- The byte counts a session has reported with its completion. -/
def reported (h : List Call) : List UInt32 :=
  h.flatMap fun c => c.actions.filterMap SessionAction.bytes?

/-- Whether an action asks the provider for a chunk. -/
@[simp] def SessionAction.isRequest : SessionAction → Bool
  | .requestNextSegment _ => true
  | _ => false

/-- Whether an input is the provider's answer. -/
def SessionInput.isAnswer : SessionInput → Bool
  | .segmentReady _ => true
  | _ => false

/-- How often the provider has been asked for a chunk. -/
def requested (h : List Call) : ℕ :=
  (h.flatMap Call.actions).countP SessionAction.isRequest

/-- How often the provider has answered. -/
def answered (h : List Call) : ℕ :=
  h.countP fun c => c.input.1.isAnswer

section History

variable (h : List Call) (s : Session) (i : SessionInput × Instant)

theorem delivered_snoc : delivered (h ++ [call Session.step s i])
      = delivered h ++ (s.step i).2.filterMap SessionAction.delivered? := by
  simp [delivered]

theorem reported_snoc : reported (h ++ [call Session.step s i])
      = reported h ++ (s.step i).2.filterMap SessionAction.bytes? := by
  simp [reported]

theorem requested_snoc : requested (h ++ [call Session.step s i])
      = requested h + (s.step i).2.countP SessionAction.isRequest := by
  simp [requested]

theorem answered_snoc : answered (h ++ [call Session.step s i])
      = answered h + if i.1.isAnswer then 1 else 0 := by
  rw [answered, List.countP_append, List.countP_singleton]
  rfl

end History

/-! ## What an input does

Every proof about all runs of a session goes through the paths of the
handlers. `Session.Course` lists them, with what is known on each and the
session it leads to before the timeout is checked, and `course_onInput` says
that the list is complete. -/

namespace Session

/-- The longest chunk a session asks for. -/
def chunkLimit (s : Session) : ℕ :=
  min (max s.config.maxSegmentBytes 1) maxSegmentBytes

/-- The inputs that leave a live session as it is. -/
def ignores (s : Session) : SessionInput → Bool
  | .start _ => decide (s.state ≠ .idle)
  | .fileReady _ => decide (s.role ≠ .receiver)
  | .segmentReady _ => decide (s.role ≠ .sender ∨ s.state ≠ .txSendingSegments)
  | .tick => true
  | _ => false

/-- **The inputs that fit the state** and carry no refusal. -/
def fits (s : Session) : SessionInput → Bool
  | .start _ => decide (s.state = .idle)
  | .fileReady asdu =>
    decide (s.role = .receiver ∧ s.state = .rxAwaitFileReady ∧ asdu.frq.negative = false)
  | .sectionReady asdu =>
    decide (s.role = .receiver ∧ s.state = .rxAwaitSectionReady ∧ asdu.srq.negative = false)
  | .selectCall asdu =>
    decide (s.role = .sender ∧ ((s.state = .idle ∨ s.state = .txAwaitSelect)
          ∧ asdu.scq.action = .selectFile
        ∨ s.state = .txAwaitRequest ∧ asdu.scq.action = .requestFile))
  | .lastSection asdu =>
    decide (s.role = .receiver ∧ s.state = .rxReceivingSegments
      ∧ asdu.chs.raw = s.sectionChecksum.raw)
  | .ackFile asdu =>
    decide (s.role = .sender ∧ s.state = .txAwaitAck ∧ (asdu.afq.action = .positiveFile
        ∨ asdu.afq.action = .positiveSection))
  | .segment _ =>
    decide (s.role = .receiver ∧ s.state = .rxReceivingSegments)
  | .segmentReady _ =>
    decide (s.role = .sender ∧ s.state = .txSendingSegments)
  | .tick | .abort => false

/-- **The courses an input can take** at a live session. -/
inductive Course (s : Session) (now : Instant) : SessionInput → Session → Prop
  | ignore {input : SessionInput} (h : s.ignores input = true) : Course s now input s
  /-- The session fails, with or without noting progress. -/
  | refuse {input : SessionInput} (hf : s.fits input = false)
      (reason : FailureReason) {progress : Option Instant}
      (h : progress = s.lastProgress ∨ progress = some now) :
      Course s now input
        { s with
          lastProgress := progress
          state := .failed
          actions := s.actions ++ [.failed reason] }
  /-- The receiver selects the file. -/
  | select (length : UInt32) (hr : s.role = .receiver) (hs : s.state = .idle) :
      Course s now (.start length)
        { s with
          state := .rxAwaitFileReady
          actions := s.actions ++ [.sendSelectCall ⟨s.config.ioa, s.nof,
            NameOfSection.wholeFile, Scq.of .selectFile 0⟩] }
  /-- The receiver requests the file. -/
  | fileReady (asdu : F_FR_NA_1) (hr : s.role = .receiver)
      (hs : s.state = .rxAwaitFileReady) (hn : asdu.frq.negative = false) :
      Course s now (.fileReady asdu)
        { s with
          lastProgress := some now
          fileLength := asdu.lof.raw
          sectionLength := asdu.lof.raw
          state := .rxAwaitSectionReady
          actions := s.actions ++ [.sendSelectCall ⟨s.config.ioa, s.nof,
            NameOfSection.wholeFile, Scq.of .requestFile 0⟩] }
  | sectionReady (asdu : F_SR_NA_1) (hr : s.role = .receiver)
      (hs : s.state = .rxAwaitSectionReady) (hn : asdu.srq.negative = false) :
      Course s now (.sectionReady asdu)
        { s with
          lastProgress := some now
          sectionLength := asdu.los.raw
          bytesTransferred := 0
          sectionChecksum := Checksum.zero
          state := .rxReceivingSegments }
  | segment (asdu : F_SG_NA_1) (hr : s.role = .receiver) (hs : s.state = .rxReceivingSegments) :
      Course s now (.segment asdu)
        { s with
          lastProgress := some now
          sectionChecksum := s.sectionChecksum.updateSlice asdu.segment
          bytesTransferred :=
            saturatingAdd s.bytesTransferred (UInt32.ofNat asdu.segment.length)
          actions := s.actions ++ [.deliverSegment asdu.segment] }
  /-- The receiver completes. -/
  | last (asdu : F_LS_NA_1) (hr : s.role = .receiver) (hs : s.state = .rxReceivingSegments)
      (hc : asdu.chs.raw = s.sectionChecksum.raw) :
      Course s now (.lastSection asdu)
        { s with
          lastProgress := some now
          state := .completed
          actions := s.actions ++ [.sendAckFile ⟨s.config.ioa, s.nof, asdu.nos,
            Afq.of .positiveFile 0⟩, .completed s.bytesTransferred] }
  /-- The receiver refuses the section. -/
  | mismatch (asdu : F_LS_NA_1) (hr : s.role = .receiver) (hs : s.state = .rxReceivingSegments)
      (hc : asdu.chs.raw ≠ s.sectionChecksum.raw) :
      Course s now (.lastSection asdu)
        { s with
          lastProgress := some now
          state := .failed
          actions := s.actions ++ [.sendAckFile ⟨s.config.ioa, s.nof, asdu.nos,
            Afq.of .negativeSection 0⟩, .failed .checksumMismatch] }
  /-- The sender announces the file unasked. -/
  | announce (length : UInt32) (hr : s.role = .sender) (hs : s.state = .idle) :
      Course s now (.start length)
        { s with
          fileLength := length
          sectionLength := length
          state := .txAwaitSelect
          actions := s.actions ++ [.sendFileReady ⟨s.config.ioa, s.nof, ⟨length⟩, Frq.ready⟩] }
  /-- The sender announces the file. -/
  | selected (asdu : F_SC_NA_1) (hr : s.role = .sender)
      (hs : s.state = .idle ∨ s.state = .txAwaitSelect)
      (ha : asdu.scq.action = .selectFile) :
      Course s now (.selectCall asdu)
        { s with
          lastProgress := some now
          state := .txAwaitRequest
          actions := s.actions ++ [.sendFileReady ⟨s.config.ioa, s.nof,
            ⟨s.fileLength⟩, Frq.ready⟩] }
  /-- The sender announces the section and asks for the first chunk. -/
  | requested (asdu : F_SC_NA_1) (hr : s.role = .sender)
      (hs : s.state = .txAwaitRequest) (ha : asdu.scq.action = .requestFile) :
      Course s now (.selectCall asdu)
        { s with
          lastProgress := some now
          sectionChecksum := Checksum.zero
          bytesTransferred := 0
          awaitingProvider := true
          state := .txSendingSegments
          actions := s.actions ++ .sendSectionReady ⟨s.config.ioa, s.nof, ⟨1⟩,
              ⟨s.sectionLength⟩, Srq.ready⟩
            :: if s.awaitingProvider then []
              else [.requestNextSegment s.chunkLimit] }
  /-- The sender sends a chunk and asks for the next one. -/
  | chunk (data : Bytes) (hr : s.role = .sender)
      (hs : s.state = .txSendingSegments) (hd : data ≠ []) :
      Course s now (.segmentReady data)
        { s with
          lastProgress := some now
          sectionChecksum := s.sectionChecksum.updateSlice data
          bytesTransferred :=
            saturatingAdd s.bytesTransferred (UInt32.ofNat data.length)
          awaitingProvider := true
          actions := s.actions ++ [.sendSegment ⟨s.config.ioa, s.nof, ⟨1⟩, data⟩,
            .requestNextSegment s.chunkLimit] }
  /-- The sender closes the section. -/
  | eof (hr : s.role = .sender) (hs : s.state = .txSendingSegments) :
      Course s now (.segmentReady [])
        { s with
          lastProgress := some now
          awaitingProvider := false
          state := .txAwaitAck
          actions := s.actions ++ [.sendLastSection ⟨s.config.ioa, s.nof, ⟨1⟩,
            .fileWithoutDeactivate, s.sectionChecksum⟩] }
  /-- The sender completes. -/
  | acked (asdu : F_AF_NA_1) (hr : s.role = .sender) (hs : s.state = .txAwaitAck)
      (ha : asdu.afq.action = .positiveFile ∨ asdu.afq.action = .positiveSection) :
      Course s now (.ackFile asdu)
        { s with
          lastProgress := some now
          state := .completed
          actions := s.actions ++ [.completed s.bytesTransferred] }

section Course

variable {s : Session} {now : Instant} {input : SessionInput}

/-- A live session that fails says so. -/
theorem fail_of_live (h : s.isTerminal = false) (reason : FailureReason) : s.fail reason
      = { s with state := .failed, actions := s.actions ++ [.failed reason] } := by
  rw [fail, if_neg (by rw [h]; decide)]
  rfl

/-- A live session may fail without noting progress. -/
theorem Course.of_fail (h : s.isTerminal = false) (hf : s.fits input = false)
    (reason : FailureReason) : Course s now input (s.fail reason) := by
  rw [fail_of_live h]
  exact .refuse hf reason (Or.inl rfl)

/-- Or after noting it. -/
theorem Course.of_fail_progress (h : s.isTerminal = false)
    (hf : s.fits input = false) (reason : FailureReason) :
    Course s now input ({ s with lastProgress := some now }.fail reason) := by
  rw [fail_of_live (s := { s with lastProgress := some now }) h]
  exact .refuse hf reason (Or.inr rfl)

theorem course_onStart (length : UInt32) : Course s now (.start length) (s.onStart length) := by
  unfold onStart
  split
  · rename_i hs
    exact .ignore (decide_eq_true hs)
  · rename_i hs
    have hs := not_not.mp hs
    split
    · exact .select length ‹_› hs
    · exact .announce length ‹_› hs

section

variable (h : s.isTerminal = false)

include h

theorem course_onFileReady (asdu : F_FR_NA_1) :
    Course s now (.fileReady asdu) (s.onFileReady asdu now) := by
  unfold onFileReady
  split
  · rename_i hr
    exact .ignore (decide_eq_true hr)
  · rename_i hr
    split
    · rename_i hs
      refine .of_fail h ?_ _
      exact decide_eq_false fun hf => hs hf.2.1
    · rename_i hs
      dsimp only
      split
      · rename_i hn
        refine .of_fail_progress h ?_ _
        exact decide_eq_false fun hf => absurd hn (by rw [hf.2.2]; decide)
      · exact .fileReady asdu (not_not.mp hr) (not_not.mp hs) (Bool.not_eq_true _ ▸ ‹_›)

theorem course_onSectionReady (asdu : F_SR_NA_1) :
    Course s now (.sectionReady asdu) (s.onSectionReady asdu now) := by
  unfold onSectionReady
  split
  · rename_i hrs
    refine .of_fail h ?_ _
    exact decide_eq_false fun hf => hrs.elim (· hf.1) (· hf.2.1)
  · rename_i hrs
    rw [not_or, not_not, not_not] at hrs
    dsimp only
    split
    · rename_i hn
      refine .of_fail_progress h ?_ _
      exact decide_eq_false fun hf => absurd hn (by rw [hf.2.2]; decide)
    · exact .sectionReady asdu hrs.1 hrs.2 (Bool.not_eq_true _ ▸ ‹_›)

theorem course_onSelectCall (asdu : F_SC_NA_1) :
    Course s now (.selectCall asdu) (s.onSelectCall asdu now) := by
  unfold onSelectCall
  split
  · rename_i hr
    refine .of_fail h ?_ _
    exact decide_eq_false fun hf => hr hf.1
  · rename_i hr
    have hr := not_not.mp hr
    dsimp only
    split
    · exact .selected asdu hr (Or.inl ‹_›) ‹_›
    · exact .selected asdu hr (Or.inr ‹_›) ‹_›
    · have hc : Course s now (.selectCall asdu) _ :=
        .requested asdu hr ‹_› ‹_›
      unfold requestNextSegment emit
      dsimp only
      cases hp : s.awaitingProvider with
      | true =>
        rw [hp] at hc
        simpa [hp] using hc
      | false =>
        rw [hp] at hc
        simpa [chunkLimit] using hc
    all_goals
      refine .of_fail_progress h ?_ _
      refine decide_eq_false fun hf => ?_
      grind

theorem course_onLastSection (asdu : F_LS_NA_1) :
    Course s now (.lastSection asdu) (s.onLastSection asdu now) := by
  unfold onLastSection
  split
  · rename_i hrs
    refine .of_fail h ?_ _
    exact decide_eq_false fun hf => hrs.elim (· hf.1) (· hf.2.1)
  · rename_i hrs
    rw [not_or, not_not, not_not] at hrs
    dsimp only
    split
    · rename_i hc
      have hcourse : Course s now (.lastSection asdu) _ :=
        .mismatch asdu hrs.1 hrs.2 hc
      rw [fail_of_live]
      · simpa [emit] using hcourse
      · exact h
    · rename_i hc
      have hcourse : Course s now (.lastSection asdu) _ :=
        .last asdu hrs.1 hrs.2 (not_not.mp hc)
      simpa [emit] using hcourse

theorem course_onAckFile (asdu : F_AF_NA_1) :
    Course s now (.ackFile asdu) (s.onAckFile asdu now) := by
  unfold onAckFile
  split
  · rename_i hrs
    refine .of_fail h ?_ _
    exact decide_eq_false fun hf => hrs.elim (· hf.1) (· hf.2.1)
  · rename_i hrs
    rw [not_or, not_not, not_not] at hrs
    dsimp only
    split
    · exact .acked asdu hrs.1 hrs.2 (Or.inl ‹_›)
    · exact .acked asdu hrs.1 hrs.2 (Or.inr ‹_›)
    · rename_i hp hq
      refine .of_fail_progress h ?_ _
      exact decide_eq_false fun hf => hf.2.2.elim hp hq

theorem course_onSegment (asdu : F_SG_NA_1) :
    Course s now (.segment asdu) (s.onSegment asdu now) := by
  unfold onSegment
  split
  · rename_i hrs
    refine .of_fail h ?_ _
    exact decide_eq_false fun hf => hrs.elim (· hf.1) (· hf.2)
  · rename_i hrs
    rw [not_or, not_not, not_not] at hrs
    exact .segment asdu hrs.1 hrs.2

end

theorem course_onSegmentReady (data : Bytes) :
    Course s now (.segmentReady data) (s.onSegmentReady data now) := by
  unfold onSegmentReady
  split
  · rename_i hrs
    exact .ignore (decide_eq_true hrs)
  · rename_i hrs
    rw [not_or, not_not, not_not] at hrs
    cases data with
    | nil => exact .eof hrs.1 hrs.2
    | cons b bs =>
      have hc : Course s now (.segmentReady (b :: bs)) _ :=
        .chunk (b :: bs) hrs.1 hrs.2
        (List.cons_ne_nil b bs)
      simpa [requestNextSegment, emit, chunkLimit] using hc

/-- **Every input takes one of the courses.** -/
theorem course_onInput (h : s.isTerminal = false) (input : SessionInput)
    (now : Instant) : Course s now input (s.onInput input now) := by
  cases input with
  | start length => exact course_onStart length
  | fileReady asdu => exact course_onFileReady h asdu
  | sectionReady asdu => exact course_onSectionReady h asdu
  | selectCall asdu => exact course_onSelectCall h asdu
  | lastSection asdu => exact course_onLastSection h asdu
  | ackFile asdu => exact course_onAckFile h asdu
  | segment asdu => exact course_onSegment h asdu
  | segmentReady data => exact course_onSegmentReady data
  | tick => exact .ignore rfl
  | abort => exact .of_fail h rfl _

end Course

/-- **What the timeout does**: it fails a live session, or leaves all but the
timer alone. -/
theorem checkTimeout_cases (s : Session) (now : Instant) :
    (∃ progress, s.checkTimeout now = { s with lastProgress := progress })
      ∨ (s.isTerminal = false ∧ s.checkTimeout now = { s with
              state := .failed
              actions := s.actions ++ [.failed .timeout] }) := by
  unfold checkTimeout
  split
  · exact Or.inl ⟨s.lastProgress, rfl⟩
  · rename_i hlive
    rw [Bool.not_eq_true] at hlive
    split
    · exact Or.inl ⟨s.lastProgress, rfl⟩
    · split
      · split
        · exact Or.inr ⟨hlive, fail_of_live hlive _⟩
        · exact Or.inl ⟨s.lastProgress, rfl⟩
      · exact Or.inl ⟨some now, rfl⟩

/-- Nothing happens to a session that is over. -/
theorem step_of_terminal {s : Session} (h : s.isTerminal = true)
    (i : SessionInput × Instant) : s.step i = (s, []) := by
  rw [step, if_pos h]

/-- A call of a live session handles its input and checks the timeout. -/
theorem step_of_live {s : Session} (h : s.isTerminal = false) (i : SessionInput × Instant) :
    s.step i = ({ (s.onInput i.1 i.2).checkTimeout i.2 with actions := [] },
      ((s.onInput i.1 i.2).checkTimeout i.2).actions) := by
  rw [step, if_neg (by rw [h]; decide)]

/-- **What a call of a live session leaves**: the session its input led to
with another timer, or that session failed by the timeout. -/
theorem step_cases {s : Session} (h : s.isTerminal = false)
    (i : SessionInput × Instant) : (∃ progress, s.step i
        = ({ s.onInput i.1 i.2 with lastProgress := progress, actions := [] },
          (s.onInput i.1 i.2).actions))
      ∨ s.step i = ({ s.onInput i.1 i.2 with state := .failed, actions := [] },
          (s.onInput i.1 i.2).actions ++ [.failed .timeout]) := by
  rw [step_of_live h]
  obtain ⟨progress, ht⟩ | ⟨-, ht⟩ := checkTimeout_cases (s.onInput i.1 i.2) i.2
  · exact Or.inl ⟨progress, by rw [ht]⟩
  · exact Or.inr (by rw [ht])

/-- **The rule of a call**: what holds of a session that is over, and of one that has handled
its input, and does not depend on the timer nor on whether the timeout fails the session,
holds of what a call leaves and returns. -/
theorem step_rule {M : Session → List SessionAction → Prop} (s : Session)
    (i : SessionInput × Instant) (hover : s.isTerminal = true → M s [])
    (hinput : s.isTerminal = false → M (s.onInput i.1 i.2) (s.onInput i.1 i.2).actions)
    (htimer : ∀ (d : Session) progress, M d d.actions →
      M { d with lastProgress := progress, actions := [] } d.actions)
    (htimeout : ∀ d : Session, M d d.actions →
      M { d with state := .failed, actions := [] } (d.actions ++ [.failed .timeout])) :
    M (s.step i).1 (s.step i).2 := by
  cases hlive : s.isTerminal with
  | true =>
    rw [step_of_terminal hlive]
    exact hover hlive
  | false =>
    obtain ⟨progress, hstep⟩ | hstep := step_cases hlive i
    · rw [hstep]
      exact htimer _ progress (hinput hlive)
    · rw [hstep]
      exact htimeout _ (hinput hlive)

section Fits

variable {s : Session} {input : SessionInput}

/-- Nothing fits a session that is over. -/
theorem fits_of_terminal (h : s.isTerminal = true) : s.fits input = false := by
  unfold isTerminal at h
  split at h
  · rename_i hst
    cases input <;> simp [fits, hst]
  · rename_i hst
    cases input <;> simp [fits, hst]
  · exact absurd h (by decide)

/-- An input that is ignored does not fit. -/
theorem fits_of_ignores (h : s.ignores input = true) : s.fits input = false := by
  cases input with
  | start length =>
    have h := of_decide_eq_true h
    exact decide_eq_false h
  | fileReady asdu =>
    have h := of_decide_eq_true h
    exact decide_eq_false fun hf => h hf.1
  | segmentReady data =>
    have h := of_decide_eq_true h
    exact decide_eq_false fun hf => h.elim (· hf.1) (· hf.2)
  | tick => rfl
  | _ => exact absurd h Bool.false_ne_true

/-- Calls hand out all their actions. -/
theorem actions_step (hs : s.actions = []) (i : SessionInput × Instant) :
    (s.step i).1.actions = [] := by
  cases hlive : s.isTerminal with
  | true => rw [step_of_terminal hlive, hs]
  | false => rw [step_of_live hlive]

/-- A session keeps its role and its parameters. -/
theorem settings_onInput (h : s.isTerminal = false) (input : SessionInput) (now : Instant) :
    (s.onInput input now).role = s.role ∧ (s.onInput input now).config = s.config := by
  have hc := course_onInput h input now
  generalize s.onInput input now = d at hc ⊢
  cases hc <;> exact ⟨rfl, rfl⟩

theorem settings_step (s : Session) (i : SessionInput × Instant) :
    (s.step i).1.role = s.role ∧ (s.step i).1.config = s.config :=
  step_rule (M := fun d _ => d.role = s.role ∧ d.config = s.config) s i (fun _ => ⟨rfl, rfl⟩)
    (fun hlive => settings_onInput hlive i.1 i.2) (fun _ _ h => h) fun _ h => h

end Fits

end Session

/-- Between calls no action waits. -/
theorem actions_of_run {role : Role} {nof : NameOfFile} {config : SessionConfig}
    {h : List Call} {s : Session} (r : Run Session.step (.new role nof config) h s) :
    s.actions = [] := by
  induction r with
  | nil => rfl
  | snoc r i ih => exact Session.actions_step ih i

end FileTransfer
