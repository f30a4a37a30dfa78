import Iec60870.Frame101Link

/-!
# What a master does with a frame

`master_on_frame` (`frame101/link.rs`) looks at the kind of a frame, decodes
its control field and then at the function code. For what the master does all
this comes down to one of seven replies (`Frame.reply`), and
`Connection.masterOnFrame_eq` says once what each of them leads to. Whatever is
proved about a master further on splits on the reply, not on the frame.

The same is done here for the three functions that the replies and the inputs
lead to: the queue, the state of the link and the timers.
-/

namespace Frame101

open Machine

variable {α : Type}

/-- **What a frame says to a master.** -/
inductive Reply (α : Type) where
  /-- The single octet that acknowledges. -/
  | char
  /-- A frame that acknowledges. -/
  | ack
  /-- A refusal, of either kind. -/
  | nack
  /-- The status of the link. -/
  | status
  /-- There is no data. -/
  | noData
  /-- User data. -/
  | data (asdu : α)
  /-- Nothing that a master expects. -/
  | invalid
deriving DecidableEq, Repr

/-- A reply that acknowledges. -/
def Reply.isAck : Reply α → Bool
  | .char | .ack => true
  | _ => false

/-- The ASDU in a reply. -/
def Reply.asdu? : Reply α → Option α
  | .data asdu => some asdu
  | _ => none

/-- The reply in a control frame. -/
def ControlField.reply : ControlField → Reply α
  | .secondary _ _ .ack => .ack
  | .secondary _ _ .nack => .nack
  | .secondary _ _ .statusOfLink => .status
  | .secondary _ _ .nackNoData => .noData
  | _ => .invalid

/-- The reply in a frame. -/
def Frame.reply : Frame α → Reply α
  | .single .ack => .char
  | .single .nack => .nack
  | .fixedLength control _ =>
    match ControlField.decode control .secondary with
    | some cf => cf.reply
    | none => .invalid
  | .variableLength control _ asdu =>
    match ControlField.decode control .secondary with
    | some (.secondary _ _ .respondUserData) => .data asdu
    | _ => .invalid

namespace Connection

variable {c : Connection α} {now : Instant}

/-- A link that has not been ready becomes so. -/
def makeReady (c : Connection α) : Connection α :=
  if c.linkState = .notReady then c.transitionLink .ready else c

/-- **What a master does with a reply.** -/
def onReply (c : Connection α) (now : Instant) : Reply α → Connection α
  | .char =>
    if c.pending.isSome then { c with pending := none }.maybeFlushQueue now else c
  | .ack =>
    if c.pending.isSome then ({ c with pending := none }.makeReady).maybeFlushQueue now
    else c
  | .nack => { c with pending := none }.emitLinkError .nack
  | .status => { c with pending := none }.makeReady
  | .noData => { c with pending := none }
  | .data asdu => { c with pending := none }.emit (.deliverAsdu asdu)
  | .invalid => c.emitLinkError .protocolError

/-- **Only the reply in a frame matters to a master.** -/
theorem masterOnFrame_eq (frame : Frame α) :
    c.masterOnFrame frame now = c.onReply now frame.reply := by
  cases frame with
  | single char => cases char <;> rfl
  | fixedLength control address =>
    unfold masterOnFrame Frame.reply
    dsimp only
    cases ControlField.decode control .secondary with
    | none => rfl
    | some cf =>
      cases cf with
      | primary fcb fcv func => rfl
      | secondary acd dfc func => cases func <;> rfl
  | variableLength control address asdu =>
    unfold masterOnFrame Frame.reply
    dsimp only
    generalize ControlField.decode control .secondary = cf
    cases cf with
    | none => rfl
    | some cf =>
      cases cf with
      | primary fcb fcv func => rfl
      | secondary acd dfc func => cases func <;> rfl

/-! ## The parts of a call -/

/-- The queue is looked at only when nothing is pending. -/
theorem maybeFlushQueue_of_isSome (hp : c.pending.isSome) : c.maybeFlushQueue now = c :=
  if_pos hp

theorem maybeFlushQueue_nil (hq : c.sendQueue = []) : c.maybeFlushQueue now = c := by
  unfold maybeFlushQueue
  split
  · rfl
  · rw [hq]

/-- The first queued ASDU is sent. -/
theorem maybeFlushQueue_cons {asdu : α} {rest : List α} (hp : c.pending = none)
    (hq : c.sendQueue = asdu :: rest) : c.maybeFlushQueue now
      = { { c with sendQueue := rest }.sendWithConfirm
            (userDataFrame c.config.linkAddress c.fcb asdu) now with
          fcb := !c.fcb } := by
  unfold maybeFlushQueue
  rw [hp, hq]
  rfl

theorem transitionLink_eq (newState : LinkState) : c.transitionLink newState = { c with
          linkState := newState
          actions := c.actions
            ++ if c.linkState ≠ newState then [.linkStateChanged newState] else [] } := by
  unfold transitionLink
  by_cases h : c.linkState = newState
  · rw [if_neg (not_not_intro h), if_neg (not_not_intro h), List.append_nil, ← h]
  · rw [if_pos h, if_pos h]
    rfl

theorem makeReady_eq : c.makeReady = { c with
          linkState := if c.linkState = .notReady then .ready else c.linkState
          actions := c.actions
            ++ if c.linkState = .notReady then [.linkStateChanged .ready] else [] } := by
  unfold makeReady
  by_cases h : c.linkState = .notReady
  · rw [if_pos h, if_pos h, if_pos h, transitionLink_eq, h]
    rfl
  · rw [if_neg h, if_neg h, if_neg h, List.append_nil]

/-- **What the timers do**: nothing, or they repeat the pending frame, or give
it up. -/
theorem runTimers_cases (c : Connection α) (now : Instant) :
    (∀ p ∈ c.pending, now - p.sentAt < c.config.timeout) ∧ c.runTimers now = c
    ∨ ∃ p, c.pending = some p ∧ c.config.timeout ≤ now - p.sentAt
      ∧ (p.attempts ≤ c.config.maxRetries ∧ c.runTimers now
            = { c with pending := some ⟨p.frame, now, p.attempts + 1⟩ }.emit
                (.sendFrame p.frame)
        ∨ c.config.maxRetries < p.attempts ∧ c.runTimers now
            = ({ c with pending := none }.transitionLink .failed).emit
                (.linkError .ackTimeout)) := by
  unfold runTimers
  cases hp : c.pending with
  | none => exact Or.inl ⟨nofun, rfl⟩
  | some p =>
    dsimp only
    by_cases ht : now - p.sentAt ≥ c.config.timeout
    · rw [if_pos ht]
      refine Or.inr ⟨p, rfl, ht, ?_⟩
      by_cases ha : p.attempts > c.config.maxRetries
      · rw [if_pos ha]
        exact Or.inr ⟨ha, rfl⟩
      · rw [if_neg ha]
        exact Or.inl ⟨UInt8.not_lt.mp ha, rfl⟩
    · rw [if_neg ht]
      refine Or.inl ⟨fun q hq => ?_, rfl⟩
      rw [← Option.some.inj hq]
      exact Nat.lt_of_not_le ht

end Connection

end Frame101
