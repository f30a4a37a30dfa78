import Mathlib.Logic.Relation
import Iec60870.Frame101Reply

/-!
# What the two stations do

A call of the link-layer machine runs through several handlers, and what the
other end gets to see of it is less than what it does. This module says once
what a call can do, in terms the statements about the link are made in.

The master is a sender. Of its state only the frame that awaits an
acknowledgement, the queue and the frame count bit matter, together with the
frames the call has emitted so far (`SendView`). Whatever the input is, the
call is a sequence of four kinds of `Deed`: to give up the pending frame, to
send the next queued ASDU when no frame is pending, to send a control frame,
to send the pending frame again (`Connection.deeds_handle`). In particular
the pending frame is never sent again once another frame has been sent.

The outstation is a receiver. Its last frame count bit decides what it does
with a frame: `react` gives the bit it keeps, the ASDUs it delivers and
whether it acknowledges, and `Connection.reacts_handle` that a call does
this.
-/

namespace Frame101

open Machine

variable {α : Type}

/-- A call of a connection. -/
abbrev Call (α : Type) :=
  Machine.Call (Connection α) (Input α × Instant) (Action α)

/-! ## What is read off inputs, actions and histories -/

/-- The frame an action sends. -/
def Action.frame? : Action α → Option (Frame α)
  | .sendFrame frame => some frame
  | _ => none

/-- The ASDU an action delivers. -/
def Action.asdu? : Action α → Option α
  | .deliverAsdu asdu => some asdu
  | _ => none

/-- The frame an input receives. -/
def Input.frame? : Input α → Option (Frame α)
  | .frameReceived frame => some frame
  | _ => none

/-- The ASDU an input submits. -/
def Input.asdu? : Input α → Option α
  | .sendUserData asdu => some asdu
  | _ => none

/-- The ASDUs submitted in a history, in order. -/
def submitted (h : List (Call α)) : List α :=
  h.filterMap (fun k => k.input.1.asdu?)

/-- The ASDUs delivered in a history, in order. -/
def delivered (h : List (Call α)) : List α :=
  h.flatMap (fun k => k.actions.filterMap Action.asdu?)

@[simp] theorem submitted_snoc (h : List (Call α)) (c : Connection α)
    (i : Input α × Instant) : submitted (h ++ [call Connection.handle c i])
      = submitted h ++ i.1.asdu?.toList := by
  unfold submitted
  rw [List.filterMap_append, filterMap_singleton]
  rfl

@[simp] theorem delivered_snoc (h : List (Call α)) (c : Connection α)
    (i : Input α × Instant) : delivered (h ++ [call Connection.handle c i])
      = delivered h ++ (c.handle i).2.filterMap Action.asdu? := by
  unfold delivered
  rw [List.flatMap_append, List.flatMap_singleton]
  rfl

/-- Whether a frame is a positive acknowledgement for the master. -/
def Frame.isAck : Frame α → Bool
  | .single .ack => true
  | .fixedLength control _ =>
    match ControlField.decode control .secondary with
    | some (.secondary _ _ .ack) => true
    | _ => false
  | _ => false

theorem Frame.isAck_reply (frame : Frame α) : frame.reply.isAck = frame.isAck := by
  cases frame with
  | single char => cases char <;> rfl
  | fixedLength control address =>
    unfold Frame.reply Frame.isAck
    dsimp only
    cases ControlField.decode control .secondary with
    | none => rfl
    | some cf =>
      cases cf with
      | primary fcb fcv func => rfl
      | secondary acd dfc func => cases func <;> rfl
  | variableLength control address asdu =>
    unfold Frame.reply
    dsimp only
    split <;> rfl

/-! ## The master -/

/-- What the other end can notice of a master. -/
structure SendView (α : Type) where
  /-- The frame that awaits its acknowledgement. -/
  pending : Option (Frame α)
  /-- The ASDUs to be sent. -/
  queue : List α
  /-- The frame count bit of the next send. -/
  fcb : Bool
  /-- The frames of the current call. -/
  out : List (Frame α)

/-- The view of a connection. -/
def Connection.sendView (c : Connection α) : SendView α where
  pending := c.pending.map PendingSend.frame
  queue := c.sendQueue
  fcb := c.fcb
  out := c.actions.filterMap Action.frame?

/-- **What a master does**, one thing at a time. -/
inductive Deed (address : LinkAddress) : SendView α → SendView α → Prop
  /-- It stops waiting for an acknowledgement. -/
  | clear (v : SendView α) : Deed address v { v with pending := none }
  /-- It sends the next ASDU. -/
  | start {v : SendView α} (asdu : α) (rest : List α) (hp : v.pending = none)
      (hq : v.queue = asdu :: rest) :
      Deed address v
        { pending := some (Connection.userDataFrame address v.fcb asdu)
          queue := rest
          fcb := !v.fcb
          out := v.out ++ [Connection.userDataFrame address v.fcb asdu] }
  /-- It sends a control frame. -/
  | ask (v : SendView α) (control : UInt8) : Deed address v
        { v with
          pending := some (.fixedLength control address)
          out := v.out ++ [.fixedLength control address] }
  /-- It sends the pending frame again. -/
  | again {v : SendView α} {frame : Frame α} (hp : v.pending = some frame) :
      Deed address v { v with out := v.out ++ [frame] }

/-- A sequence of deeds. -/
abbrev Deeds (address : LinkAddress) : SendView α → SendView α → Prop :=
  Relation.ReflTransGen (Deed address)

namespace Connection

variable {c : Connection α} {address : LinkAddress} {now : Instant}

theorem sendView_emit {a : Action α} (ha : a.frame? = none) : (c.emit a).sendView = c.sendView := by
  unfold sendView emit
  rw [List.filterMap_append, filterMap_singleton, ha]
  exact congrArg (SendView.mk _ _ _) (List.append_nil _)

theorem sendView_sendFrame (frame : Frame α) : (c.emit (.sendFrame frame)).sendView
      = { c.sendView with out := c.sendView.out ++ [frame] } := by
  unfold sendView emit
  rw [List.filterMap_append, filterMap_singleton]
  rfl

theorem sendView_transitionLink (newState : LinkState) :
    (c.transitionLink newState).sendView = c.sendView := by
  rw [transitionLink_eq]
  split
  · exact sendView_emit (a := .linkStateChanged newState) rfl
  · rw [List.append_nil]
    rfl

/-- Giving up the pending frame, in a state of the link that may change. -/
theorem deeds_clear (d : Connection α) (hd : d.sendView = { c.sendView with pending := none }) :
    Deeds address c.sendView d.sendView := by
  rw [hd]
  exact .single (.clear _)

theorem sendView_sendWithConfirm (frame : Frame α) : (c.sendWithConfirm frame now).sendView
      = { c.sendView with
          pending := some frame
          out := c.sendView.out ++ [frame] } :=
  congrArg (fun v : SendView α => { v with pending := some frame }) (sendView_sendFrame frame)

theorem sendView_maybeFlushQueue {asdu : α} {rest : List α}
    (hp : c.pending = none) (hq : c.sendQueue = asdu :: rest) :
    (c.maybeFlushQueue now).sendView
      = { pending := some (userDataFrame c.config.linkAddress c.fcb asdu)
          queue := rest
          fcb := !c.fcb
          out := c.sendView.out ++ [userDataFrame c.config.linkAddress c.fcb asdu] } := by
  simp [maybeFlushQueue, hp, hq, sendView, sendWithConfirm, emit, Action.frame?]

theorem deeds_maybeFlushQueue :
    Deeds c.config.linkAddress c.sendView (c.maybeFlushQueue now).sendView := by
  by_cases hp : c.pending.isSome
  · rw [maybeFlushQueue_of_isSome hp]
  · have hnone : c.pending = none := Option.not_isSome_iff_eq_none.1 hp
    cases hq : c.sendQueue with
    | nil => rw [maybeFlushQueue_nil hq]
    | cons asdu rest =>
      rw [sendView_maybeFlushQueue hnone hq]
      exact .single (.start asdu rest (by rw [sendView, hnone]; rfl) hq)

/-- The pending frame is acknowledged: the exchange ends and the next one
begins, whatever else happens to the connection in between. -/
theorem deeds_acknowledged (d : Connection α) (hc : d.config = c.config)
    (hd : d.sendView = { c.sendView with pending := none }) :
    Deeds c.config.linkAddress c.sendView (d.maybeFlushQueue now).sendView :=
  (deeds_clear d hd).trans (hc ▸ deeds_maybeFlushQueue)

/-- What a change of the state of the link does not touch. -/
def base (c : Connection α) : Role × Config × Option (PendingSend α) :=
  (c.role, c.config, c.pending)

theorem base_transitionLink (newState : LinkState) : (c.transitionLink newState).base = c.base := by
  rw [transitionLink_eq]
  rfl

theorem sendView_makeReady : c.makeReady.sendView = c.sendView := by
  unfold makeReady
  split
  · exact sendView_transitionLink _
  · rfl

/-- A frame the master receives ends the exchange in progress, and begins
the next one if it is an acknowledgement. -/
theorem deeds_masterOnFrame (frame : Frame α) :
    Deeds c.config.linkAddress c.sendView (c.masterOnFrame frame now).sendView := by
  rw [masterOnFrame_eq]
  cases frame.reply with
  | char =>
    rw [onReply]
    split
    · exact deeds_acknowledged _ rfl rfl
    · exact .refl
  | ack =>
    rw [onReply]
    split
    · exact deeds_acknowledged _ (by rw [makeReady_eq]) sendView_makeReady
    · exact .refl
  | nack | data => exact deeds_clear _ (sendView_emit rfl)
  | status => exact deeds_clear _ sendView_makeReady
  | noData => exact deeds_clear _ rfl
  | invalid => rw [onReply, emitLinkError, sendView_emit rfl]

theorem deeds_request (func : FuncCodePrimary) :
    Deeds c.config.linkAddress c.sendView (request func c now).sendView := by
  unfold request
  by_cases hr : c.role = .master
  · rw [if_neg (not_not_intro hr)]
    by_cases hp : c.pending.isSome
    · rw [if_pos hp]
    · rw [if_neg hp, sendView_sendWithConfirm]
      exact .single (.ask _ _)
  · rw [if_pos hr]

theorem deeds_onResetRemoteLink :
    Deeds c.config.linkAddress c.sendView (c.onResetRemoteLink now).sendView := by
  unfold onResetRemoteLink
  by_cases hr : c.role = .master
  · rw [if_neg (not_not_intro hr), sendView_sendWithConfirm]
    exact .single (.ask _ _)
  · rw [if_pos hr]

/-- The timers repeat the pending frame, or give it up. -/
theorem deeds_runTimers : Deeds address c.sendView (c.runTimers now).sendView := by
  obtain ⟨-, he⟩ | ⟨p, hp, -, ⟨-, he⟩ | ⟨-, he⟩⟩ := runTimers_cases c now
  · rw [he]
  · have hpend : c.sendView.pending = some p.frame := by
      rw [sendView, hp]
      rfl
    have hview : (c.runTimers now).sendView
        = { c.sendView with out := c.sendView.out ++ [p.frame] } := by
      rw [he, sendView_sendFrame, sendView, sendView, hp]
      rfl
    rw [hview]
    exact .single (.again hpend)
  · refine deeds_clear _ ?_
    rw [he, sendView_emit rfl, sendView_transitionLink]
    rfl

/-- The view of a master when a call begins: an ASDU the call submits is in
the queue already. -/
def entryView (c : Connection α) (input : Input α) : SendView α where
  pending := c.pending.map PendingSend.frame
  queue := c.sendQueue ++ input.asdu?.toList
  fcb := c.fcb
  out := []

/-- The view of a connection when a call ends. -/
def exitView (r : Connection α × List (Action α)) : SendView α where
  pending := r.1.pending.map PendingSend.frame
  queue := r.1.sendQueue
  fcb := r.1.fcb
  out := r.2.filterMap Action.frame?

theorem deeds_onInput (hr : c.role = .master) (hc : c.actions = [])
    (input : Input α) : Deeds c.config.linkAddress (c.entryView input)
      (c.onInput input now).sendView := by
  have hentry (h : input.asdu? = none) : c.entryView input = c.sendView := by
    unfold entryView sendView
    rw [h, hc]
    exact congrArg (fun q => SendView.mk _ q _ _) (List.append_nil _)
  cases input with
  | frameReceived frame =>
    rw [hentry rfl, onInput, onFrame, hr]
    exact deeds_masterOnFrame frame
  | tick =>
    rw [hentry rfl]
    exact .refl
  | sendUserData asdu =>
    have hq : { c with sendQueue := c.sendQueue ++ [asdu] }.sendView
        = c.entryView (.sendUserData asdu) := by
      unfold entryView sendView
      rw [hc]
      rfl
    rw [← hq, onInput, onSendUserData]
    split
    · exact deeds_maybeFlushQueue (c := { c with sendQueue := c.sendQueue ++ [asdu] })
    · exact absurd (hr.symm.trans ‹_›) (by decide)
  | requestStatus | requestUserDataClass1 | requestUserDataClass2 =>
    rw [hentry rfl]
    exact deeds_request _
  | resetRemoteLink =>
    rw [hentry rfl]
    exact deeds_onResetRemoteLink

/-- **A call of the master is a sequence of deeds.** -/
theorem deeds_handle (hr : c.role = .master) (hc : c.actions = []) (i : Input α × Instant) :
    Deeds c.config.linkAddress (c.entryView i.1) (exitView (c.handle i)) :=
  (deeds_onInput hr hc i.1).trans deeds_runTimers

end Connection

/-! ## The outstation -/

/-- What an outstation does with a frame. -/
structure Reaction (α : Type) where
  /-- The frame count bit it has seen last. -/
  last : Option Bool
  /-- The ASDUs it delivers. -/
  asdus : List α
  /-- Whether it acknowledges. -/
  acks : Bool
deriving DecidableEq, Repr

/-- The reaction of an outstation to a frame it ignores. -/
def Reaction.none (last : Option Bool) : Reaction α := ⟨last, [], false⟩

/-- The reaction to a control frame. -/
def reactFixed (last : Option Bool) : ControlField → Reaction α
  | .primary _ _ .resetRemoteLink => ⟨Option.none, [], true⟩
  | _ => .none last

/-- The reaction to a frame with an ASDU. -/
def reactVariable (last : Option Bool) (asdu : α) : ControlField → Reaction α
  | .primary fcb fcv .userDataConfirmed =>
    { last := if fcv then some fcb else last
      asdus := if fcv ∧ last = some fcb then [] else [asdu]
      acks := true }
  | .primary _ _ .userDataUnconfirmed => ⟨last, [asdu], false⟩
  | _ => .none last

/-- **The reaction of an outstation to a frame.** -/
def react (address : LinkAddress) (last : Option Bool) : Frame α → Reaction α
  | .single _ => .none last
  | .fixedLength control a =>
    if a ≠ address then .none last
    else
      match ControlField.decode control .primary with
      | some cf => reactFixed last cf
      | Option.none => .none last
  | .variableLength control a asdu =>
    if a ≠ address then .none last
    else
      match ControlField.decode control .primary with
      | some cf => reactVariable last asdu cf
      | Option.none => .none last

/-- The reaction of an outstation to an input. -/
def reactTo (address : LinkAddress) (last : Option Bool) : Input α → Reaction α
  | .frameReceived frame => react address last frame
  | _ => .none last

namespace Connection

variable {c : Connection α} {now : Instant}

/-- The reaction in the course of a call. -/
def reaction (c : Connection α) : Reaction α where
  last := c.lastFcbSeen
  asdus := c.actions.filterMap Action.asdu?
  acks := (c.actions.filterMap Action.frame?).any Frame.isAck

theorem reaction_start (hc : c.actions = []) : c.reaction = Reaction.none c.lastFcbSeen := by
  unfold reaction
  rw [hc]
  rfl

theorem reaction_transitionLink (newState : LinkState) :
    (c.transitionLink newState).reaction = c.reaction := by
  unfold transitionLink
  by_cases h : c.linkState = newState
  · rw [if_neg (not_not_intro h)]
  · rw [if_pos h]
    simp [reaction, emit, Action.asdu?, Action.frame?]

section

variable (hc : c.actions = [])

include hc

/-- An answer delivers nothing, and is an acknowledgement if it says so. -/
theorem reaction_answer (func : FuncCodeSecondary) :
    (answer func c).reaction = ⟨c.lastFcbSeen, [], func == .ack⟩ := by
  simp only [reaction, answer, emit, hc, buildFixed]
  cases func <;> rfl

/-- The answer to a poll delivers nothing and is no acknowledgement. -/
theorem reaction_poll : (match c.sendQueue with
      | asdu :: rest => { c with sendQueue := rest }.sendRespondUserData asdu
      | [] => c.sendNackNoData).reaction = .none c.lastFcbSeen := by
  split
  · simp [reaction, sendRespondUserData, emit, hc, Action.asdu?, Action.frame?,
      Frame.isAck, Reaction.none]
  · exact reaction_answer hc .nackNoData

theorem reaction_outstationOnPrimaryFixed (cf : ControlField) :
    (c.outstationOnPrimaryFixed cf).reaction = reactFixed c.lastFcbSeen cf := by
  cases cf with
  | secondary acd dfc func => exact reaction_start hc
  | primary fcb fcv func =>
    cases func with
    | resetRemoteLink =>
      exact (reaction_transitionLink _).trans
        (reaction_answer (c := { c with lastFcbSeen := none }) hc .ack)
    | requestStatus => exact reaction_answer hc .statusOfLink
    | requestUserDataClass1 | requestUserDataClass2 => exact reaction_poll hc
    | _ => exact reaction_start hc

/-- An ASDU that is acknowledged is delivered unless it is a duplicate. -/
theorem reaction_confirm (duplicate : Bool) (asdu : α) :
    (if !duplicate then c.sendAck.emit (.deliverAsdu asdu) else c.sendAck).reaction
      = ⟨c.lastFcbSeen, if duplicate then [] else [asdu], true⟩ := by
  cases duplicate with
  | true => exact reaction_answer hc .ack
  | false =>
    simp only [reaction, sendAck, answer, emit, hc, buildFixed]
    rfl

theorem reaction_outstationOnPrimaryVariable
    (cf : ControlField) (asdu : α) : (c.outstationOnPrimaryVariable cf asdu).reaction
      = reactVariable c.lastFcbSeen asdu cf := by
  cases cf with
  | secondary acd dfc func => exact reaction_start hc
  | primary fcb fcv func =>
    cases func with
    | userDataConfirmed =>
      cases fcv with
      | false =>
        simp only [reactVariable, Bool.false_eq_true, false_and, if_false]
        exact reaction_confirm hc false asdu
      | true =>
        have h := reaction_confirm (c := { c with lastFcbSeen := some fcb }) hc
          (c.lastFcbSeen == some fcb) asdu
        simp only [beq_iff_eq] at h
        simp only [reactVariable, true_and, if_true]
        exact h
    | userDataUnconfirmed =>
      show (c.emit (.deliverAsdu asdu)).reaction = ⟨c.lastFcbSeen, [asdu], false⟩
      simp only [reaction, emit, hc]
      rfl
    | _ => exact reaction_start hc

/-- **An outstation reacts to a frame as `react` says.** -/
theorem reaction_outstationOnFrame (frame : Frame α) : (c.outstationOnFrame frame).reaction
      = react c.config.linkAddress c.lastFcbSeen frame := by
  unfold outstationOnFrame react
  cases frame with
  | single char => exact reaction_start hc
  | fixedLength control address =>
    by_cases ha : address = c.config.linkAddress
    · simp only [ha, ne_eq, not_true_eq_false, if_false]
      cases ControlField.decode control .primary with
      | none => exact reaction_start hc
      | some cf => exact reaction_outstationOnPrimaryFixed hc cf
    · simp only [ne_eq, ha, not_false_eq_true, if_true]
      exact reaction_start hc
  | variableLength control address asdu =>
    by_cases ha : address = c.config.linkAddress
    · simp only [ha, ne_eq, not_true_eq_false, if_false]
      cases ControlField.decode control .primary with
      | none => exact reaction_start hc
      | some cf => exact reaction_outstationOnPrimaryVariable hc cf asdu
    · simp only [ne_eq, ha, not_false_eq_true, if_true]
      exact reaction_start hc

end

theorem base_outstationOnPrimaryFixed (cf : ControlField) :
    (c.outstationOnPrimaryFixed cf).base = c.base := by
  unfold outstationOnPrimaryFixed
  split
  · exact base_transitionLink _
  · rfl
  · split <;> rfl
  · split <;> rfl
  · rfl

theorem base_outstationOnPrimaryVariable (cf : ControlField) (asdu : α) :
    (c.outstationOnPrimaryVariable cf asdu).base = c.base := by
  unfold outstationOnPrimaryVariable
  split
  · rename_i fcb fcv
    cases fcv with
    | false => rfl
    | true =>
      by_cases hdup : c.lastFcbSeen = some fcb
      · simp only [if_true, hdup, BEq.rfl]
        rfl
      · simp only [if_true, beq_eq_false_iff_ne.2 hdup]
        rfl
  · rfl
  · rfl

theorem base_outstationOnFrame (frame : Frame α) : (c.outstationOnFrame frame).base = c.base := by
  unfold outstationOnFrame
  split
  · split
    · rfl
    · split
      · exact base_outstationOnPrimaryFixed _
      · rfl
  · split
    · rfl
    · split
      · exact base_outstationOnPrimaryVariable _ _
      · rfl
  · rfl

/-- Of what is not a frame, an outstation keeps the ASDUs. -/
theorem onInput_outstation (hr : c.role = .outstation) {input : Input α}
    (hf : input.frame? = none) : c.onInput input now
      = { c with sendQueue := c.sendQueue ++ input.asdu?.toList } := by
  have hm : c.role ≠ .master := hr ▸ by decide
  have hsame : c = { c with sendQueue := c.sendQueue ++ [] } := by
    rw [List.append_nil]
  cases input with
  | frameReceived frame => exact absurd hf (by simp [Input.frame?])
  | tick => exact hsame
  | sendUserData asdu =>
    rw [onInput, onSendUserData]
    split
    · exact absurd ‹_› hm
    · rfl
  | requestStatus =>
    rw [onInput, onRequestStatus, request, if_pos hm]
    exact hsame
  | resetRemoteLink =>
    rw [onInput, onResetRemoteLink, if_pos hm]
    exact hsame
  | requestUserDataClass1 | requestUserDataClass2 =>
    rw [onInput, onRequestClass, request, if_pos hm]
    exact hsame

/-- **What an input does to an outstation**: the reaction `react` describes,
and nothing to what it is or waits for. -/
theorem onInput_reacts (hr : c.role = .outstation) (hc : c.actions = [])
    (input : Input α) (now : Instant) : (c.onInput input now).base = c.base
      ∧ (c.onInput input now).reaction = reactTo c.config.linkAddress c.lastFcbSeen input := by
  cases hf : input.frame? with
  | some frame =>
    cases input with
    | frameReceived frame =>
      rw [onInput, onFrame, hr]
      exact ⟨base_outstationOnFrame frame, reaction_outstationOnFrame hc frame⟩
    | _ => exact absurd hf (by simp [Input.frame?])
  | none =>
    have hreact : reactTo c.config.linkAddress c.lastFcbSeen input = .none c.lastFcbSeen := by
      cases input with
      | frameReceived frame => exact absurd hf (by simp [Input.frame?])
      | _ => rfl
    rw [onInput_outstation hr hf, hreact]
    exact ⟨rfl, reaction_start (c := { c with sendQueue := _ }) hc⟩

/-- **A call of the outstation is its reaction to the input.** -/
theorem reacts_handle (hr : c.role = .outstation) (hp : c.pending = none)
    (hc : c.actions = []) (i : Input α × Instant) : (c.handle i).1.lastFcbSeen
        = (reactTo c.config.linkAddress c.lastFcbSeen i.1).last
      ∧ (c.handle i).2.filterMap Action.asdu?
        = (reactTo c.config.linkAddress c.lastFcbSeen i.1).asdus
      ∧ ((c.handle i).2.filterMap Action.frame?).any Frame.isAck
        = (reactTo c.config.linkAddress c.lastFcbSeen i.1).acks
      ∧ (c.handle i).1.pending = none := by
  obtain ⟨hbase, hreact⟩ := onInput_reacts hr hc i.1 i.2
  have hpend : (c.onInput i.1 i.2).pending = none :=
    (congrArg (fun b : _ × _ × _ => b.2.2) hbase).trans hp
  have htimers : (c.onInput i.1 i.2).runTimers i.2 = c.onInput i.1 i.2 := by
    rw [runTimers, hpend]
  unfold handle
  rw [htimers, ← hreact]
  exact ⟨rfl, rfl, rfl, hpend⟩

end Connection

/-! ## What a connection is stays the same -/

namespace Connection

variable {c : Connection α} {now : Instant}

/-- What a connection is. -/
def ident (c : Connection α) : Role × Config := (c.role, c.config)

theorem ident_maybeFlushQueue : (c.maybeFlushQueue now).ident = c.ident := by
  unfold maybeFlushQueue
  split
  · rfl
  · split <;> rfl

theorem ident_transitionLink (newState : LinkState) : (c.transitionLink newState).ident = c.ident :=
  congrArg (fun b : _ × _ × _ => (b.1, b.2.1)) (base_transitionLink newState)

theorem ident_makeReady : c.makeReady.ident = c.ident := by
  rw [makeReady_eq]
  rfl

theorem ident_masterOnFrame (frame : Frame α) : (c.masterOnFrame frame now).ident = c.ident := by
  rw [masterOnFrame_eq]
  cases frame.reply with
  | char =>
    rw [onReply]
    split
    · exact ident_maybeFlushQueue
    · rfl
  | ack =>
    rw [onReply]
    split
    · exact ident_maybeFlushQueue.trans ident_makeReady
    · rfl
  | status => exact ident_makeReady
  | _ => rfl

theorem ident_request (func : FuncCodePrimary) : (request func c now).ident = c.ident := by
  unfold request
  split
  · rfl
  · split <;> rfl

theorem ident_runTimers (now : Instant) : (c.runTimers now).ident = c.ident := by
  obtain ⟨-, he⟩ | ⟨p, -, -, ⟨-, he⟩ | ⟨-, he⟩⟩ := runTimers_cases c now
  · rw [he]
  · rw [he]
    rfl
  · rw [he]
    exact ident_transitionLink _

theorem ident_onInput (input : Input α) : (c.onInput input now).ident = c.ident := by
  cases input with
  | frameReceived frame =>
    rw [onInput, onFrame]
    split
    · exact ident_masterOnFrame frame
    · exact congrArg (fun b : _ × _ × _ => (b.1, b.2.1)) (base_outstationOnFrame frame)
  | tick => rfl
  | sendUserData asdu =>
    rw [onInput, onSendUserData]
    split
    · exact ident_maybeFlushQueue
    · rfl
  | requestStatus | requestUserDataClass1 | requestUserDataClass2 => exact ident_request _
  | resetRemoteLink =>
    rw [onInput, onResetRemoteLink]
    split <;> rfl

/-- **A call keeps the role and the parameters.** -/
theorem ident_handle (i : Input α × Instant) : (c.handle i).1.ident = c.ident :=
  (ident_runTimers i.2).trans (ident_onInput i.1)

/-- **What holds between calls**: no action is left over, and the connection
is what it was made as. -/
theorem kept_of_run {role : Role} {config : Config} {h : List (Call α)}
    (r : Run Connection.handle (unbalanced role config) h c) :
    c.role = role ∧ c.config = config ∧ c.actions = [] := by
  induction r with
  | nil => exact ⟨rfl, rfl, rfl⟩
  | @snoc _ d r i ih =>
    have hid := ident_handle (c := d) i
    exact ⟨(congrArg Prod.fst hid).trans ih.1, (congrArg Prod.snd hid).trans ih.2.1, rfl⟩

/-- **An outstation never waits for an acknowledgement.** -/
theorem pending_of_run {config : Config} {h : List (Call α)}
    (r : Run Connection.handle (unbalanced .outstation config) h c) :
    c.pending = none := by
  induction r with
  | nil => rfl
  | snoc r i ih =>
    obtain ⟨hr, -, hc⟩ := kept_of_run r
    exact (reacts_handle hr ih hc i).2.2.2

end Connection

end Frame101
