import Iec60870.Frame101Pair

/-!
# Polling

An outstation sends nothing unasked. It keeps the ASDUs it is given in its
queue, and when the master requests user data it takes the oldest one off
the queue and answers with it. The answer is neither numbered nor kept for
repetition: a request carries no valid frame count bit, and the outstation
does not look at it. If the answer is lost, the master repeats its request,
the outstation answers with the *next* ASDU, and the first one is gone.

Everything else keeps the order. What the master has delivered, followed by
what the answers in flight carry and what is queued, is what the outstation
was given (`Polled`): a request that is lost or repeated takes nothing away
that does not travel, and the master delivers whatever arrives. So as long
as no answer with an ASDU is lost, the master delivers a prefix of what was
queued (`polling_in_order`).
-/

namespace Frame101

open Machine Net

variable {α : Type}

/-- The ASDU of an answer of the outstation. -/
def Frame.response? : Frame α → Option α
  | .variableLength control _ asdu =>
    match ControlField.decode control .secondary with
    | some (.secondary _ _ .respondUserData) => some asdu
    | _ => none
  | _ => none

/-- The answers are the replies with an ASDU. -/
theorem Frame.response?_eq (frame : Frame α) : frame.response? = frame.reply.asdu? := by
  cases frame with
  | single char => cases char <;> rfl
  | fixedLength control address =>
    unfold Frame.reply
    dsimp only
    cases ControlField.decode control .secondary with
    | none => rfl
    | some cf =>
      cases cf with
      | primary fcb fcv func => rfl
      | secondary acd dfc func => cases func <;> rfl
  | variableLength control address asdu =>
    unfold Frame.reply Frame.response?
    dsimp only
    -- Both sides look at the decoded control field.
    generalize ControlField.decode control .secondary = cf
    cases cf with
    | none => rfl
    | some cf =>
      cases cf with
      | primary fcb fcv func => rfl
      | secondary acd dfc func => cases func <;> rfl

/-- The ASDUs that answers carry, in order. -/
def responses (frames : List (Frame α)) : List α :=
  frames.filterMap Frame.response?

namespace Connection

variable {c : Connection α} {now : Instant}

/-! ## The master delivers what arrives -/

/-- The ASDUs delivered in the course of a call. -/
def asdus (c : Connection α) : List α := c.actions.filterMap Action.asdu?

theorem asdus_emit (a : Action α) : (c.emit a).asdus = c.asdus ++ a.asdu?.toList := by
  rw [asdus, emit, List.filterMap_append, filterMap_singleton]
  rfl

theorem asdus_emit_of_none {a : Action α} (ha : a.asdu? = none) : (c.emit a).asdus = c.asdus := by
  rw [asdus_emit, ha]
  exact List.append_nil _

theorem asdus_transitionLink (newState : LinkState) : (c.transitionLink newState).asdus = c.asdus :=
  congrArg Reaction.asdus (reaction_transitionLink newState)

theorem asdus_makeReady : c.makeReady.asdus = c.asdus := by
  unfold makeReady
  split
  · exact asdus_transitionLink _
  · rfl

theorem asdus_maybeFlushQueue : (c.maybeFlushQueue now).asdus = c.asdus := by
  unfold maybeFlushQueue
  split
  · rfl
  · split
    · rfl
    · exact asdus_emit_of_none rfl

/-- **The master delivers the ASDU of an answer, and nothing else.** -/
theorem asdus_masterOnFrame (frame : Frame α) : (c.masterOnFrame frame now).asdus
      = c.asdus ++ frame.response?.toList := by
  have hnone : c.asdus ++ (none : Option α).toList = c.asdus :=
    List.append_nil _
  rw [masterOnFrame_eq, Frame.response?_eq]
  cases frame.reply with
  | data asdu => exact asdus_emit _
  | char =>
    refine Eq.trans ?_ hnone.symm
    rw [onReply]
    split
    · exact asdus_maybeFlushQueue
    · rfl
  | ack =>
    refine Eq.trans ?_ hnone.symm
    rw [onReply]
    split
    · exact asdus_maybeFlushQueue.trans asdus_makeReady
    · rfl
  | status => exact asdus_makeReady.trans hnone.symm
  | noData => exact hnone.symm
  | nack | invalid => exact (asdus_emit_of_none rfl).trans hnone.symm

theorem asdus_request (func : FuncCodePrimary) : (request func c now).asdus = c.asdus := by
  unfold request
  split
  · rfl
  · split
    · rfl
    · exact asdus_emit_of_none rfl

theorem asdus_onResetRemoteLink : (c.onResetRemoteLink now).asdus = c.asdus := by
  unfold onResetRemoteLink
  split
  · rfl
  · exact asdus_emit_of_none rfl

theorem asdus_runTimers : (c.runTimers now).asdus = c.asdus := by
  obtain ⟨-, he⟩ | ⟨p, -, -, ⟨-, he⟩ | ⟨-, he⟩⟩ := runTimers_cases c now
  · rw [he]
  · rw [he]
    exact asdus_emit_of_none rfl
  · rw [he]
    exact (asdus_emit_of_none rfl).trans (asdus_transitionLink _)

/-- **What a call of the master delivers.** -/
theorem delivers_handle (hr : c.role = .master) (hc : c.actions = [])
    (i : Input α × Instant) : (c.handle i).2.filterMap Action.asdu?
      = (i.1.frame?.bind Frame.response?).toList := by
  have hnil : c.asdus = [] := by rw [asdus, hc]; rfl
  refine Eq.trans (asdus_runTimers (c := c.onInput i.1 i.2)) ?_
  cases i.1 with
  | frameReceived frame =>
    rw [onInput, onFrame, hr]
    exact (asdus_masterOnFrame frame).trans (by rw [hnil]; rfl)
  | tick => exact hnil
  | sendUserData asdu =>
    rw [onInput, onSendUserData, hr]
    exact asdus_maybeFlushQueue.trans hnil
  | requestStatus | requestUserDataClass1 | requestUserDataClass2 =>
    exact (asdus_request _).trans hnil
  | resetRemoteLink => exact asdus_onResetRemoteLink.trans hnil

/-! ## The outstation answers from its queue -/

/-- What has been answered in the course of a call, and what is left to
answer with. -/
def outgoing (c : Connection α) : List α :=
  responses (c.actions.filterMap Action.frame?) ++ c.sendQueue

theorem outgoing_emit {a : Action α} (ha : a.frame?.bind Frame.response? = none) :
    (c.emit a).outgoing = c.outgoing := by
  unfold outgoing emit responses
  rw [List.filterMap_append, filterMap_singleton, List.filterMap_append]
  cases hf : a.frame? with
  | none =>
    exact congrArg (· ++ c.sendQueue) (List.append_nil _)
  | some frame =>
    rw [hf, Option.bind_some] at ha
    rw [Option.toList_some, filterMap_singleton, ha]
    exact congrArg (· ++ c.sendQueue) (List.append_nil _)

theorem outgoing_transitionLink (newState : LinkState) :
    (c.transitionLink newState).outgoing = c.outgoing := by
  unfold transitionLink
  split
  · exact outgoing_emit rfl
  · rfl

/-- An answer without an ASDU takes nothing from the queue. -/
theorem outgoing_answer (func : FuncCodeSecondary) :
    (answer func c).outgoing = c.outgoing := outgoing_emit rfl

/-- **A poll moves the oldest ASDU from the queue to the line.** -/
theorem outgoing_poll : (match c.sendQueue with
      | asdu :: rest => { c with sendQueue := rest }.sendRespondUserData asdu
      | [] => c.sendNackNoData).outgoing = c.outgoing := by
  split
  · rename_i asdu rest hq
    unfold outgoing
    rw [hq]
    simp [responses, sendRespondUserData, emit, Action.frame?, Frame.response?]
  · exact outgoing_answer _

theorem outgoing_outstationOnPrimaryFixed (cf : ControlField) :
    (c.outstationOnPrimaryFixed cf).outgoing = c.outgoing := by
  cases cf with
  | secondary acd dfc func => rfl
  | primary fcb fcv func =>
    cases func with
    | resetRemoteLink =>
      exact (outgoing_transitionLink _).trans
        (outgoing_answer (c := { c with lastFcbSeen := none }) _)
    | requestStatus => exact outgoing_answer _
    | requestUserDataClass1 | requestUserDataClass2 => exact outgoing_poll
    | _ => rfl

theorem outgoing_outstationOnPrimaryVariable (cf : ControlField) (asdu : α) :
    (c.outstationOnPrimaryVariable cf asdu).outgoing = c.outgoing := by
  unfold outstationOnPrimaryVariable
  split
  · rename_i fcb fcv
    have hlast : (if fcv then { c with lastFcbSeen := some fcb } else c).outgoing
        = c.outgoing := by
      cases fcv <;> rfl
    generalize (if fcv then { c with lastFcbSeen := some fcb } else c) = d
      at hlast ⊢
    have hack : d.sendAck.outgoing = c.outgoing := (outgoing_answer _).trans hlast
    rw [apply_ite outgoing, hack, outgoing_emit rfl, hack, ite_self]
  · exact outgoing_emit rfl
  · rfl

theorem outgoing_outstationOnFrame (frame : Frame α) :
    (c.outstationOnFrame frame).outgoing = c.outgoing := by
  unfold outstationOnFrame
  split
  · split
    · rfl
    · split
      · exact outgoing_outstationOnPrimaryFixed _
      · rfl
  · split
    · rfl
    · split
      · exact outgoing_outstationOnPrimaryVariable _ _
      · rfl
  · rfl

/-- **What a call of the outstation answers, followed by what it keeps, is
what it had, followed by what it was given.** -/
theorem answers_handle (hr : c.role = .outstation) (hp : c.pending = none)
    (hc : c.actions = []) (i : Input α × Instant) :
    responses ((c.handle i).2.filterMap Action.frame?) ++ (c.handle i).1.sendQueue
      = c.sendQueue ++ i.1.asdu?.toList := by
  obtain ⟨hbase, -⟩ := onInput_reacts hr hc i.1 i.2
  have hpend : (c.onInput i.1 i.2).pending = none :=
    (congrArg (fun b : _ × _ × _ => b.2.2) hbase).trans hp
  have htimers : (c.onInput i.1 i.2).runTimers i.2 = c.onInput i.1 i.2 := by
    rw [runTimers, hpend]
  have hout : c.outgoing = c.sendQueue := by
    rw [outgoing, hc]
    rfl
  unfold handle
  rw [htimers]
  show (c.onInput i.1 i.2).outgoing = _
  cases hf : i.1.frame? with
  | none =>
    rw [onInput_outstation hr hf, outgoing, hc]
    rfl
  | some frame =>
    cases hi : i.1 with
    | frameReceived frame =>
      rw [onInput, onFrame, hr]
      exact (outgoing_outstationOnFrame frame).trans (hout.trans (List.append_nil _).symm)
    | _ => rw [hi] at hf; exact absurd hf (by simp [Input.frame?])

end Connection

/-! ## The line -/

/-- **A step that loses an answer**: a frame with an ASDU disappears on its
way to the master. -/
inductive LosesResponse (s : Line α) : Line α → Prop
  | intro (l : List (Frame α)) (m : Frame α) (r : List (Frame α)) (asdu : α)
      (hin : s.inbox .left = l ++ m :: r) (hm : m.response? = some asdu) :
      LosesResponse s (s.shrink .left (l ++ r))

/-- **What the outstation was given is where it should be**: delivered by the
master, on the line, or queued, in this order. -/
def Polled (s : Line α) : Prop :=
  delivered (s.past .left) ++ (responses (s.inbox .left) ++ (s.node .right).sendQueue)
    = submitted (s.past .right)

section Polled

variable {P : Side → List (Call α) → Input α × Instant → Prop}
  {config : Side → Config} {s t : Line α}

/-- A call of the master, on a frame that has left the line or on an input
that is none. -/
theorem Polled.master {i : Input α × Instant}
    (hr : (s.node .left).role = .master) (hc : (s.node .left).actions = [])
    (h : delivered (s.past .left) ++ ((i.1.frame?.bind Frame.response?).toList
          ++ (responses (s.inbox .left) ++ (s.node .right).sendQueue))
      = submitted (s.past .right)) : Polled ((link P).perform s .left i) := by
  have hdel : delivered (((link P).perform s .left i).past .left) = delivered (s.past .left)
        ++ (i.1.frame?.bind Frame.response?).toList := by
    rw [perform_past_self, ← Connection.delivers_handle hr hc i]
    exact delivered_snoc _ _ i
  unfold Polled
  rw [hdel, perform_inbox_self, List.append_assoc]
  exact h

/-- A call of the outstation. -/
theorem Polled.outstation (h : Polled s) (hr : (s.node .right).role = .outstation)
    (hc : (s.node .right).actions = []) (hp : (s.node .right).pending = none)
    (i : Input α × Instant) : Polled ((link P).perform s .right i) := by
  have hsub : submitted (((link P).perform s .right i).past .right)
      = submitted (s.past .right) ++ i.1.asdu?.toList := by
    rw [perform_past_self]
    exact submitted_snoc _ _ i
  have hin : ((link P).perform s .right i).inbox .left = s.inbox .left
        ++ ((s.node .right).handle i).2.filterMap Action.frame? :=
    perform_inbox_other (link P) s .right i
  have hans := Connection.answers_handle hr hp hc i
  unfold Polled at h ⊢
  rw [hsub, ← h, hin, perform_node_self, responses, List.filterMap_append,
    List.append_assoc, List.append_assoc, List.append_assoc]
  exact congrArg (fun l => _ ++ (_ ++ l)) hans

/-- **Every step but the loss of an answer keeps the order.** -/
theorem Polled.step (hs : (link P).Reachable (lineInit config) s) (h : Polled s)
    (st : (link P).Step s t) (hl : ¬ LosesResponse s t) : Polled t := by
  obtain ⟨hrl, -, hcl⟩ := master_of_reachable hs
  obtain ⟨hrr, -, hcr, hpr⟩ := outstation_of_reachable hs
  cases st with
  | offer x i live ho =>
    cases x with
    | left =>
      refine Polled.master hrl hcl ?_
      rw [ho.1]
      exact h
    | right => exact h.outstation hrr hcr hpr i
  | take x m rest i live hin hrec =>
    cases x with
    | left =>
      have hi : i.1 = .frameReceived m := hrec
      refine Polled.master (s := s.pop .left m rest) hrl hcl ?_
      unfold Polled at h
      rw [hin, responses, filterMap_cons_toList, List.append_assoc] at h
      rw [pop_inbox_self, hi]
      exact h
    | right =>
      exact Polled.outstation (s := s.pop .right m rest) h hrr hcr hpr i
  | ignore x m rest live hin hi => exact absurd hi id
  | lose x l m r hlossy hin =>
    cases x with
    | left =>
      have hm : m.response? = none := by
        by_contra hm
        obtain ⟨asdu, hm⟩ := Option.ne_none_iff_exists'.mp hm
        exact hl (.intro l m r asdu hin hm)
      unfold Polled at h ⊢
      rw [shrink_inbox_self]
      rw [hin, responses, List.filterMap_append, List.filterMap_cons_none hm,
        ← List.filterMap_append] at h
      exact h
    | right => exact h

end Polled

/-- **Polling loses nothing as long as no answer is lost.** In every run of a
master and an outstation over a lossy line – with requests and other answers
lost, delays and retransmissions – that loses no answer with an ASDU, what
the master has delivered is a prefix of what the outstation was given. -/
theorem polling_in_order {config : Side → Config} {s : Line α}
    (hs : (freeLine α).ReachableBy (fun u v => ¬ LosesResponse u v)
      (lineInit config) s) :
    delivered (s.past .left) <+: submitted (s.past .right) := by
  have hinit : Polled (lineInit config : Line α) := rfl
  have h : Polled s := Net.ReachableBy.invariant hinit
    (fun u v hu h st hl => Polled.step hu h st hl) hs
  exact ⟨_, h⟩

/-- A call is not a loss. -/
theorem not_losesResponse_perform {u w : Line α} (hw : w.past = u.past)
    (x : Side) (i : Input α × Instant) :
    ¬ LosesResponse u ((freeLine α).perform w x i) := by
  intro hl
  generalize hv : (freeLine α).perform w x i = v at hl
  obtain ⟨l, m, r, asdu, hin, hm⟩ := hl
  have hpast : w.past x ++ [call Connection.handle (w.node x) i] = u.past x := by
    rw [← shrink_past u .left (l ++ r), ← hv, perform_past_self]
    rfl
  rw [hw] at hpast
  exact absurd (congrArg List.length hpast) (by simp)

/-- A move that loses nothing on the way to the master loses no answer. -/
theorem not_losesResponse_of_move [DecidableEq α]
    {m : Net.Move (Input α × Instant)} (hm : ∀ n, m ≠ .lose .left n)
    {u v : Line α} (h : (freeLine α).move u m = some v) : ¬ LosesResponse u v := by
  cases m with
  | offer x i =>
    rw [Net.move] at h
    split at h
    · rw [← Option.some.inj h]
      exact not_losesResponse_perform rfl x i
    · cases h
  | take x i =>
    rw [Net.move] at h
    split at h
    · cases h
    · rename_i m rest hin
      split at h
      · rw [← Option.some.inj h]
        exact not_losesResponse_perform (pop_past u x m rest) x i
      · cases h
  | lose x n =>
    cases x with
    | left => exact absurd rfl (hm n)
    | right =>
      rw [Net.move] at h
      split at h
      · rw [← Option.some.inj h]
        intro hl
        generalize hv : u.shrink .right _ = v at hl
        obtain ⟨l, m, r, asdu, hin, hm⟩ := hl
        have hbox : u.inbox .left = l ++ r := by
          have h := congrArg (fun w : Line α => w.inbox .left) hv
          rw [shrink_inbox_self] at h
          exact h
        rw [hin] at hbox
        exact absurd (congrArg List.length hbox) (by simp)
      · cases h

/-- Two ASDUs are queued; the first request is lost and repeated. -/
def lostRequest : List (Net.Move (Input Bytes × Instant)) :=
  let request : Frame Bytes := .fixedLength 0x4A ⟨1⟩
  let response asdu : Frame Bytes := .variableLength 0x08 ⟨1⟩ asdu
  [.offer .right (.sendUserData [1], 0), .offer .right (.sendUserData [2], 0),
   .offer .left (.requestUserDataClass1, 0),
   .lose .right 0,
   .offer .left (.tick, 1),
   .take .right (.frameReceived request, 1),
   .take .left (.frameReceived (response [1]), 1)]

/-- The repeated request is answered with the first ASDU. -/
theorem polling_in_order_lostRequest :
    ∃ s : Line Bytes, delivered (s.past .left) = [[1]]
      ∧ submitted (s.past .right) = [[1], [2]]
      ∧ delivered (s.past .left) <+: submitted (s.past .right) := by
  have hmoves : ∀ m ∈ lostRequest, ∀ n, m ≠ .lose .left n := by
    intro m hm n
    simp only [lostRequest, List.mem_cons, List.not_mem_nil, or_false] at hm
    rintro rfl
    simp at hm
  obtain ⟨s, hs, hdel, hsub⟩ := Net.exists_reachableBy_of_play
    (N := freeLine Bytes) (s := lineInit stationOne) lostRequest
    (fun m hm u v => not_losesResponse_of_move (hmoves m hm))
    (P := fun s => delivered (s.past .left) = [[1]]
      ∧ submitted (s.past .right) = [[1], [2]]) (by decide +kernel)
  exact ⟨s, hdel, hsub, polling_in_order hs⟩

/-- The answer to the first request is lost; the request is repeated. -/
def lostResponse : List (Net.Move (Input Bytes × Instant)) :=
  let request : Frame Bytes := .fixedLength 0x4A ⟨1⟩
  let response asdu : Frame Bytes := .variableLength 0x08 ⟨1⟩ asdu
  [.offer .right (.sendUserData [1], 0), .offer .right (.sendUserData [2], 0),
   .offer .left (.requestUserDataClass1, 0),
   .take .right (.frameReceived request, 0),
   .lose .left 0,
   .offer .left (.tick, 1),
   .take .right (.frameReceived request, 1),
   .take .left (.frameReceived (response [2]), 1)]

/-- The first ASDU is lost: the master delivers the second one only. -/
theorem polling_lostResponse : ¬ ∀ (config : Side → Config) (s : Line Bytes),
      (freeLine Bytes).Reachable (lineInit config) s →
      delivered (s.past .left) <+: submitted (s.past .right) := by
  intro h
  obtain ⟨s, hs, hdel, hsub⟩ := Net.exists_reachable_of_play
    (N := freeLine Bytes) (s := lineInit stationOne) lostResponse
    (P := fun s => delivered (s.past .left) = [[2]]
      ∧ submitted (s.past .right) = [[1], [2]]) (by decide +kernel)
  have hp := h stationOne s hs
  rw [hdel, hsub] at hp
  exact absurd hp (by decide)

end Frame101
