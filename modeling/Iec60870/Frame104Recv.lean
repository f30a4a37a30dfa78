import Iec60870.Frame104

/-!
# The receive side of a connection

What a connection delivers and acknowledges is what it accepted. An I-frame
is accepted when it arrives in the data-transfer phase with the send number
the connection expects; every other I-frame closes the connection. Over
whole runs, the accepted I-frames are numbered `0, 1, 2, …` modulo
`2 ^ 15`, their ASDUs are what was delivered, every receive number put on
the wire is the number of I-frames accepted up to that moment, and
`unacked_recv` counts those accepted since the last one.

The moment matters, since a call may acknowledge in the middle of
processing a frame. The history is therefore refined to a log of `Event`s,
in which the acceptance of a frame stands before the actions of the call
that accepted it.

All three places that acknowledge do the same to the part of a connection
the receive side reads, its `RecvView`: they send `recv_next` and reset
`unacked_recv`. A call is one acceptance at most, followed by some number of
acknowledgements, and `exists_recvView_handle` says just that.
-/

open Cyclic Machine

namespace Frame104

/-! ## Acceptance -/

/-- Nothing is accepted outside the data-transfer phase. -/
theorem Connection.accepts_of_not_transfer {c : Connection}
    (h : c.state.isTransfer = false) (input : Input) : c.accepts input = none := by
  unfold accepts
  split
  · rw [h]
    rfl
  all_goals rfl

/-- The I-frames accepted by the calls of a history. -/
def accepted (h : List Call) : List Iframe :=
  h.filterMap (fun c => c.before.accepts c.input.1)

/-- The ASDUs delivered by the calls of a history. -/
def delivered (h : List Call) : List Bytes :=
  h.flatMap (fun c => deliveries c.actions)

@[simp] theorem accepted_append (g h : List Call) :
    accepted (g ++ h) = accepted g ++ accepted h := List.filterMap_append

@[simp] theorem accepted_singleton (c : Call) :
    accepted [c] = (c.before.accepts c.input.1).toList :=
  filterMap_singleton _ c

@[simp] theorem delivered_append (g h : List Call) :
    delivered (g ++ h) = delivered g ++ delivered h := List.flatMap_append

@[simp] theorem delivered_singleton (c : Call) : delivered [c] = deliveries c.actions := by
  simp [delivered]

/-! ## The log of a history -/

/-- **An entry of the log**: a frame is accepted, or an action is taken. -/
inductive Event where
  | accept (frame : Iframe)
  | act (action : Action)
deriving DecidableEq, Repr

/-- The log of a call: the frame it accepts, then its actions. -/
def eventsOf (c : Call) : List Event :=
  (c.before.accepts c.input.1).toList.map .accept ++ c.actions.map .act

/-- The log of a history. -/
def events (h : List Call) : List Event := h.flatMap eventsOf

/-- The frame an entry accepts, if it accepts one. -/
@[simp] def Event.frame? : Event → Option Iframe
  | .accept frame => some frame
  | .act _ => none

/-- The receive number an entry puts on the wire, if any. -/
@[simp] def Event.nr? : Event → Option SeqNo
  | .accept _ => none
  | .act action => action.apdu?.bind Apdu.nr?

/-- The number of frames a log accepts. -/
def acceptCount (L : List Event) : ℕ := (L.filterMap Event.frame?).length

/-- The number of frames accepted since the last receive number was put on
the wire, counting on from `u`. -/
def sinceAck (u : ℕ) : List Event → ℕ
  | [] => u
  | .accept _ :: L => sinceAck (u + 1) L
  | .act a :: L => sinceAck (if (Event.act a).nr?.isSome then 0 else u) L

/-- Every receive number of a log that starts after `n` acceptances is the
number of acceptances before it. -/
def AcksFrom (n : ℕ) : List Event → Prop
  | [] => True
  | .accept _ :: L => AcksFrom (n + 1) L
  | .act a :: L =>
    (∀ nr, (Event.act a).nr? = some nr → nr.value = n % 2 ^ 15) ∧ AcksFrom n L

@[simp] theorem acceptCount_append (L₁ L₂ : List Event) :
    acceptCount (L₁ ++ L₂) = acceptCount L₁ + acceptCount L₂ := by
  simp [acceptCount]

theorem sinceAck_append (u : ℕ) (L₁ L₂ : List Event) :
    sinceAck u (L₁ ++ L₂) = sinceAck (sinceAck u L₁) L₂ := by
  induction L₁ generalizing u with
  | nil => rfl
  | cons e L₁ ih => cases e <;> exact ih _

theorem acksFrom_append (n : ℕ) (L₁ L₂ : List Event) : AcksFrom n (L₁ ++ L₂)
      ↔ AcksFrom n L₁ ∧ AcksFrom (n + acceptCount L₁) L₂ := by
  induction L₁ generalizing n with
  | nil => simp [AcksFrom, acceptCount]
  | cons e L₁ ih =>
    cases e with
    | accept f =>
      have hc : acceptCount (.accept f :: L₁) = acceptCount L₁ + 1 := by
        simp [acceptCount]
      rw [List.cons_append, AcksFrom, AcksFrom, ih, hc,
        show n + 1 + acceptCount L₁ = n + (acceptCount L₁ + 1) from by omega]
    | act a =>
      have hc : acceptCount (.act a :: L₁) = acceptCount L₁ := rfl
      rw [List.cons_append, AcksFrom, AcksFrom, ih, hc, and_assoc]

/-- The actions of a call add no acceptance to the log. -/
@[simp] theorem acceptCount_act (as : List Action) : acceptCount (as.map .act) = 0 := by
  induction as with
  | nil => rfl
  | cons a as ih => exact ih

/-- A call whose receive numbers all equal the acceptances so far extends
the log correctly. -/
theorem acksFrom_act {n : ℕ} {as : List Action}
    (h : ∀ nr ∈ nrs as, nr.value = n % 2 ^ 15) : AcksFrom n (as.map .act) := by
  induction as with
  | nil => trivial
  | cons a as ih =>
    rw [nrs_cons] at h
    refine ⟨fun nr hnr => h nr (List.mem_append_left _ ?_),
      ih fun nr hnr => h nr (List.mem_append_right _ hnr)⟩
    rw [Option.mem_toList]
    exact hnr

/-- Actions reset the count if one of them carries a receive number. -/
theorem sinceAck_act (u : ℕ) (as : List Action) :
    sinceAck u (as.map .act) = if nrs as = [] then u else 0 := by
  induction as generalizing u with
  | nil => rfl
  | cons a as ih =>
    rw [List.map_cons, sinceAck, ih, nrs_cons, Event.nr?]
    cases a.apdu?.bind Apdu.nr? with
    | none => rfl
    | some nr => split <;> rfl

@[simp] theorem events_append (g h : List Call) :
    events (g ++ h) = events g ++ events h := List.flatMap_append

@[simp] theorem events_singleton (c : Call) : events [c] = eventsOf c := by
  simp [events]

@[simp] theorem acceptCount_eventsOf (c : Call) :
    acceptCount (eventsOf c) = (c.before.accepts c.input.1).toList.length := by
  rw [eventsOf, acceptCount_append, acceptCount_act]
  cases c.before.accepts c.input.1 <;> rfl

/-- The log accepts what the calls accept. -/
theorem acceptCount_events (h : List Call) : acceptCount (events h) = (accepted h).length := by
  induction h with
  | nil => rfl
  | cons c h ih =>
    rw [← List.singleton_append, events_append, acceptCount_append, ih,
      events_singleton, acceptCount_eventsOf, accepted_append,
      List.length_append, accepted_singleton]

/-! ## The view of the receive side -/

/-- **What the receive side reads of a connection.** -/
structure RecvView where
  next : SeqNo
  unacked : ℕ
  /-- The receive numbers queued by the call in progress. -/
  acks : List SeqNo
  /-- The ASDUs it has queued for delivery. -/
  delivered : List Bytes

namespace RecvView

/-- Acknowledge `n` times. -/
def ack (v : RecvView) (n : ℕ) : RecvView :=
  { v with
    unacked := if n = 0 then v.unacked else 0
    acks := v.acks ++ List.replicate n v.next }

/-- Accept a frame, if there is one. -/
def accept (v : RecvView) : Option Iframe → RecvView
  | none => v
  | some f =>
    { v with
      next := v.next.next
      unacked := min (v.unacked + 1) (2 ^ 16 - 1)
      delivered := v.delivered ++ [f.asdu] }

@[simp] theorem ack_zero (v : RecvView) : v.ack 0 = v := by
  simp [ack]

@[simp] theorem ack_ack (v : RecvView) (m n : ℕ) : (v.ack m).ack n = v.ack (m + n) := by
  cases n with
  | zero => rw [ack_zero, Nat.add_zero]
  | succ n => simp [ack, ← List.replicate_append_replicate]

end RecvView

namespace Connection

/-- The receive side of a connection. -/
def recvView (c : Connection) : RecvView :=
  ⟨c.recvNext, c.unackedRecv, nrs c.actions, deliveries c.actions⟩

section

variable (c : Connection)

@[simp] theorem recvView_transition (target : State) :
    (c.transition target).recvView = c.recvView := by
  rw [transition_eq]
  split <;> simp [recvView]

@[simp] theorem recvView_disconnect (reason : DisconnectReason) :
    (c.push (.disconnect reason)).recvView = c.recvView := by
  simp [push, recvView]

@[simp] theorem recvView_emitU (function : UFunction)
    (now : Instant) : (c.emitU function now).recvView = c.recvView := by
  simp [emitU, emitApdu, push, recvView]

@[simp] theorem recvView_reject : c.reject.recvView = c.recvView := by
  simp [reject]

@[simp] theorem recvView_timeOut : c.timeOut.recvView = c.recvView := by
  simp [timeOut]

/-- An S-frame is an acknowledgement. -/
theorem recvView_emitSupervisory (now : Instant) :
    (c.emitSupervisory now).recvView = c.recvView.ack 1 := by
  simp [emitSupervisory, recvView, RecvView.ack]

/-- So is an I-frame. -/
theorem recvView_sendIframe (asdu : Bytes) (now : Instant) :
    (c.sendIframe asdu now).recvView = c.recvView.ack 1 := by
  simp [sendIframe, recvView, RecvView.ack]

end

/-- The flush loop acknowledges once per I-frame it sends. -/
theorem exists_recvView_flushLoop (now : Instant) (q : List Bytes)
    (c : Connection) : ∃ n, (flushLoop now q c).recvView = c.recvView.ack n := by
  induction q generalizing c with
  | nil => exact ⟨0, (RecvView.ack_zero _).symm⟩
  | cons asdu rest ih =>
    rw [flushLoop]
    split
    · obtain ⟨n, hn⟩ := ih (c.sendIframe asdu now)
      exact ⟨1 + n, by rw [hn, recvView_sendIframe, RecvView.ack_ack]⟩
    · exact ⟨0, (RecvView.ack_zero _).symm⟩

/-- `flush_pending` only acknowledges. -/
theorem exists_recvView_flushPending (c : Connection) (now : Instant) :
    ∃ n, (c.flushPending now).recvView = c.recvView.ack n :=
  exists_recvView_flushLoop now c.pending c

/-- `acknowledge` only acknowledges. -/
theorem exists_recvView_acknowledge (c : Connection) (nr : SeqNo) (now : Instant) :
    ∃ n, (c.acknowledge nr now).recvView = c.recvView.ack n :=
  exists_recvView_flushPending _ now

/-! ## Every call is one acceptance at most, then acknowledgements -/

/-- An accepted I-frame is counted, delivered and perhaps acknowledged. -/
theorem exists_recvView_accepted (c : Connection) (send recv : SeqNo)
    (asdu : Bytes) (now : Instant) :
    ∃ n, ((((c.counted now).acknowledge recv now).push (.deliverAsdu asdu)).ackIfDue now).recvView
      = (c.recvView.accept (some ⟨send, recv, asdu⟩)).ack n := by
  obtain ⟨n, hn⟩ := exists_recvView_acknowledge (c.counted now) recv now
  -- delivering adds the ASDU to what the acknowledgement left
  have hd : ∀ d : Connection, (d.push (.deliverAsdu asdu)).recvView = { d.recvView with
          delivered := d.recvView.delivered ++ [asdu] } := by
    intro d
    simp [push, recvView]
  unfold ackIfDue
  split
  · refine ⟨n + 1, ?_⟩
    rw [recvView_emitSupervisory, hd, hn, ← RecvView.ack_ack]
    rfl
  · refine ⟨n, ?_⟩
    rw [hd, hn]
    rfl

/-- Processing an input accepts what it accepts, then acknowledges. -/
theorem exists_recvView_onInput (c : Connection) (input : Input) (now : Instant) :
    ∃ n, (c.onInput input now).recvView = (c.recvView.accept (c.accepts input)).ack n := by
  have h := course_onInput c input now
  generalize c.onInput input now = d at h ⊢
  cases h with
  | accept send recv asdu h =>
    rw [h]
    exact exists_recvView_accepted { c with lastRecvAny := some now } send recv
      asdu now
  | refuseI send recv asdu h => exact ⟨0, by simp [h]; rfl⟩
  | ack nr h =>
    exact exists_recvView_acknowledge { c with lastRecvAny := some now } nr now
  | startDtCon hr hs =>
    obtain ⟨n, hn⟩ := exists_recvView_flushPending
      ({ c with lastRecvAny := some now }.transition .active) now
    exact ⟨n, by rw [hn, recvView_transition]; rfl⟩
  | startDtAct hr hs =>
    obtain ⟨n, hn⟩ := exists_recvView_flushPending
      (({ c with lastRecvAny := some now }.emitU .startDtCon now).transition
        .active) now
    exact ⟨n, by rw [hn, recvView_transition, recvView_emitU]; rfl⟩
  | send asdu hs hk => exact ⟨1, recvView_sendIframe c asdu now⟩
  | _ => exact ⟨0, by simp [accepts]; rfl⟩

/-- The timers only acknowledge. -/
theorem exists_recvView_runTimers (c : Connection) (now : Instant) :
    ∃ n, (c.runTimers now).recvView = c.recvView.ack n := by
  refine runTimers_rel c now (R := fun d e => ∃ n, e.recvView = d.recvView.ack n)
    (fun d => ⟨0, (RecvView.ack_zero _).symm⟩) ?_ (fun d => ⟨0, by simp⟩)
    (fun d => ⟨1, recvView_emitSupervisory d now⟩)
    (fun d => ⟨0, by rw [RecvView.ack_zero]; exact recvView_emitU d _ now⟩)
    (fun d => ⟨0, by simp⟩)
  rintro d e f ⟨n, hn⟩ ⟨m, hm⟩
  exact ⟨n + m, by rw [hm, hn, RecvView.ack_ack]⟩

variable {c : Connection}

/-- **A call on the receive side**: one acceptance at most, then
acknowledgements, all with the receive number after it. -/
theorem exists_recvView_handle (hc : c.actions = []) (input : Input) (now : Instant) :
    ∃ n, (c.handle input now).1.recvNext = (c.recvView.accept (c.accepts input)).next
        ∧ (c.handle input now).1.unackedRecv
          = (if n = 0 then (c.recvView.accept (c.accepts input)).unacked
              else 0)
        ∧ nrs (c.handle input now).2 = List.replicate n (c.recvView.accept (c.accepts input)).next
        ∧ deliveries (c.handle input now).2 = (c.accepts input).toList.map Iframe.asdu := by
  obtain ⟨m, hm⟩ := exists_recvView_onInput c input now
  obtain ⟨n, hn⟩ := exists_recvView_runTimers (c.onInput input now) now
  rw [hm, RecvView.ack_ack] at hn
  have hacks : (c.recvView.accept (c.accepts input)).acks = [] := by
    cases c.accepts input <;> simp [RecvView.accept, recvView, hc]
  have hdel : (c.recvView.accept (c.accepts input)).delivered
      = (c.accepts input).toList.map Iframe.asdu := by
    cases c.accepts input <;> simp [RecvView.accept, recvView, hc]
  refine ⟨m + n, congrArg RecvView.next hn, congrArg RecvView.unacked hn, ?_, ?_⟩
  · refine (congrArg RecvView.acks hn).trans ?_
    rw [RecvView.ack, hacks, List.nil_append]
  · exact (congrArg RecvView.delivered hn).trans hdel

/-! ## The bound on unacknowledged frames -/

/-- Fewer frames are unacknowledged than call for an acknowledgement. -/
def Timely (c : Connection) : Prop :=
  c.unackedRecv < max c.config.w.toNat 1

/-- Acknowledging, or leaving the counter alone, keeps a connection
timely. -/
theorem Timely.of_ack {c d : Connection} (h : c.Timely) (hcfg : d.config = c.config)
    (hv : ∃ n, d.recvView = c.recvView.ack n) : d.Timely := by
  obtain ⟨n, hn⟩ := hv
  unfold Timely at h ⊢
  have hu : d.unackedRecv = if n = 0 then c.unackedRecv else 0 :=
    congrArg RecvView.unacked hn
  rw [hu, hcfg]
  split
  · exact h
  · exact lt_max_of_lt_right Nat.one_pos

/-- Processing an input keeps a connection timely: an accepted I-frame that
makes `w` is acknowledged at once. -/
theorem timely_onInput (h : c.Timely) (input : Input)
    (now : Instant) : (c.onInput input now).Timely := by
  have hv := exists_recvView_onInput c input now
  have hc := course_onInput c input now
  have hcfg : (c.onInput input now).config = c.config :=
    congrArg Prod.snd (ident_onInput c input now)
  generalize c.onInput input now = d at hc hv hcfg ⊢
  cases hc with
  | accept send recv asdu hacc =>
    unfold ackIfDue
    split
    · exact lt_max_of_lt_right Nat.one_pos
    · rename_i hw
      exact lt_max_of_lt_left (not_le.mp hw)
  | refuseI send recv asdu hacc => exact h.of_ack hcfg (by rwa [hacc] at hv)
  | _ => exact h.of_ack hcfg hv

/-- Every call keeps a connection timely. -/
theorem timely_handle (h : c.Timely) (input : Input)
    (now : Instant) : (c.handle input now).1.Timely := by
  have hout : ((c.onInput input now).runTimers now).Timely :=
    (timely_onInput h input now).of_ack (congrArg Prod.snd (ident_runTimers _ now))
      (exists_recvView_runTimers _ now)
  exact hout

end Connection

/-! ## The receive side over runs -/

/-- **The receive-side invariant** of a connection with a history. -/
structure RecvInv (h : List Call) (c : Connection) : Prop where
  /-- The expected send number counts the accepted frames. -/
  counted : c.recvNext.value = (accepted h).length % 2 ^ 15
  /-- The accepted frames carry consecutive send numbers from zero. -/
  numbered : Window (2 ^ 15) 0 ((accepted h).map (fun f => f.send.value))
  /-- Their ASDUs are what was delivered. -/
  delivered : delivered h = (accepted h).map Iframe.asdu
  /-- Every receive number counts the frames accepted before it. -/
  acks : AcksFrom 0 (events h)
  /-- The counter counts the frames accepted since the last one. -/
  since : sinceAck 0 (events h) = c.unackedRecv
  /-- There are fewer of them than call for an acknowledgement. -/
  timely : c.Timely

namespace Connection

variable {c : Connection} {input : Input} {f : Iframe} {role : Role} {config : Config}
  {h : List Call}

/-- What is accepted is an I-frame. -/
theorem eq_of_accepts (h : c.accepts input = some f) : input = .apdu (.i f.send f.recv f.asdu) := by
  have hi : ∃ send recv asdu, input = .apdu (.i send recv asdu) := by
    unfold accepts at h
    split at h
    · exact ⟨_, _, _, rfl⟩
    all_goals exact absurd h (by simp)
  obtain ⟨send, recv, asdu, rfl⟩ := hi
  obtain ⟨-, -, rfl⟩ := accepts_iframe h
  rfl

/-- An accepted frame carries the expected send number. -/
theorem send_of_accepts (h : c.accepts input = some f) : f.send = c.recvNext := by
  rw [eq_of_accepts h] at h
  exact (accepts_iframe h).2.1

/-- A timely connection counts without saturating. -/
theorem unacked_accept (h : c.Timely) (f : Option Iframe) :
    (c.recvView.accept f).unacked = c.unackedRecv + f.toList.length := by
  cases f with
  | none => rfl
  | some f =>
    have hw : c.config.w.toNat < 2 ^ 16 := c.config.w.toNat_lt
    unfold Timely at h
    show min (c.unackedRecv + 1) (2 ^ 16 - 1) = c.unackedRecv + 1
    omega

/-- Accepting a frame advances the expected send number. -/
theorem next_accept (c : Connection) (f : Option Iframe) : (c.recvView.accept f).next.value
      = (c.recvNext.value + f.toList.length) % 2 ^ 15 := by
  cases f with
  | none => exact (Nat.mod_eq_of_lt c.recvNext.value_lt).symm
  | some f => exact SeqNo.value_next c.recvNext

/-- One call extends the log by its acceptance and its actions. -/
theorem sinceAck_eventsOf (u : ℕ) (c : Call) : sinceAck u (eventsOf c) = if nrs c.actions = []
          then u + (c.before.accepts c.input.1).toList.length else 0 := by
  rw [eventsOf, sinceAck_append, sinceAck_act]
  cases c.before.accepts c.input.1 <;> rfl

/-- **The receive side over every run.** -/
theorem recvInv_of_run (r : Run step (new role config) h c) : RecvInv h c := by
  induction r with
  | nil =>
    exact ⟨rfl, trivial, rfl, trivial, rfl, lt_max_of_lt_right Nat.one_pos⟩
  | @snoc g d r i ih =>
    obtain ⟨-, -, hact⟩ := ident_of_run r
    obtain ⟨n, hnext, hun, hnrs, hdel⟩ := exists_recvView_handle hact i.1 i.2
    have hcount : (d.recvView.accept (d.accepts i.1)).next.value
        = ((accepted g).length + (d.accepts i.1).toList.length) % 2 ^ 15 := by
      rw [next_accept, ih.counted, Nat.mod_add_mod]
    refine ⟨?_, ?_, ?_, ?_, ?_, timely_handle ih.timely i.1 i.2⟩
    · rw [accepted_append, accepted_singleton, List.length_append]
      exact (congrArg SeqNo.value hnext).trans hcount
    · rw [accepted_append, accepted_singleton, List.map_append,
        window_append, List.length_map, Nat.zero_add]
      refine ⟨ih.numbered, ?_⟩
      show Window _ _ ((d.accepts i.1).toList.map _)
      cases hf : d.accepts i.1 with
      | none => trivial
      | some f =>
        refine ⟨?_, trivial⟩
        show f.send.value = _
        rw [send_of_accepts hf]
        exact ih.counted
    · rw [delivered_append, delivered_singleton, accepted_append,
        accepted_singleton, List.map_append, ih.delivered]
      exact congrArg _ hdel
    · rw [events_append, events_singleton, acksFrom_append, Nat.zero_add,
        acceptCount_events, eventsOf, acksFrom_append]
      refine ⟨ih.acks, ?_, ?_⟩
      · cases (call step d i).before.accepts (call step d i).input.1 <;> trivial
      · refine acksFrom_act fun nr hnr => ?_
        have hmem : nr = (d.recvView.accept (d.accepts i.1)).next := by
          rw [call_actions] at hnr
          change nr ∈ nrs (d.handle i.1 i.2).2 at hnr
          rw [hnrs] at hnr
          exact List.eq_of_mem_replicate hnr
        rw [hmem, hcount]
        show _ = (_ + acceptCount ((d.accepts i.1).toList.map .accept)) % _
        cases d.accepts i.1 <;> rfl
    · rw [events_append, events_singleton, sinceAck_append, ih.since, sinceAck_eventsOf]
      refine Eq.trans ?_ hun.symm
      rw [unacked_accept ih.timely]
      show (if nrs (d.handle i.1 i.2).2 = [] then _ else 0) = _
      rw [hnrs]
      simp only [List.replicate_eq_nil_iff, call_before, call_input]

/-- **A call of a run on the receive side**: it puts the receive number it
ends with on the wire `n` times. -/
theorem exists_nrs_of_run (r : Run step (new role config) h c) (i : Input × Instant) :
    ∃ n, nrs (c.step i).2 = List.replicate n (c.step i).1.recvNext ∧ (c.step i).1.unackedRecv
        = if n = 0 then c.unackedRecv + (c.accepts i.1).toList.length
          else 0 := by
  obtain ⟨-, -, hact⟩ := ident_of_run r
  obtain ⟨n, hnext, hun, hnrs, -⟩ := exists_recvView_handle hact i.1 i.2
  refine ⟨n, ?_, ?_⟩
  · show nrs (c.handle i.1 i.2).2 = List.replicate n (c.handle i.1 i.2).1.recvNext
    rw [hnrs, hnext]
  · rw [← unacked_accept (recvInv_of_run r).timely]
    exact hun

end Connection

/-- **The receive side of a connection**: for every role, every configuration
and every sequence of calls, the `n`-th accepted I-frame carried `N(S) = n`
modulo `2 ^ 15`; the ASDUs delivered are those of the accepted I-frames and
no other; every receive number put on the wire, in an S-frame or an I-frame,
is the number of I-frames accepted before it, the one in progress included,
modulo `2 ^ 15`; and `unacked_recv` is the number of I-frames accepted since
the last of them, below `max w 1`. -/
theorem recv_side (role : Role) (config : Config) (is : List (Input × Instant)) :
    let h := (exec Connection.step (Connection.new role config) is).1
    let c := (exec Connection.step (Connection.new role config) is).2
    (∀ (n : ℕ) (f : Iframe), (accepted h)[n]? = some f →
        f.send.value = n % 2 ^ 15)
      ∧ delivered h = (accepted h).map Iframe.asdu
      ∧ (∀ (L R : List Event) (a : Action) (nr : SeqNo),
          events h = L ++ .act a :: R → a.apdu?.bind Apdu.nr? = some nr →
          nr.value = acceptCount L % 2 ^ 15)
      ∧ sinceAck 0 (events h) = c.unackedRecv
      ∧ c.unackedRecv < max config.w.toNat 1 := by
  intro h c
  have r : Run Connection.step (Connection.new role config) h c :=
    run_exec _ _ is
  have hinv := Connection.recvInv_of_run r
  obtain ⟨-, hcfg, -⟩ := Connection.ident_of_run r
  refine ⟨?_, hinv.delivered, ?_, hinv.since, by rw [← hcfg]; exact hinv.timely⟩
  · intro n f hn
    have hn' : ((accepted h).map (fun f => f.send.value))[n]?
        = some f.send.value := by
      rw [List.getElem?_map, hn]
      rfl
    rw [hinv.numbered.getElem? hn', Nat.zero_add]
  · intro L R a nr hL hnr
    have hacks := hinv.acks
    rw [hL, acksFrom_append, Nat.zero_add] at hacks
    exact hacks.2.1 nr hnr

end Frame104
