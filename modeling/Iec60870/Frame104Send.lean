import Iec60870.Frame104

/-!
# The send side of a connection

What a connection sends is what its user submitted. The statement is about
whole runs: the ASDUs of the I-frames emitted so far, followed by the queue
`pending`, are the ASDUs submitted so far, in order; the I-frames are
numbered `0, 1, 2, …` modulo `2 ^ 15`; and `sent` is the window of the last
of them, never wider than `k`.

`SendInv E S v` is the invariant behind it, over the part of a connection
the send side reads – its `SendView` – with `E` the I-frames emitted and `S`
the ASDUs submitted by earlier calls. Every method keeps it
(`sendInv_onInput`, `sendView_runTimers`); most leave the view alone, and
the two that do not, `flush_pending` and `acknowledge`, are the only loops
of the state machine. That a direct `SendAsdu` cannot overtake a queued one
is the last ingredient, `Flushed`: while the connection is active, a window
with room means an empty queue.
-/

open Cyclic Machine

namespace Frame104

/-- The ASDU an input submits, if it submits one. -/
@[simp] def Input.submission? : Input → Option Bytes
  | .sendAsdu asdu => some asdu
  | .apdu _ => none
  | .startDt => none
  | .stopDt => none
  | .tick => none

/-- The ASDUs submitted by the calls of a history. -/
def submitted (h : List Call) : List Bytes :=
  h.filterMap (fun c => c.input.1.submission?)

/-- The I-frames emitted by the calls of a history. -/
def emitted (h : List Call) : List Iframe :=
  h.flatMap (fun c => iframes c.actions)

@[simp] theorem submitted_append (g h : List Call) :
    submitted (g ++ h) = submitted g ++ submitted h := List.filterMap_append

@[simp] theorem emitted_append (g h : List Call) :
    emitted (g ++ h) = emitted g ++ emitted h := List.flatMap_append

@[simp] theorem emitted_singleton (c : Call) : emitted [c] = iframes c.actions := by
  simp [emitted]

@[simp] theorem submitted_singleton (c : Call) : submitted [c] = c.input.1.submission?.toList :=
  filterMap_singleton _ c

/-! ## The view and its invariant -/

/-- **What the send side reads of a connection.** -/
structure SendView where
  next : SeqNo
  sent : List (SeqNo × Instant)
  pending : List Bytes
  k : ℕ
  /-- The I-frames queued by the call in progress. -/
  frames : List Iframe

namespace Connection

/-- The send side of a connection. -/
def sendView (c : Connection) : SendView :=
  ⟨c.sendNext, c.sent, c.pending, c.config.k.toNat, iframes c.actions⟩

@[simp] theorem sendView_transition (c : Connection) (target : State) :
    (c.transition target).sendView = c.sendView := by
  rw [transition_eq]
  split <;> simp [sendView]

@[simp] theorem sendView_push (c : Connection) (a : Action) : (c.push a).sendView
      = { c.sendView with frames := c.sendView.frames ++ iframes [a] } := by
  simp [push, sendView]

@[simp] theorem sendView_emitU (c : Connection) (function : UFunction)
    (now : Instant) : (c.emitU function now).sendView = c.sendView := by
  simp [emitU, emitApdu, push, sendView]

@[simp] theorem sendView_emitSupervisory (c : Connection) (now : Instant) :
    (c.emitSupervisory now).sendView = c.sendView := by
  simp [emitSupervisory, sendView]

@[simp] theorem sendView_reject (c : Connection) : c.reject.sendView = c.sendView := by
  simp [reject]

end Connection

/-- **The send-side invariant**, given the I-frames `E` emitted and the ASDUs
`S` submitted so far: nothing submitted is lost, reordered or duplicated,
the I-frames are numbered consecutively, and `sent` is the window of the
last of them. -/
structure SendInv (E : List Iframe) (S : List Bytes) (v : SendView) : Prop where
  /-- What was emitted, followed by the queue, is what was submitted. -/
  asdus : (E ++ v.frames).map Iframe.asdu ++ v.pending = S
  /-- The I-frames carry consecutive send numbers from zero. -/
  numbered : Window (2 ^ 15) 0 ((E ++ v.frames).map (fun f => f.send.value))
  /-- The next send number continues them. -/
  next : v.next.value = (E ++ v.frames).length % 2 ^ 15
  /-- Only emitted I-frames await an acknowledgement. -/
  covers : v.sent.length ≤ (E ++ v.frames).length
  /-- Those that do are the last ones emitted. -/
  window : Window (2 ^ 15) ((E ++ v.frames).length - v.sent.length)
    (v.sent.map (fun e => e.1.value))
  /-- The window is at most `k` wide. -/
  room : v.sent.length ≤ v.k

/-- A fresh connection has sent nothing. -/
theorem SendInv.new (role : Role) (config : Config) :
    SendInv [] [] (Connection.new role config).sendView where
  asdus := rfl
  numbered := trivial
  next := SeqNo.value_new_zero
  covers := le_rfl
  window := trivial
  room := Nat.zero_le _

namespace SendInv

variable {E : List Iframe} {S : List Bytes} {v : SendView}

/-- Queueing an ASDU behind `pending` submits it. -/
theorem enqueue (h : SendInv E S v) (asdu : Bytes) :
    SendInv E (S ++ [asdu]) { v with pending := v.pending ++ [asdu] } where
  asdus := by rw [← List.append_assoc, h.asdus]
  numbered := h.numbered
  next := h.next
  covers := h.covers
  window := h.window
  room := h.room

/-- Dropping entries from the front of `sent` leaves the window of the
later ones. -/
theorem dropSent (h : SendInv E S v) {n : ℕ} (hn : n ≤ v.sent.length) :
    SendInv E S { v with sent := v.sent.drop n } where
  asdus := h.asdus
  numbered := h.numbered
  next := h.next
  covers := by
    rw [List.length_drop]
    exact le_trans (Nat.sub_le _ _) h.covers
  window := by
    have hw := h.window.drop (n := n) (by rwa [List.length_map])
    have hc := h.covers
    rw [← List.map_drop] at hw
    rwa [List.length_drop, show (E ++ v.frames).length - (v.sent.length - n)
      = (E ++ v.frames).length - v.sent.length + n from by omega]
  room := by
    rw [List.length_drop]
    exact le_trans (Nat.sub_le _ _) h.room

/-- **Sending the head of the queue** – or an ASDU submitted to an empty one
– appends it to what was emitted under the next send number. -/
theorem send (h : SendInv E S v) {asdu : Bytes} {rest : List Bytes}
    (hp : v.pending = asdu :: rest) (hroom : v.sent.length < v.k)
    (recv : SeqNo) (now : Instant) : SendInv E S
      { v with
        next := v.next.next
        sent := v.sent ++ [(v.next, now)]
        pending := rest
        frames := v.frames ++ [⟨v.next, recv, asdu⟩] } where
  asdus := by
    have ha := h.asdus
    rw [hp] at ha
    simpa using ha
  numbered := by
    show Window _ 0 ((E ++ (v.frames ++ [_])).map _)
    rw [← List.append_assoc, List.map_append, window_append]
    refine ⟨h.numbered, ?_, trivial⟩
    rw [List.length_map, Nat.zero_add]
    exact h.next
  next := by
    show v.next.next.value = (E ++ (v.frames ++ [_])).length % 2 ^ 15
    rw [SeqNo.value_next, h.next, Nat.mod_add_mod, ← List.append_assoc]
    simp only [List.length_append, List.length_singleton]
  covers := by
    have hc := h.covers
    simp only [List.length_append, List.length_singleton] at hc ⊢
    omega
  window := by
    have hc := h.covers
    have hlen : (E ++ (v.frames ++ [(⟨v.next, recv, asdu⟩ : Iframe)])).length
        - (v.sent ++ [(v.next, now)]).length
        = (E ++ v.frames).length - v.sent.length := by
      simp only [List.length_append, List.length_singleton]
      omega
    show Window _ _ ((v.sent ++ [(v.next, now)]).map _)
    rw [hlen, List.map_append, window_append]
    refine ⟨h.window, ?_, trivial⟩
    rw [List.length_map, Nat.sub_add_cancel hc]
    exact h.next
  room := by
    show (v.sent ++ [_]).length ≤ v.k
    rw [List.length_append]
    exact hroom

end SendInv

/-! ## The two loops -/

namespace Connection

/-- The view of a connection in the middle of the flush loop, whose queue is
the loop's own. -/
theorem sendView_sendIframe (c : Connection) (asdu : Bytes) (now : Instant) :
    (c.sendIframe asdu now).sendView = { c.sendView with
          next := c.sendNext.next
          sent := c.sent ++ [(c.sendNext, now)]
          frames := c.sendView.frames ++ [⟨c.sendNext, c.recvNext, asdu⟩] } := by
  simp [sendIframe, sendView]

variable {E : List Iframe} {S : List Bytes} {c : Connection} {role : Role} {config : Config}
  {h : List Call}

/-- The flush loop keeps the send-side invariant of the queue it is
given. -/
theorem sendInv_flushLoop (now : Instant) (q : List Bytes) (c : Connection)
    (h : SendInv E S { c.sendView with pending := q }) :
    SendInv E S (flushLoop now q c).sendView := by
  induction q generalizing c with
  | nil => exact h
  | cons asdu rest ih =>
    rw [flushLoop]
    split
    · rename_i hroom
      refine ih _ ?_
      have hs := h.send rfl hroom c.recvNext now
      rwa [sendView_sendIframe]
    · exact h

/-- `flush_pending` keeps the send-side invariant. -/
theorem sendInv_flushPending (h : SendInv E S c.sendView) (now : Instant) :
    SendInv E S (c.flushPending now).sendView :=
  sendInv_flushLoop now c.pending c h

/-- The loop of `acknowledge` drops entries from the front of `sent`. -/
theorem exists_dropWhile_acked (nr : SeqNo) (l : List (SeqNo × Instant)) :
    ∃ n ≤ l.length, l.dropWhile (fun e => acked nr e.1) = l.drop n := by
  induction l with
  | nil => exact ⟨0, le_rfl, rfl⟩
  | cons e l ih =>
    rw [List.dropWhile_cons]
    split
    · obtain ⟨n, hn, hd⟩ := ih
      exact ⟨n + 1, Nat.succ_le_succ hn, hd⟩
    · exact ⟨0, Nat.zero_le _, rfl⟩

/-- `acknowledge` keeps the send-side invariant. -/
theorem sendInv_acknowledge (h : SendInv E S c.sendView) (nr : SeqNo)
    (now : Instant) : SendInv E S (c.acknowledge nr now).sendView := by
  obtain ⟨n, hn, hd⟩ := exists_dropWhile_acked nr c.sent
  unfold acknowledge
  rw [hd]
  exact sendInv_flushPending (c := { c with sent := c.sent.drop n }) (h.dropSent hn) now

/-! ## Every call keeps the invariant -/

@[simp] theorem sendView_timeOut (c : Connection) : c.timeOut.sendView = c.sendView := by
  simp [timeOut]

/-- The timers send no I-frame and touch neither queue. -/
@[simp] theorem sendView_runTimers (c : Connection) (now : Instant) :
    (c.runTimers now).sendView = c.sendView :=
  runTimers_rel c now (R := fun d e => e.sendView = d.sendView) (fun _ => rfl)
    (fun _ _ _ h h' => h'.trans h) sendView_timeOut
    (fun d => sendView_emitSupervisory d now)
    (fun d => sendView_emitU d .testFrAct now) (fun d => by simp)

/-- The acceptance of an I-frame is an acknowledgement to the send side. -/
theorem sendView_accepted (c : Connection) (recv : SeqNo) (asdu : Bytes)
    (now : Instant) : ((((c.counted now).acknowledge recv now).push
        (.deliverAsdu asdu)).ackIfDue now).sendView
      = ((c.counted now).acknowledge recv now).sendView := by
  unfold ackIfDue
  split <;> simp

/-! ## A queued ASDU is never overtaken -/

/-- **While the connection is active, a window with room means an empty
queue.** -/
def Flushed (c : Connection) : Prop :=
  c.state = .active → c.sent.length < c.config.k.toNat → c.pending = []

/-- The flush loop stops with an empty queue or a full window. -/
theorem flushLoop_full (now : Instant) (q : List Bytes) (c : Connection) :
    (flushLoop now q c).sent.length < (flushLoop now q c).config.k.toNat →
      (flushLoop now q c).pending = [] := by
  induction q generalizing c with
  | nil => exact fun _ => rfl
  | cons asdu rest ih =>
    rw [flushLoop]
    split
    · exact ih _
    · rename_i hfull
      exact fun hroom => absurd hroom hfull

/-- After a flush nothing is queued behind a window with room. -/
theorem flushed_flushPending (c : Connection) (now : Instant) : (c.flushPending now).Flushed :=
  fun _ => flushLoop_full now c.pending c

/-- A connection in another state is vacuously flushed. -/
theorem flushed_of_ne (h : c.state ≠ .active) : c.Flushed :=
  fun hs => absurd hs h

theorem reject_state (c : Connection) : c.reject.state = .closed :=
  transition_state _ _

/-- A state entered from elsewhere: not `active`, hence flushed. -/
theorem flushed_transition (c : Connection) {target : State}
    (h : target ≠ .active) : (c.transition target).Flushed :=
  flushed_of_ne (by rwa [transition_state])

/-- Whether a connection is flushed shows in its state and its send side. -/
theorem Flushed.congr {c d : Connection} (h : c.Flushed)
    (hs : d.state = .active → c.state = .active)
    (hv : d.sendView = c.sendView) : d.Flushed := by
  intro hd hroom
  have hk : d.config.k.toNat = c.config.k.toNat := congrArg SendView.k hv
  have hl : d.sent = c.sent := congrArg SendView.sent hv
  have hp : d.pending = c.pending := congrArg SendView.pending hv
  rw [hk, hl] at hroom
  exact hp.trans (h (hs hd) hroom)

/-- **A direct send** takes the ASDU submitted, behind which nothing
queues. -/
theorem sendInv_sendIframe (h : SendInv E S c.sendView) (hp : c.pending = [])
    {asdu : Bytes} (hroom : c.sent.length < c.config.k.toNat) (now : Instant) :
    SendInv E (S ++ [asdu]) (c.sendIframe asdu now).sendView := by
  -- the queue is empty, so the ASDU is its only entry when it is sent
  have hone : c.pending ++ [asdu] = asdu :: [] := by rw [hp]; rfl
  have hsend := (h.enqueue asdu).send hone hroom c.recvNext now
  have hv : (c.sendIframe asdu now).sendView = { c.sendView with
          next := c.sendNext.next
          sent := c.sent ++ [(c.sendNext, now)]
          pending := []
          frames := c.sendView.frames ++ [⟨c.sendNext, c.recvNext, asdu⟩] } := by
    rw [sendView_sendIframe, ← hp]
    rfl
  rw [hv]
  exact hsend

/-- **Processing an input keeps the send side**: with `pending` empty
behind a window with room, a direct send continues the submitted
sequence. -/
theorem sendInv_onInput (h : SendInv E S c.sendView) (hf : c.Flushed) (input : Input)
    (now : Instant) :
    SendInv E (S ++ input.submission?.toList) (c.onInput input now).sendView
      ∧ (c.onInput input now).Flushed := by
  -- an input that submits nothing keeps what was submitted
  have hnone : SendInv E (S ++ (none : Option Bytes).toList) c.sendView := by
    rwa [Option.toList_none, List.append_nil]
  have hsame : ∀ d : Connection, d.sendView = c.sendView →
      SendInv E (S ++ (none : Option Bytes).toList) d.sendView :=
    fun d hd => hd ▸ hnone
  have hc := course_onInput c input now
  generalize c.onInput input now = d at hc ⊢
  cases hc with
  | queue asdu hfull =>
    exact ⟨h.enqueue asdu, fun hs hroom => absurd hroom (not_lt.mpr (hfull hs))⟩
  | send asdu hs hroom =>
    have hp : c.pending = [] := hf hs hroom
    exact ⟨sendInv_sendIframe h hp hroom now, fun _ _ => hp⟩
  | accept send recv asdu hacc =>
    refine ⟨?_, ?_⟩
    · rw [sendView_accepted]
      exact sendInv_acknowledge (c := counted { c with lastRecvAny := some now } now) hnone recv now
    · -- delivering and acknowledging leave state, window and queue alone
      unfold ackIfDue
      split <;> exact flushed_flushPending _ now
  | ack nr ht =>
    exact ⟨sendInv_acknowledge (c := { c with lastRecvAny := some now }) hnone nr
      now, flushed_flushPending _ now⟩
  | startDtCon | startDtAct =>
    exact ⟨sendInv_flushPending (hsame _ (by simp; rfl)) now, flushed_flushPending _ now⟩
  | stopDtCon hr hs he =>
    refine ⟨hsame _ (by simp; rfl), flushed_of_ne ?_⟩
    show (transition _ State.stopped).state ≠ _
    rw [transition_state]
    decide
  | testFrAct => exact ⟨hsame _ (by simp; rfl), hf⟩
  | start | stop => exact ⟨hsame _ (by simp), flushed_transition _ (by decide)⟩
  | serverStop hs hr =>
    exact ⟨hsame _ (by simp), flushed_transition _ (by decide)⟩
  | stopDtAct | refuseI | refuseU =>
    exact ⟨hsame _ (by simp; rfl), flushed_transition _ (by decide)⟩
  | _ => exact ⟨hnone, hf⟩

/-- A connection active after the timers was active before them. -/
theorem state_of_runTimers_active (c : Connection) (now : Instant) :
    (c.runTimers now).state = .active → c.state = .active := by
  refine runTimers_rel c now (R := fun d e => e.state = .active → d.state = .active) (fun _ => id)
    (fun _ _ _ h h' => h ∘ h') ?_ (fun _ => id) (fun _ => id) ?_
  · intro d hd
    rw [timeOut, transition_state] at hd
    exact absurd hd (by decide)
  · intro d hd
    change (d.transition .stopped).state = _ at hd
    rw [transition_state] at hd
    exact absurd hd (by decide)

/-- The timers keep the connection flushed. -/
theorem flushed_runTimers (h : c.Flushed) (now : Instant) : (c.runTimers now).Flushed :=
  h.congr (state_of_runTimers_active c now) (sendView_runTimers c now)

/-- Between calls no I-frame is queued. -/
theorem frames_of_run (r : Run step (new role config) h c) : c.sendView.frames = [] := by
  obtain ⟨-, -, hact⟩ := ident_of_run r
  show iframes c.actions = []
  rw [hact]
  rfl

/-- **The send side over every run.** -/
theorem sendInv_of_run (r : Run step (new role config) h c) :
    SendInv (emitted h) (submitted h) c.sendView ∧ c.Flushed := by
  induction r with
  | nil =>
    exact ⟨SendInv.new role config, flushed_of_ne (by simp [new])⟩
  | @snoc g d r i ih =>
    obtain ⟨hinv, hf⟩ := sendInv_onInput ih.1 ih.2 i.1 i.2
    have hv := sendView_runTimers (d.onInput i.1 i.2) i.2
    rw [← hv] at hinv
    refine ⟨?_, flushed_runTimers hf i.2⟩
    -- draining the actions moves their I-frames from the view to the history
    have hact : (step d i).2 = ((d.onInput i.1 i.2).runTimers i.2).actions :=
      rfl
    rw [submitted_append, submitted_singleton, emitted_append,
      emitted_singleton, call_actions, call_input, hact]
    exact
      { asdus := by simpa [sendView, step, handle] using hinv.asdus
        numbered := by simpa [sendView, step, handle] using hinv.numbered
        next := by simpa [sendView, step, handle] using hinv.next
        covers := by simpa [sendView, step, handle] using hinv.covers
        window := by simpa [sendView, step, handle] using hinv.window
        room := hinv.room }

end Connection

/-- **The send side of a connection**: for every role, every configuration
and every sequence of calls, the ASDUs of the I-frames emitted so far
followed by `pending` are the ASDUs submitted so far, in order; the `n`-th
I-frame carries `N(S) = n` modulo `2 ^ 15`; `sent` has at most `k` entries,
numbered consecutively up to the one before `send_next`; and in the active
state a window with room means an empty queue. -/
theorem send_side (role : Role) (config : Config) (is : List (Input × Instant)) :
    let h := (exec Connection.step (Connection.new role config) is).1
    let c := (exec Connection.step (Connection.new role config) is).2
    (emitted h).map Iframe.asdu ++ c.pending = submitted h
      ∧ (∀ (n : ℕ) (f : Iframe), (emitted h)[n]? = some f →
          f.send.value = n % 2 ^ 15)
      ∧ c.sent.length ≤ config.k.toNat
      ∧ (∀ (n : ℕ) (e : SeqNo × Instant), c.sent[n]? = some e →
          c.sendNext.value = (e.1.value + (c.sent.length - n)) % 2 ^ 15)
      ∧ (c.state = .active → c.sent.length < config.k.toNat →
          c.pending = []) := by
  intro h c
  have r : Run Connection.step (Connection.new role config) h c :=
    run_exec _ _ is
  obtain ⟨hinv, hf⟩ := Connection.sendInv_of_run r
  obtain ⟨-, hcfg, -⟩ := Connection.ident_of_run r
  have hframes := Connection.frames_of_run r
  obtain ⟨hasdus, hnum, hnext, hcov, hwin, hroom⟩ := hinv
  rw [hframes, List.append_nil] at hasdus hnum hnext hcov hwin
  refine ⟨hasdus, ?_, by rw [← hcfg]; exact hroom, ?_, by rw [← hcfg]; exact hf⟩
  · intro n f hn
    have hn' : ((emitted h).map (fun f => f.send.value))[n]?
        = some f.send.value := by
      rw [List.getElem?_map, hn]
      rfl
    rw [hnum.getElem? hn', Nat.zero_add]
  · intro n e hn
    have hlt : n < c.sent.length := (List.getElem?_eq_some_iff.mp hn).1
    have hn' : (c.sent.map (fun e => e.1.value))[n]? = some e.1.value := by
      rw [List.getElem?_map, hn]
      rfl
    rw [hwin.getElem? hn']
    show c.sendView.next.value = _
    rw [hnext, Nat.mod_add_mod]
    refine congrArg (· % 2 ^ 15) ?_
    change c.sent.length ≤ _ at hcov
    show _ = (emitted h).length - c.sent.length + n + _
    omega

end Frame104
