import Iec60870.Frame101Master

/-!
# Bounded retransmission

A frame passed to `send_with_confirm` is repeated by the timers until it is
answered, and given up after the last retry (`frame101/link.rs`, `run_timers`).
To say what happens to *one* such frame – the next request for the status of
the link is an equal one – the exchanges are read off a history: `ledger` has
an entry for every frame passed on, with the times it was transmitted at, how
often its time-out was reported and whether it is still waiting for an answer.
Nothing in it depends on the counter of the machine. The frames of the ledger
are all the frames a master sends (`Connection.frames_ledger`).

Between calls the exchange in progress is the last one of the ledger
(`Tracks`), and its counter is the number of its transmissions as long as it
does not wrap. It is an octet and is incremented when it does not *exceed* the
number of retries. With 255 retries it never does, and the bound that the
configuration asks for is none: the frame is repeated for ever, and the counter
starts again from zero. Up to 254 retries everything is as it should be
(`Connection.bounded_retransmission_iff`).
-/

namespace Frame101

open Machine

variable {α : Type}

/-! ## The ledger of exchanges -/

/-- **An exchange**: a frame that awaits an answer, and what has become of it. -/
structure Exchange (α : Type) where
  frame : Frame α
  /-- When it was transmitted, the last time first. -/
  times : List Instant
  /-- Whether an answer is awaited. -/
  waiting : Bool
  /-- How often its time-out has been reported. -/
  errors : ℕ
deriving DecidableEq, Repr

/-- A reply a master understands. -/
def Reply.isValid : Reply α → Bool
  | .invalid => false
  | _ => true

/-- An input that ends the exchange in progress. -/
def Input.ends (input : Input α) : Bool := input.reply?.any Reply.isValid

/-- No answer is awaited any more. -/
def Exchange.close (e : Exchange α) : Exchange α := { e with waiting := false }

/-- A frame is passed on, which ends the exchange in progress. -/
def openExchange (now : Instant) (es : List (Exchange α)) (frame : Frame α) :
    List (Exchange α) :=
  ⟨frame, [now], true, 0⟩ :: es.modifyHead Exchange.close

/-- The exchanges once the input of a call has been dealt with. Before the
timers run, a master sends only what it passes to `send_with_confirm`. -/
def opened (es : List (Exchange α)) (k : Call α) : List (Exchange α) :=
  let es := if k.input.1.ends then es.modifyHead Exchange.close else es
  ((k.before.onInput k.input.1 k.input.2).actions.filterMap Action.frame?).foldl
    (openExchange k.input.2) es

/-- The actions of the timers in a call. -/
def timerActions (k : Call α) : List (Action α) :=
  k.actions.drop (k.before.onInput k.input.1 k.input.2).actions.length

/-- An action of the timers is about the exchange in progress. -/
def Exchange.timed (now : Instant) (e : Exchange α) : Action α → Exchange α
  | .sendFrame _ => { e with times := now :: e.times }
  | .linkError .ackTimeout => { e with waiting := false, errors := e.errors + 1 }
  | _ => e

/-- The exchanges after a call. -/
def record (es : List (Exchange α)) (k : Call α) : List (Exchange α) :=
  (opened es k).modifyHead fun e => (timerActions k).foldl (Exchange.timed k.input.2) e

/-- **The exchanges of a history**, the last one first. -/
def ledger (h : List (Call α)) : List (Exchange α) := h.foldl record []

@[simp] theorem ledger_snoc (h : List (Call α)) (k : Call α) :
    ledger (h ++ [k]) = record (ledger h) k := List.foldl_concat ..

/-! ## What the bound says -/

/-- **An exchange within its bounds.** -/
structure Exchange.Bounded (config : Config) (e : Exchange α) : Prop where
  /-- The frame is transmitted once and then at most as often as configured. -/
  count : e.times.length ≤ config.maxRetries.toNat + 1
  /-- There is a time-out between two transmissions. -/
  apart : e.times.IsChain fun t s => s + config.timeout ≤ t
  /-- It is reported at most once. -/
  errors : e.errors ≤ 1

/-- Whether an action reports a time-out. -/
def Action.isAckTimeout : Action α → Bool
  | .linkError .ackTimeout => true
  | _ => false

/-- **The last time-out is reported.** If the input of a call leaves a frame
without an answer that has been transmitted as often as it may be, and the last
transmission has expired, then the call leaves the link failed and reports one
time-out, for this frame. -/
def Reports (config : Config) (g : List (Call α)) (k : Call α) : Prop :=
  ∀ e ∈ (opened (ledger g) k).head?, e.waiting → e.times.length = config.maxRetries.toNat + 1 →
    (∀ t ∈ e.times.head?, t + config.timeout ≤ k.input.2) →
    (k.before.handle k.input).1.linkState = .failed ∧ k.actions.countP Action.isAckTimeout = 1
      ∧ ∃ rest, record (ledger g) k = { e with waiting := false, errors := 1 } :: rest

/-- The counter of the exchange in progress is the number of its
transmissions. -/
def Counted (es : List (Exchange α)) (pending : Option (PendingSend α)) : Prop :=
  ∀ p ∈ pending, ∃ e ∈ es.head?, p.attempts.toNat = e.times.length

/-- **Bounded retransmission** along a run. -/
structure Retransmits (config : Config) (h : List (Call α)) (c : Connection α) : Prop where
  bounded : ∀ e ∈ ledger h, e.Bounded config
  reported : Throughout (Reports config) h
  /-- The counter has not overflowed. -/
  counted : Counted (ledger h) c.pending

/-! ## The exchange in progress is the last one of the ledger -/

/-- The entry of the exchange in progress. -/
structure Exchange.Of (e : Exchange α) (p : PendingSend α) : Prop where
  frame : e.frame = p.frame
  waiting : e.waiting = true
  errors : e.errors = 0
  last : e.times.head? = some p.sentAt

/-- **The ledger follows the machine.** -/
def Tracks (es : List (Exchange α)) : Option (PendingSend α) → Prop
  | none => ∀ e ∈ es.head?, e.waiting = false
  | some p => ∃ e rest, es = e :: rest ∧ e.Of p

namespace Connection

variable {c : Connection α} {now : Instant} {es : List (Exchange α)}

theorem frames_maybeFlushQueue (hc : c.actions.filterMap Action.frame? = [])
    (now : Instant) : ((c.maybeFlushQueue now).actions.filterMap Action.frame? = []
        ∧ (c.maybeFlushQueue now).pending = c.pending)
      ∨ ∃ f, (c.maybeFlushQueue now).actions.filterMap Action.frame? = [f]
        ∧ (c.maybeFlushQueue now).pending = some ⟨f, now, 1⟩ := by
  unfold maybeFlushQueue
  split
  · exact Or.inl ⟨hc, rfl⟩
  · split
    · exact Or.inl ⟨hc, rfl⟩
    · refine Or.inr ⟨_, ?_, rfl⟩
      show (c.actions ++ [_]).filterMap Action.frame? = _
      rw [List.filterMap_append, hc]
      rfl

/-- **What an input does to the exchange in progress**: it begins another one,
or leaves it as it is, or ends it. -/
def Turns (c : Connection α) (ends : Bool) (now : Instant) (d : Connection α) : Prop :=
  (∃ f, d.actions.filterMap Action.frame? = [f] ∧ d.pending = some ⟨f, now, 1⟩)
  ∨ d.actions.filterMap Action.frame? = []
    ∧ (ends = false ∧ d.pending = c.pending ∨ ends = true ∧ d.pending = none)

theorem turns_onReply (hc : c.actions = []) (reply : Reply α) :
    c.Turns reply.isValid now (c.onReply now reply) := by
  have hflush (d : Connection α) (hp : d.pending = none)
      (hd : d.actions.filterMap Action.frame? = []) :
      c.Turns true now (d.maybeFlushQueue now) := by
    obtain ⟨hframes, hpend⟩ | hsend := frames_maybeFlushQueue hd now
    · exact Or.inr ⟨hframes, Or.inr ⟨rfl, hpend.trans hp⟩⟩
    · exact Or.inl hsend
  have hready (d : Connection α) (hd : d.actions = []) :
      d.makeReady.actions.filterMap Action.frame? = [] := by
    rw [makeReady_eq, hd]
    split <;> rfl
  have hnone : c.actions.filterMap Action.frame? = [] := by rw [hc]; rfl
  have hsame (hp : ¬ c.pending.isSome) : c.Turns true now c :=
    Or.inr ⟨hnone, Or.inr ⟨rfl, Option.not_isSome_iff_eq_none.mp hp⟩⟩
  cases reply with
  | char =>
    show c.Turns true now _
    rw [onReply]
    split
    · exact hflush { c with pending := none } rfl hnone
    · exact hsame ‹_›
  | ack =>
    show c.Turns true now _
    rw [onReply]
    split
    · exact hflush _ (by rw [makeReady_eq]) (hready { c with pending := none } hc)
    · exact hsame ‹_›
  | nack =>
    refine Or.inr ⟨?_, Or.inr ⟨rfl, rfl⟩⟩
    simp [onReply, emitLinkError, emit, hc, Action.frame?]
  | status =>
    refine Or.inr ⟨hready { c with pending := none } hc, Or.inr ⟨rfl, ?_⟩⟩
    rw [onReply, makeReady_eq]
  | noData => exact Or.inr ⟨hnone, Or.inr ⟨rfl, rfl⟩⟩
  | data asdu =>
    refine Or.inr ⟨?_, Or.inr ⟨rfl, rfl⟩⟩
    simp [onReply, emit, hc, Action.frame?]
  | invalid =>
    refine Or.inr ⟨?_, Or.inl ⟨rfl, rfl⟩⟩
    simp [onReply, emitLinkError, emit, hc, Action.frame?]

/-- **Every input of a master does one of the three.** -/
theorem turns_onInput (hr : c.role = .master) (hc : c.actions = []) (input : Input α)
    (now : Instant) : c.Turns input.ends now (c.onInput input now) := by
  have hnone : c.actions.filterMap Action.frame? = [] := by rw [hc]; rfl
  unfold Input.ends
  obtain ⟨reply, hreply, he⟩ | ⟨hreply, hcases⟩ := onInput_cases hr input now
  · rw [hreply, he]
    exact turns_onReply hc reply
  · rw [hreply]
    obtain he | ⟨asdu, he⟩ | ⟨pending, frame, he⟩ := hcases
    · rw [he]
      exact Or.inr ⟨hnone, Or.inl ⟨rfl, rfl⟩⟩
    · rw [he]
      obtain ⟨hframes, hpend⟩ | hsend :=
        frames_maybeFlushQueue (c := { c with sendQueue := c.sendQueue ++ [asdu] }) hnone now
      · exact Or.inr ⟨hframes, Or.inl ⟨rfl, hpend⟩⟩
      · exact Or.inl hsend
    · rw [he]
      refine Or.inl ⟨frame, ?_, rfl⟩
      simp [sendWithConfirm, emit, hc, Action.frame?]

/-- An ended exchange is followed by none. -/
theorem tracks_close : Tracks (es.modifyHead Exchange.close) none := by
  cases es with
  | nil => nofun
  | cons e rest =>
    intro x hx
    rw [← Option.some.inj hx]
    rfl

section

variable (hr : c.role = .master) (hc : c.actions = []) (i : Input α × Instant)

include hr hc

/-- **What the input of a call does to the ledger.** -/
theorem opened_cases (es : List (Exchange α)) :
    let k := call Connection.handle c i
    (∃ f rest, opened es k = ⟨f, [i.2], true, 0⟩ :: rest
        ∧ (c.onInput i.1 i.2).pending = some ⟨f, i.2, 1⟩)
    ∨ (opened es k = es ∧ (c.onInput i.1 i.2).pending = c.pending)
    ∨ (opened es k = es.modifyHead Exchange.close ∧ (c.onInput i.1 i.2).pending = none) := by
  intro k
  have hopened : opened es k
      = ((c.onInput i.1 i.2).actions.filterMap Action.frame?).foldl (openExchange i.2)
        (if i.1.ends then es.modifyHead Exchange.close else es) := rfl
  obtain ⟨f, hframes, hpend⟩ | ⟨hframes, ⟨hends, hpend⟩ | ⟨hends, hpend⟩⟩ :=
    turns_onInput hr hc i.1 i.2
  · rw [hframes] at hopened
    exact Or.inl ⟨f, _, hopened, hpend⟩
  · rw [hframes, hends] at hopened
    exact Or.inr (Or.inl ⟨hopened, hpend⟩)
  · rw [hframes, hends] at hopened
    exact Or.inr (Or.inr ⟨hopened, hpend⟩)

/-- **The ledger follows the input of a call.** -/
theorem tracks_opened (h : Tracks es c.pending) :
    Tracks (opened es (call Connection.handle c i)) (c.onInput i.1 i.2).pending := by
  obtain ⟨f, rest, hes, hpend⟩ | ⟨hes, hpend⟩ | ⟨hes, hpend⟩ := opened_cases hr hc i es
  · rw [hes, hpend]
    exact ⟨_, _, rfl, ⟨rfl, rfl, rfl, rfl⟩⟩
  · rw [hes, hpend]
    exact h
  · rw [hes, hpend]
    exact tracks_close

theorem counted_opened (h : Counted es c.pending) :
    Counted (opened es (call Connection.handle c i)) (c.onInput i.1 i.2).pending := by
  obtain ⟨f, rest, hes, hpend⟩ | ⟨hes, hpend⟩ | ⟨hes, hpend⟩ := opened_cases hr hc i es
  · rw [hes, hpend]
    intro p hp
    rw [← Option.some.inj hp]
    exact ⟨_, rfl, rfl⟩
  · rw [hes, hpend]
    exact h
  · rw [hpend]
    nofun

end

/-- Ending and beginning exchanges keeps the bounds. -/
theorem bounded_opened {config : Config} (h : ∀ e ∈ es, e.Bounded config) (k : Call α) :
    ∀ e ∈ opened es k, e.Bounded config := by
  have hclose {es : List (Exchange α)} (h : ∀ e ∈ es, e.Bounded config) :
      ∀ e ∈ es.modifyHead Exchange.close, e.Bounded config := by
    cases es with
    | nil => nofun
    | cons e rest =>
      intro x hx
      obtain rfl | hx := List.mem_cons.mp hx
      · have he := h e List.mem_cons_self
        exact ⟨he.count, he.apart, he.errors⟩
      · exact h x (List.mem_cons_of_mem _ hx)
  unfold opened
  generalize (k.before.onInput k.input.1 k.input.2).actions.filterMap Action.frame? = frames
  have hstart : ∀ e ∈ (if k.input.1.ends then es.modifyHead Exchange.close else es),
      e.Bounded config := by
    split
    · exact hclose h
    · exact h
  generalize (if k.input.1.ends then es.modifyHead Exchange.close else es) = start at hstart
  induction frames generalizing start with
  | nil => exact hstart
  | cons f frames ih =>
    refine ih _ fun e he => ?_
    obtain rfl | he := List.mem_cons.mp he
    · exact ⟨Nat.le_add_left 1 _, List.isChain_singleton _, Nat.zero_le 1⟩
    · exact hclose hstart e he

/-- No action reports a time-out. -/
def Quiet (c : Connection α) : Prop := ∀ a ∈ c.actions, a.isAckTimeout = false

theorem Quiet.emit (h : c.Quiet) {a : Action α} (ha : a.isAckTimeout = false) :
    (c.emit a).Quiet := by
  intro b hb
  obtain hb | hb := List.mem_append.mp hb
  · exact h b hb
  · rw [List.mem_singleton.mp hb]
    exact ha

theorem Quiet.maybeFlushQueue (h : c.Quiet) : (c.maybeFlushQueue now).Quiet := by
  unfold Connection.maybeFlushQueue
  split
  · exact h
  · split
    · exact h
    · exact h.emit rfl

theorem Quiet.makeReady (h : c.Quiet) : c.makeReady.Quiet := by
  unfold Connection.makeReady transitionLink
  split
  · split
    · exact h.emit rfl
    · exact h
  · exact h

theorem Quiet.onReply (h : c.Quiet) (reply : Reply α) : (c.onReply now reply).Quiet := by
  cases reply with
  | char =>
    rw [Connection.onReply]
    split
    · exact Quiet.maybeFlushQueue h
    · exact h
  | ack =>
    rw [Connection.onReply]
    split
    · exact Quiet.maybeFlushQueue (Quiet.makeReady h)
    · exact h
  | nack | data | invalid => exact h.emit rfl
  | status => exact Quiet.makeReady h
  | noData => exact h

/-- Before the timers run, no time-out is reported. -/
theorem Quiet.onInput (h : c.Quiet) (hr : c.role = .master) (input : Input α) :
    (c.onInput input now).Quiet := by
  obtain ⟨reply, -, he⟩ | ⟨-, he | ⟨asdu, he⟩ | ⟨pending, frame, he⟩⟩ :=
    onInput_cases hr input now
  · rw [he]
    exact h.onReply reply
  · rw [he]
    exact h
  · rw [he]
    exact Quiet.maybeFlushQueue h
  · rw [he]
    exact h.emit rfl

theorem timerActions_eq {i : Input α × Instant} {as : List (Action α)}
    (h : ((c.onInput i.1 i.2).runTimers i.2).actions = (c.onInput i.1 i.2).actions ++ as) :
    timerActions (call Connection.handle c i) = as := by
  show ((c.onInput i.1 i.2).runTimers i.2).actions.drop (c.onInput i.1 i.2).actions.length = as
  rw [h]
  exact List.drop_left

/-- Giving a frame up is reported, after a change of the state of the link. -/
theorem exists_actions_giveUp {d : Connection α}
    (hd : d = (c.transitionLink .failed).emit (.linkError .ackTimeout)) :
    ∃ changed : List (Action α), (changed = [] ∨ changed = [.linkStateChanged .failed])
      ∧ d.actions = c.actions ++ (changed ++ [.linkError .ackTimeout]) := by
  rw [hd, transitionLink_eq]
  refine ⟨_, ?_, List.append_assoc ..⟩
  split
  · exact Or.inr rfl
  · exact Or.inl rfl

/-- **What the timers do with the exchange in progress**: nothing before its
time has come, and then they repeat it or give it up. -/
theorem record_cases (hr : c.role = .master) (hc : c.actions = []) (i : Input α × Instant)
    (h : Tracks es c.pending) :
    let k := call Connection.handle c i
    (record es k = opened es k ∧ Tracks (opened es k) (c.handle i).1.pending
        ∧ (∀ p ∈ (c.handle i).1.pending, i.2 - p.sentAt < c.config.timeout)
        ∧ (c.handle i).1.pending = (c.onInput i.1 i.2).pending ∧ timerActions k = [])
    ∨ ∃ p e rest, opened es k = e :: rest ∧ e.Of p ∧ c.config.timeout ≤ i.2 - p.sentAt
      ∧ (c.onInput i.1 i.2).pending = some p
      ∧ (p.attempts ≤ c.config.maxRetries ∧ record es k = { e with times := i.2 :: e.times } :: rest
          ∧ (c.handle i).1.pending = some ⟨p.frame, i.2, p.attempts + 1⟩
          ∧ timerActions k = [.sendFrame p.frame]
        ∨ c.config.maxRetries < p.attempts
          ∧ record es k = { e with waiting := false, errors := e.errors + 1 } :: rest
          ∧ (c.handle i).1.pending = none
          ∧ (c.handle i).1.linkState = .failed
          ∧ k.actions.countP Action.isAckTimeout = 1
          ∧ (timerActions k).filterMap Action.frame? = []) := by
  intro k
  have htracks := tracks_opened hr hc i h
  have hident : (c.onInput i.1 i.2).ident = c.ident := ident_onInput i.1
  have hconfig : (c.onInput i.1 i.2).config = c.config := congrArg Prod.snd hident
  have hquiet : (c.onInput i.1 i.2).Quiet :=
    Quiet.onInput (fun a ha => absurd ha (by rw [hc]; exact List.not_mem_nil)) hr i.1
  have hcount : (c.onInput i.1 i.2).actions.countP Action.isAckTimeout = 0 :=
    List.countP_eq_zero.mpr fun a ha => by rw [hquiet a ha]; exact Bool.false_ne_true
  obtain ⟨hwait, he⟩ | ⟨p, hp, ht, hcases⟩ := runTimers_cases (c.onInput i.1 i.2) i.2
  · have hpend : (c.handle i).1.pending = (c.onInput i.1 i.2).pending := by
      unfold handle
      rw [he]
    have hnone : timerActions k = [] :=
      timerActions_eq (by rw [he, List.append_nil])
    refine Or.inl ⟨?_, hpend ▸ htracks, hpend ▸ hconfig ▸ hwait, hpend, hnone⟩
    unfold record
    rw [hnone]
    exact congrFun List.modifyHead_id _
  · rw [hp] at htracks
    obtain ⟨e, rest, hopened, hof⟩ := htracks
    rw [hconfig] at ht hcases
    refine Or.inr ⟨p, e, rest, hopened, hof, ht, hp, ?_⟩
    obtain ⟨hle, he⟩ | ⟨hlt, he⟩ := hcases
    · have hagain : timerActions k = [.sendFrame p.frame] :=
        timerActions_eq (by rw [he]; rfl)
      refine Or.inl ⟨hle, ?_, ?_, hagain⟩
      · unfold record
        rw [hagain, hopened]
        rfl
      · unfold handle
        rw [he]
        rfl
    · obtain ⟨changed, hchanged, hgiveUp⟩ := exists_actions_giveUp he
      have htimers : timerActions k = changed ++ [.linkError .ackTimeout] :=
        timerActions_eq hgiveUp
      refine Or.inr ⟨hlt, ?_, ?_, ?_, ?_, ?_⟩
      · unfold record
        rw [htimers, hopened]
        obtain rfl | rfl := hchanged <;> rfl
      · unfold handle
        rw [he, transitionLink_eq]
        rfl
      · unfold handle
        rw [he, transitionLink_eq]
        rfl
      · show List.countP _ ((c.onInput i.1 i.2).runTimers i.2).actions = 1
        rw [hgiveUp, List.countP_append, hcount]
        obtain rfl | rfl := hchanged <;> rfl
      · rw [htimers]
        obtain rfl | rfl := hchanged <;> rfl

/-- **The ledger follows a call.** -/
theorem tracks_record (hr : c.role = .master) (hc : c.actions = []) (i : Input α × Instant)
    (h : Tracks es c.pending) :
    Tracks (record es (call Connection.handle c i)) (c.handle i).1.pending := by
  obtain ⟨he, htracks, -⟩ | ⟨p, e, rest, -, hof, -, -, ⟨-, he, hpend, -⟩ | ⟨-, he, hpend, -⟩⟩ :=
    record_cases hr hc i h
  · rw [he]
    exact htracks
  · rw [he, hpend]
    exact ⟨_, _, rfl, ⟨hof.frame, hof.waiting, hof.errors, rfl⟩⟩
  · rw [he, hpend]
    intro x hx
    rw [← Option.some.inj hx]

theorem tracks_of_run {config : Config} {h : List (Call α)}
    (r : Run Connection.handle (unbalanced .master config) h c) :
    Tracks (ledger h) c.pending := by
  induction r with
  | nil => nofun
  | snoc r i ih =>
    obtain ⟨hr, -, hc⟩ := kept_of_run r
    rw [ledger_snoc]
    exact tracks_record hr hc i ih

/-! ## The ledger has every frame -/

/-- The frames of some exchanges, in the order they were transmitted in. -/
def transmitted (es : List (Exchange α)) : List (Frame α) :=
  es.reverse.flatMap fun e => List.replicate e.times.length e.frame

theorem transmitted_cons (e : Exchange α) (es : List (Exchange α)) :
    transmitted (e :: es) = transmitted es ++ List.replicate e.times.length e.frame := by
  unfold transmitted
  rw [List.reverse_cons, List.flatMap_append, List.flatMap_singleton]

theorem transmitted_close : transmitted (es.modifyHead Exchange.close) = transmitted es := by
  cases es with
  | nil => rfl
  | cons e rest =>
    rw [List.modifyHead_cons, transmitted_cons, transmitted_cons]
    rfl

/-- A call adds to the ledger what its input makes the master send. -/
theorem transmitted_opened (es : List (Exchange α)) (k : Call α) :
    transmitted (opened es k) = transmitted es
        ++ (k.before.onInput k.input.1 k.input.2).actions.filterMap Action.frame? := by
  have hstart : transmitted (if k.input.1.ends then es.modifyHead Exchange.close else es)
      = transmitted es := by
    split
    · exact transmitted_close
    · rfl
  unfold opened
  dsimp only
  rw [← hstart]
  generalize (k.before.onInput k.input.1 k.input.2).actions.filterMap Action.frame? = frames
  generalize (if k.input.1.ends then es.modifyHead Exchange.close else es) = start
  induction frames generalizing start with
  | nil => exact (List.append_nil _).symm
  | cons f frames ih =>
    rw [List.foldl_cons, ih, openExchange, transmitted_cons, transmitted_close, List.append_assoc]
    rfl

/-- **The ledger has every frame a master sends**, as often as it is sent. -/
theorem frames_ledger {config : Config} {h : List (Call α)}
    (r : Run Connection.handle (unbalanced .master config) h c) :
    (h.flatMap fun k => k.actions.filterMap Action.frame?) = transmitted (ledger h) := by
  induction r with
  | nil => rfl
  | @snoc h c r i ih =>
    obtain ⟨hr, -, hc⟩ := kept_of_run r
    have hactions : (call Connection.handle c i).actions
        = (c.onInput i.1 i.2).actions ++ timerActions (call Connection.handle c i) :=
      (List.prefix_iff_eq_append.mp actions_prefix_runTimers).symm
    have hopened := transmitted_opened (ledger h) (call Connection.handle c i)
    rw [List.flatMap_append, List.flatMap_singleton, ih, ledger_snoc, hactions,
      List.filterMap_append, ← List.append_assoc]
    refine Eq.trans (congrArg (· ++ _) hopened.symm) ?_
    obtain ⟨hrecord, -, -, -, htimers⟩ | ⟨p, e, rest, hes, hof, -, -,
      ⟨-, hrecord, -, htimers⟩ | ⟨-, hrecord, -, -, -, htimers⟩⟩ :=
      record_cases hr hc i (tracks_of_run r)
    · rw [hrecord, htimers]
      exact List.append_nil _
    · rw [hrecord, hes, htimers, transmitted_cons, transmitted_cons, List.append_assoc,
        ← hof.frame, List.length_cons, List.replicate_succ']
      rfl
    · rw [hrecord, hes, htimers, transmitted_cons, transmitted_cons]
      exact List.append_nil _

/-- A request that is not answered, and two repetitions of it. -/
theorem frames_ledger_request :
    let run := exec Connection.handle (unbalanced .master Config.default : Connection Bytes)
      [(.requestStatus, 0), (.tick, 1), (.tick, 2)]
    (run.1.flatMap fun k => k.actions.filterMap Action.frame?)
      = List.replicate 3 (.fixedLength 0x49 ⟨0⟩) :=
  (frames_ledger (run_exec _ _ _)).trans (by decide)

/-! ## Up to 254 retries -/

section Bounded

variable {config : Config} {h : List (Call α)}

/-- A call reports the last time-out. -/
theorem reports_call (hr : c.role = .master) (hc : c.actions = []) (hconfig : c.config = config)
    (i : Input α × Instant) (htracks : Tracks (ledger h) c.pending)
    (hcounted : Counted (ledger h) c.pending) :
    Reports config h (call Connection.handle c i) := by
  intro e he hwaiting hcount hexpired
  have hopened := counted_opened hr hc i hcounted
  obtain ⟨-, htracks', hwait, -⟩ | ⟨p, e', rest, hes, hof, -, hp, hcases⟩ :=
    record_cases hr hc i htracks
  · -- Nothing has expired, so the exchange is none that awaits an answer.
    exfalso
    cases hpend : (c.handle i).1.pending with
    | none =>
      rw [hpend] at htracks'
      exact Bool.false_ne_true ((htracks' e he).symm.trans hwaiting)
    | some p =>
      rw [hpend] at htracks'
      obtain ⟨e', rest, hes, hof⟩ := htracks'
      rw [hes] at he
      obtain rfl : e' = e := Option.some.inj he
      have hlt := hwait p hpend
      have hle : p.sentAt + config.timeout ≤ i.2 := hexpired p.sentAt hof.last
      rw [hconfig] at hlt
      exact Nat.not_lt.mpr (Nat.le_sub_of_add_le' hle) hlt
  · rw [hes] at he
    obtain rfl : e' = e := Option.some.inj he
    obtain ⟨hle, -⟩ | ⟨-, hrecord, -, hfailed, hone, -⟩ := hcases
    · -- It has been transmitted too often for another retry.
      exfalso
      obtain ⟨e, he, hattempts⟩ := hopened p hp
      rw [hes] at he
      obtain rfl : e' = e := Option.some.inj he
      rw [hconfig] at hle
      have hretries := UInt8.le_iff_toNat_le.mp hle
      rw [hattempts, hcount] at hretries
      exact Nat.not_succ_le_self _ hretries
    · rw [hof.errors] at hrecord
      exact ⟨hfailed, hone, rest, hrecord⟩

/-- A call keeps the bounds, with a counter that can exceed the number of
retries. -/
theorem bounded_call (hr : c.role = .master) (hc : c.actions = []) (hconfig : c.config = config)
    (hmax : config.maxRetries ≠ 255) (htimeout : 0 < config.timeout) (i : Input α × Instant)
    (htracks : Tracks es c.pending) (hcounted : Counted es c.pending)
    (hbounded : ∀ e ∈ es, e.Bounded config) :
    (∀ e ∈ record es (call Connection.handle c i), e.Bounded config)
      ∧ Counted (record es (call Connection.handle c i)) (c.handle i).1.pending := by
  have hopened := bounded_opened hbounded (call Connection.handle c i)
  have hcounted' := counted_opened hr hc i hcounted
  have hcases := record_cases hr hc i htracks
  rw [hconfig] at hcases
  obtain ⟨hrecord, -, -, hpend, -⟩ | ⟨p, e, rest, hes, hof, ht, hp, hcases⟩ := hcases
  · rw [hrecord, hpend]
    exact ⟨hopened, hcounted'⟩
  · rw [hes] at hopened hcounted'
    obtain ⟨e', he, hattempts⟩ := hcounted' p hp
    obtain rfl : e = e' := Option.some.inj he
    have hbound := hopened e List.mem_cons_self
    have hrest : ∀ x ∈ rest, x.Bounded config := fun x hx => hopened x (List.mem_cons_of_mem _ hx)
    obtain ⟨hle, hrecord, hpend, -⟩ | ⟨-, hrecord, hpend, -⟩ := hcases
    · rw [hrecord, hpend]
      have hretries := UInt8.le_iff_toNat_le.mp hle
      refine ⟨List.forall_mem_cons.mpr ⟨⟨?_, ?_, hbound.errors⟩, hrest⟩, ?_⟩
      · rw [hattempts] at hretries
        exact Nat.succ_le_succ hretries
      · -- The last transmission is the one the timers have compared with.
        refine List.IsChain.cons hbound.apart fun s hs => ?_
        obtain rfl : p.sentAt = s := Option.some.inj (hof.last.symm.trans hs)
        omega
      · intro q hq
        rw [← Option.some.inj hq]
        refine ⟨_, rfl, ?_⟩
        have hlt : p.attempts.toNat + 1 < 2 ^ 8 := by
          have hne : config.maxRetries.toNat ≠ 255 := fun h => hmax (UInt8.toNat.inj h)
          have := config.maxRetries.toNat_lt
          omega
        rw [UInt8.toNat_add, UInt8.toNat_one, Nat.mod_eq_of_lt hlt, hattempts]
        rfl
    · rw [hrecord, hpend]
      refine ⟨List.forall_mem_cons.mpr ⟨⟨hbound.count, hbound.apart, ?_⟩, hrest⟩, nofun⟩
      rw [hof.errors]

/-- **With at most 254 retries, retransmission is bounded.** -/
theorem retransmits_of_run (hmax : config.maxRetries ≠ 255) (htimeout : 0 < config.timeout)
    (r : Run Connection.handle (unbalanced .master config) h c) : Retransmits config h c := by
  induction r with
  | nil => exact ⟨nofun, throughout_nil _, nofun⟩
  | snoc r i ih =>
    obtain ⟨hr, hconfig, hc⟩ := kept_of_run r
    have htracks := tracks_of_run r
    obtain ⟨hbounded, hcounted⟩ :=
      bounded_call hr hc hconfig hmax htimeout i htracks ih.counted ih.bounded
    rw [← ledger_snoc] at hbounded hcounted
    exact ⟨hbounded, (throughout_snoc _ _).mpr
      ⟨ih.reported, reports_call hr hc hconfig i htracks ih.counted⟩, hcounted⟩

end Bounded

/-! ## With 255 retries -/

/-- A run in which a frame has been repeated `n` times, at the multiples of the
time to wait: its counter is the number of transmissions modulo 256. -/
structure Repeats (config : Config) (n : ℕ) (h : List (Call α)) (c : Connection α) :
    Prop where
  run : Run Connection.handle (unbalanced .master config) h c
  clock : ClockMono h
  past : ∀ k ∈ h, k.input.2 ≤ n * config.timeout
  waits : ∃ f, c.pending = some ⟨f, n * config.timeout, UInt8.ofNat (n + 1)⟩
  counts : ∃ e, ledger h = [e] ∧ e.times.length = n + 1

section Repeats

variable {config : Config} {h : List (Call α)}

/-- The request for the status of the link is sent. -/
theorem repeats_zero (htimeout : 0 < config.timeout) :
    let start : Connection α := unbalanced .master config
    Repeats config 0 [call Connection.handle start (.requestStatus, 0)]
      (start.handle (.requestStatus, 0)).1 := by
  intro start
  obtain ⟨hrecord, -, -, hpend, -⟩ | ⟨p, e, rest, -, -, ht, -, -⟩ :=
    record_cases (c := start) rfl rfl (.requestStatus, 0) (nofun : Tracks [] none)
  · have hsent : (start.onInput .requestStatus 0).pending
        = some ⟨start.buildFixed (.primary false false .requestStatus), 0, 1⟩ := rfl
    exact
      { run := Run.nil.snoc _
        clock := List.pairwise_singleton _ _
        past := fun k hk => by
          rw [List.mem_singleton.mp hk]
          exact Nat.zero_le _
        waits := ⟨_, by rw [hpend, hsent, Nat.zero_mul]; rfl⟩
        counts := ⟨_, hrecord, rfl⟩ }
  · rw [Nat.zero_sub] at ht
    exact absurd htimeout (Nat.not_lt.mpr ht)

/-- **With 255 retries a frame is repeated whenever its time is up.** -/
theorem Repeats.succ (hmax : config.maxRetries = 255) {n : ℕ} (hrep : Repeats config n h c) :
    let i : Input α × Instant := (.tick, (n + 1) * config.timeout)
    Repeats config (n + 1) (h ++ [call Connection.handle c i]) (c.handle i).1 := by
  intro i
  obtain ⟨r, hclock, hpast, ⟨f, hp⟩, e, hledger, htimes⟩ := hrep
  obtain ⟨hr, hconfig, hc⟩ := kept_of_run r
  have hnow : (n + 1) * config.timeout - n * config.timeout = config.timeout := by
    rw [Nat.succ_mul, Nat.add_sub_cancel_left]
  have hle : n * config.timeout ≤ (n + 1) * config.timeout :=
    Nat.mul_le_mul_right _ (Nat.le_succ n)
  have hopened : opened (ledger h) (call Connection.handle c i) = [e] := by
    show (c.actions.filterMap Action.frame?).foldl _ (ledger h) = [e]
    rw [hc, hledger]
    rfl
  obtain ⟨-, -, hwait, hpend, -⟩ | ⟨p, e', rest, hes, -, -, hpend, hcases⟩ :=
    record_cases hr hc i (tracks_of_run r)
  · have hlt := hwait _ (hpend.trans hp)
    rw [hconfig] at hlt
    exact absurd hnow (Nat.ne_of_lt hlt)
  · obtain rfl : p = _ := Option.some.inj (hpend.symm.trans hp)
    obtain ⟨rfl, rfl⟩ := List.cons.inj (hes.symm.trans hopened)
    obtain ⟨-, hrecord, hnext, -⟩ | ⟨hlt, -⟩ := hcases
    · refine ⟨r.snoc i, ?_, ?_, ⟨f, ?_⟩, _, (ledger_snoc _ _).trans hrecord, ?_⟩
      · exact clockMono_snoc.mpr ⟨hclock, fun k hk => (hpast k hk).trans hle⟩
      · intro k hk
        obtain hk | hk := List.mem_append.mp hk
        · exact (hpast k hk).trans hle
        · rw [List.mem_singleton.mp hk]
          exact Nat.le_refl _
      · rw [hnext]
        exact congrArg (fun a => some (PendingSend.mk f _ a)) (UInt8.ofNat_add _ _).symm
      · exact congrArg Nat.succ htimes
    · -- No octet is greater than 255.
      rw [hconfig, hmax] at hlt
      have := UInt8.lt_iff_toNat_lt.mp hlt
      have := (UInt8.ofNat (n + 1)).toNat_lt
      exact absurd ‹_› (Nat.not_lt.mpr (Nat.le_of_lt_succ this))

theorem exists_repeats (hmax : config.maxRetries = 255) (htimeout : 0 < config.timeout) (n : ℕ) :
    ∃ (h : List (Call α)) (c : Connection α), Repeats config n h c := by
  induction n with
  | zero => exact ⟨_, _, repeats_zero htimeout⟩
  | succ n ih =>
    obtain ⟨h, c, hrep⟩ := ih
    exact ⟨_, _, hrep.succ hmax⟩

/-- After 256 transmissions the counter has come back to zero. -/
theorem Repeats.not_retransmits (hrep : Repeats config 255 h c) : ¬ Retransmits config h c := by
  intro hall
  obtain ⟨f, hp⟩ := hrep.waits
  obtain ⟨e, hledger, htimes⟩ := hrep.counts
  obtain ⟨e', he, hcount⟩ := hall.counted _ hp
  rw [hledger] at he
  obtain rfl : e = e' := Option.some.inj he
  rw [htimes] at hcount
  exact absurd hcount (show ¬ (UInt8.ofNat (255 + 1)).toNat = 255 + 1 by decide)

end Repeats

/-- **Bounded retransmission holds up to 254 retries.** For every time to wait
that is not zero: along every run of a master with a clock that does not go
back, a frame passed to `send_with_confirm` is transmitted at most once more
than there are retries, with a time-out in between, the last time-out is
reported once and leaves the link failed, and the counter of transmissions does
not overflow – exactly if the number of retries is not 255. -/
theorem bounded_retransmission_iff (α : Type) {config : Config} (htimeout : 0 < config.timeout) :
    (∀ (h : List (Call α)) (c : Connection α),
      Run Connection.handle (unbalanced .master config) h c → ClockMono h →
      Retransmits config h c) ↔ config.maxRetries ≠ 255 := by
  constructor
  · intro hall hmax
    obtain ⟨h, c, hrep⟩ := exists_repeats (α := α) hmax htimeout 255
    exact hrep.not_retransmits (hall h c hrep.run hrep.clock)
  · intro hmax h c r _
    exact retransmits_of_run hmax htimeout r

/-- A request that is never answered, with three retries. -/
theorem bounded_retransmission_threeRetries :
    let run := exec Connection.handle (unbalanced .master Config.default : Connection Bytes)
      [(.requestStatus, 0), (.tick, 1), (.tick, 2), (.tick, 3), (.tick, 4)]
    Retransmits Config.default run.1 run.2
      ∧ ledger run.1 = [⟨.fixedLength 0x49 ⟨0⟩, [3, 2, 1, 0], false, 1⟩]
      ∧ run.2.linkState = .failed :=
  ⟨(bounded_retransmission_iff Bytes (by decide)).mpr (by decide) _ _ (run_exec _ _ _)
    (by decide), by decide, by decide⟩

/-- **With 255 retries the counter overflows.** -/
theorem unbounded_retransmission :
    let config : Config := { Config.default with maxRetries := 255 }
    ∃ (h : List (Call Bytes)) (c : Connection Bytes),
      Run Connection.handle (unbalanced .master config) h c ∧ ClockMono h
        ∧ ¬ Retransmits config h c := by
  intro config
  obtain ⟨h, c, hrep⟩ := exists_repeats (show config.maxRetries = 255 from rfl) (by decide) 255
  exact ⟨h, c, hrep.run, hrep.clock, hrep.not_retransmits⟩

end Connection

end Frame101
