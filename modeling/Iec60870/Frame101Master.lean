import Iec60870.Frame101Station

/-!
# The exchanges of a master

A master has one exchange at a time: a frame it has sent and not yet got an
answer to. What ends it is the reply in a frame it receives, or the timers.

Two statements about `master_on_frame` and the functions it calls
(`frame101/link.rs`) are as one would expect, up to some of the replies.

* *A master does not idle with queued data.* The two acknowledgements resume
  the queue when they end an exchange; the three other replies that end one –
  the status, no data, user data – do not (`Connection.never_idles_iff`).
* *The link becomes ready by a reset.* An acknowledgement in a frame makes a
  link that is not ready a ready one, whatever it acknowledges; so does the
  status. The single octet does not, and neither leads out of `failed`
  (`Connection.reset_handshake_iff`).
-/

namespace Frame101

open Machine

variable {α : Type}

/-- The reply an input brings. -/
def Input.reply? (input : Input α) : Option (Reply α) := input.frame?.map Frame.reply

/-- A reply that ends an exchange without a look at the queue. -/
def Reply.stalls : Reply α → Bool
  | .status | .noData | .data _ => true
  | _ => false

namespace Connection

variable {c : Connection α} {now : Instant}

/-! ## The parts of a call -/

theorem linkState_maybeFlushQueue : (c.maybeFlushQueue now).linkState = c.linkState := by
  unfold maybeFlushQueue
  split
  · rfl
  · split <;> rfl

/-- The timers come after what an input has emitted. -/
theorem actions_prefix_runTimers : c.actions <+: (c.runTimers now).actions := by
  obtain ⟨-, he⟩ | ⟨p, -, -, ⟨-, he⟩ | ⟨-, he⟩⟩ := runTimers_cases c now
  · rw [he]
  · rw [he]
    exact List.prefix_append _ _
  · rw [he, transitionLink_eq]
    exact (List.prefix_append _ _).trans (List.prefix_append _ _)

theorem mem_actions_runTimers {a : Action α} (ha : a ∈ c.actions) :
    a ∈ (c.runTimers now).actions := actions_prefix_runTimers.mem ha

/-- A request is sent if nothing is pending. -/
theorem request_cases (hr : c.role = .master) (func : FuncCodePrimary) (now : Instant) :
    request func c now = c ∨ request func c now
        = c.sendWithConfirm (c.buildFixed (.primary false false func)) now := by
  rw [request, if_neg (not_not_intro hr)]
  split
  · exact Or.inl rfl
  · exact Or.inr rfl

/-- **What a master does with an input**: it acts on a reply; or it does
nothing, queues an ASDU and looks at the queue, or sends a frame, with the
exchange in progress given up or not. -/
theorem onInput_cases (hr : c.role = .master) (input : Input α) (now : Instant) :
    (∃ reply, input.reply? = some reply ∧ c.onInput input now = c.onReply now reply)
    ∨ input.reply? = none ∧ (c.onInput input now = c ∨ (∃ asdu, c.onInput input now
            = { c with sendQueue := c.sendQueue ++ [asdu] }.maybeFlushQueue now)
        ∨ ∃ pending frame, c.onInput input now
            = { c with pending := pending }.sendWithConfirm frame now) := by
  have hrequest (func : FuncCodePrimary) : request func c now = c ∨ (∃ asdu, request func c now
          = { c with sendQueue := c.sendQueue ++ [asdu] }.maybeFlushQueue now)
      ∨ ∃ pending frame, request func c now
          = { c with pending := pending }.sendWithConfirm frame now := by
    obtain he | he := request_cases hr func now
    · exact Or.inl he
    · exact Or.inr (Or.inr ⟨c.pending, _, he⟩)
  cases input with
  | frameReceived frame =>
    refine Or.inl ⟨frame.reply, rfl, ?_⟩
    rw [onInput, onFrame, hr]
    exact masterOnFrame_eq frame
  | tick => exact Or.inr ⟨rfl, Or.inl rfl⟩
  | sendUserData asdu =>
    refine Or.inr ⟨rfl, Or.inr (Or.inl ⟨asdu, ?_⟩)⟩
    rw [onInput, onSendUserData, hr]
  | requestStatus | requestUserDataClass1 | requestUserDataClass2 => exact Or.inr ⟨rfl, hrequest _⟩
  | resetRemoteLink =>
    exact Or.inr ⟨rfl, Or.inr (Or.inr ⟨none, _, if_neg (not_not_intro hr)⟩)⟩

theorem onInput_of_reply (hr : c.role = .master) {input : Input α} {reply : Reply α}
    (hi : input.reply? = some reply) : c.onInput input now = c.onReply now reply := by
  obtain ⟨reply', hreply, he⟩ | ⟨hnone, -⟩ := onInput_cases hr input now
  · obtain rfl := Option.some.inj (hreply.symm.trans hi)
    exact he
  · cases hnone.symm.trans hi

/-! ## A master does not idle -/

/-- **A master that does not idle**: if it waits for nothing, it has nothing to
send. -/
def Attends (c : Connection α) : Prop := c.pending = none → c.sendQueue = []

/-- An input ends an exchange without a look at the queue, and there is
something in it. -/
def Strands (c : Connection α) (input : Input α) : Prop :=
  input.reply?.any Reply.stalls ∧ c.sendQueue ≠ []

instance (input : Input α) [DecidableEq α] : Decidable (c.Strands input) :=
  inferInstanceAs (Decidable (_ ∧ _))

/-- An error is reported. -/
def Errs (actions : List (Action α)) : Prop := ∃ reason, .linkError reason ∈ actions

instance (actions : List (Action α)) : Decidable (Errs actions) :=
  decidable_of_iff (actions.any fun a => a matches .linkError _) <| by
    rw [List.any_eq_true]
    constructor
    · intro ⟨a, hmem, ha⟩
      cases a with
      | linkError reason => exact ⟨reason, hmem⟩
      | _ => cases ha
    · intro ⟨reason, hmem⟩
      exact ⟨_, hmem, rfl⟩

theorem attends_of_isSome (hp : c.pending.isSome) : c.Attends :=
  fun hnone => absurd hp (by rw [hnone]; exact Bool.false_ne_true)

/-- The queue has been looked at. -/
theorem attends_maybeFlushQueue : (c.maybeFlushQueue now).Attends := by
  by_cases hp : c.pending.isSome
  · rw [maybeFlushQueue_of_isSome hp]
    exact attends_of_isSome hp
  · cases hq : c.sendQueue with
    | nil =>
      rw [maybeFlushQueue_nil hq]
      exact fun _ => hq
    | cons asdu rest =>
      rw [maybeFlushQueue_cons (Option.not_isSome_iff_eq_none.mp hp) hq]
      exact attends_of_isSome rfl

/-- What a reply does to a master that does not idle. -/
theorem attends_onReply (h : c.Attends) (reply : Reply α) : Errs (c.onReply now reply).actions
      ∨ ((c.onReply now reply).Attends ↔ ¬ (reply.stalls ∧ c.sendQueue ≠ [])) := by
  have hfree {d : Connection α} (hd : d.Attends) {b : Bool} (hb : b = false) :
      d.Attends ↔ ¬ (b ∧ c.sendQueue ≠ []) :=
    iff_of_true hd fun hs => absurd hs.1 (by rw [hb]; exact Bool.false_ne_true)
  have hstuck {d : Connection α} (hp : d.pending = none) (hq : d.sendQueue = c.sendQueue)
      {b : Bool} (hb : b = true) : d.Attends ↔ ¬ (b ∧ c.sendQueue ≠ []) := by
    unfold Attends
    rw [hq, hb]
    exact ⟨fun hd hs => hs.2 (hd hp), fun hs _ => not_not.mp fun hne => hs ⟨rfl, hne⟩⟩
  cases reply with
  | char | ack =>
    refine Or.inr (hfree ?_ rfl)
    rw [onReply]
    split
    · exact attends_maybeFlushQueue
    · exact h
  | nack => exact Or.inl ⟨.nack, List.mem_append_right _ List.mem_cons_self⟩
  | status =>
    refine Or.inr (hstuck ?_ ?_ rfl)
    · rw [onReply, makeReady_eq]
    · rw [onReply, makeReady_eq]
  | noData => exact Or.inr (hstuck (d := c.onReply now .noData) rfl rfl rfl)
  | data asdu => exact Or.inr (hstuck (d := c.onReply now (.data asdu)) rfl rfl rfl)
  | invalid => exact Or.inl ⟨.protocolError, List.mem_append_right _ List.mem_cons_self⟩

/-- What an input does to a master that does not idle. -/
theorem attends_onInput (hr : c.role = .master) (h : c.Attends) (input : Input α)
    (now : Instant) : Errs (c.onInput input now).actions
      ∨ ((c.onInput input now).Attends ↔ ¬ c.Strands input) := by
  unfold Strands
  obtain ⟨reply, hreply, he⟩ | ⟨hreply, hcases⟩ := onInput_cases hr input now
  · rw [hreply, he]
    exact attends_onReply h reply
  · have hfree : ¬ (input.reply?.any Reply.stalls ∧ c.sendQueue ≠ []) := by
      rw [hreply]
      exact fun hs => absurd hs.1 Bool.false_ne_true
    refine Or.inr (iff_of_true ?_ hfree)
    obtain he | ⟨asdu, he⟩ | ⟨pending, frame, he⟩ := hcases
    · rw [he]
      exact h
    · rw [he]
      exact attends_maybeFlushQueue
    · rw [he]
      exact attends_of_isSome rfl

/-- The timers end an exchange only with an error. -/
theorem attends_runTimers :
    Errs (c.runTimers now).actions ∨ ((c.runTimers now).Attends ↔ c.Attends) := by
  obtain ⟨-, he⟩ | ⟨p, hp, -, ⟨-, he⟩ | ⟨-, he⟩⟩ := runTimers_cases c now
  · rw [he]
    exact Or.inr Iff.rfl
  · rw [he]
    exact Or.inr (iff_of_true (attends_of_isSome rfl) (attends_of_isSome (by rw [hp]; rfl)))
  · rw [he]
    exact Or.inl ⟨.ackTimeout, List.mem_append_right _ List.mem_cons_self⟩

/-- **What a call does to a master that does not idle.** -/
theorem attends_handle (hr : c.role = .master) (h : c.Attends) (i : Input α × Instant)
    (hok : ¬ Errs (c.handle i).2) : (c.handle i).1.Attends ↔ ¬ c.Strands i.1 := by
  have hinput : ¬ Errs (c.onInput i.1 i.2).actions :=
    fun ⟨reason, hmem⟩ => hok ⟨reason, mem_actions_runTimers hmem⟩
  have honInput := (attends_onInput hr h i.1 i.2).resolve_left hinput
  exact (attends_runTimers.resolve_left hok).trans honInput

/-- **A master does not idle with queued data, unless a reply strands it.** In
a run without an error, after every call a master that waits for nothing has
nothing to send, exactly if no call gets the status, no data or user data in
reply while ASDUs are queued. -/
theorem never_idles_iff {config : Config} {h : List (Call α)}
    (r : Run Connection.handle (unbalanced .master config) h c)
    (hok : ∀ k ∈ h, ¬ Errs k.actions) : (∀ k ∈ h, (k.before.handle k.input).1.Attends)
      ↔ ∀ k ∈ h, ¬ k.before.Strands k.input.1 := by
  suffices hrun : ((∀ k ∈ h, (k.before.handle k.input).1.Attends)
      ↔ ∀ k ∈ h, ¬ k.before.Strands k.input.1)
      ∧ ((∀ k ∈ h, (k.before.handle k.input).1.Attends) → c.Attends) from hrun.1
  induction r with
  | nil =>
    exact ⟨iff_of_true (fun k hk => absurd hk List.not_mem_nil)
      (fun k hk => absurd hk List.not_mem_nil), fun _ _ => rfl⟩
  | @snoc h d r i ih =>
    obtain ⟨hr, -, -⟩ := kept_of_run r
    have hpast := ih fun k hk => hok k (List.mem_append_left _ hk)
    have hlast : ¬ Errs (d.handle i).2 :=
      hok _ (List.mem_append_right _ List.mem_cons_self)
    simp only [List.forall_mem_append, List.forall_mem_singleton]
    refine ⟨?_, fun hall => hall.2⟩
    constructor
    · intro ⟨hall, hcall⟩
      exact ⟨hpast.1.mp hall, (attends_handle hr (hpast.2 hall) i hlast).mp hcall⟩
    · intro ⟨hall, hcall⟩
      have hattends := hpast.1.mpr hall
      exact ⟨hattends, (attends_handle hr (hpast.2 hattends) i hlast).mpr hcall⟩

/-- An acknowledgement resumes the queue. -/
theorem never_idles_acknowledged :
    let run := exec Connection.handle (unbalanced .master Config.default : Connection Bytes)
      [(.sendUserData [1], 0), (.sendUserData [2], 0), (.frameReceived (.single .ack), 0)]
    ∀ k ∈ run.1, (k.before.handle k.input).1.Attends :=
  (never_idles_iff (run_exec _ _ _) (by decide)).mpr (by decide)

/-- **User data in reply to a poll strand the ASDU that was submitted in the
meantime**: nothing is pending and nothing has failed, but it stays in the
queue. -/
theorem idles_polled :
    let run := exec Connection.handle (unbalanced .master Config.default : Connection Bytes)
      [(.requestUserDataClass1, 0), (.sendUserData [1], 0),
        (.frameReceived (.variableLength 0x08 ⟨0⟩ [7]), 0)]
    (∀ k ∈ run.1, ¬ Errs k.actions) ∧ run.2.pending = none ∧ run.2.sendQueue = [[1]] := by
  decide

/-! ## The reset of the link -/

/-- The exchange in progress is the reset of the remote link. -/
def Resets (c : Connection α) : Prop :=
  c.pending.map PendingSend.frame = some (c.buildFixed (.primary false false .resetRemoteLink))

/-- What an acknowledgement makes the master send next times out in the same
call, and is given up. -/
def FailsAtOnce (c : Connection α) : Prop :=
  c.config.timeout = 0 ∧ c.config.maxRetries = 0 ∧ c.sendQueue ≠ []

/-- The timers give up the exchange in progress. -/
def GivesUp (c : Connection α) (now : Instant) : Prop :=
  ∃ p ∈ c.pending, c.config.timeout ≤ now - p.sentAt ∧ c.config.maxRetries < p.attempts

theorem linkState_runTimers_of_givesUp (h : c.GivesUp now) :
    (c.runTimers now).linkState = .failed := by
  obtain ⟨q, hq, ht, ha⟩ := h
  obtain ⟨hwait, -⟩ | ⟨p, hp, -, ⟨hle, -⟩ | ⟨-, he⟩⟩ := runTimers_cases c now
  · exact absurd ht (Nat.not_le.mpr (hwait q hq))
  · obtain rfl : p = q := Option.some.inj (hp.symm.trans hq)
    exact absurd ha (UInt8.not_lt.mpr hle)
  · rw [he, transitionLink_eq]
    rfl

theorem linkState_runTimers_of_not (h : ¬ c.GivesUp now) :
    (c.runTimers now).linkState = c.linkState := by
  obtain ⟨-, he⟩ | ⟨p, hp, ht, ⟨-, he⟩ | ⟨ha, -⟩⟩ := runTimers_cases c now
  · rw [he]
  · rw [he]
    rfl
  · exact absurd ⟨p, hp, ht, ha⟩ h

/-- The timers make no link ready. -/
theorem ready_mem_runTimers : .linkStateChanged .ready ∈ (c.runTimers now).actions
      ↔ .linkStateChanged .ready ∈ c.actions := by
  refine ⟨fun h => ?_, mem_actions_runTimers⟩
  obtain ⟨-, he⟩ | ⟨p, -, -, ⟨-, he⟩ | ⟨-, he⟩⟩ := runTimers_cases c now
  · rw [he] at h
    exact h
  · rw [he] at h
    exact (List.mem_append.mp h).resolve_right (by simp)
  · rw [he, transitionLink_eq] at h
    have hbefore := (List.mem_append.mp h).resolve_right (by simp)
    refine (List.mem_append.mp hbefore).resolve_right ?_
    split <;> simp

/-- A frame that has just been sent is given up only without a time to wait and
a retry. -/
theorem givesUp_maybeFlushQueue (hp : c.pending = none) :
    (c.maybeFlushQueue now).GivesUp now ↔ c.FailsAtOnce := by
  unfold FailsAtOnce
  cases hq : c.sendQueue with
  | nil =>
    rw [maybeFlushQueue_nil hq]
    refine iff_of_false (fun ⟨p, hmem, _⟩ => ?_) (fun h => h.2.2 rfl)
    rw [hp] at hmem
    cases hmem
  | cons asdu rest =>
    rw [maybeFlushQueue_cons hp hq]
    constructor
    · rintro ⟨p, hmem, ht, ha⟩
      rw [← Option.some.inj hmem] at ht ha
      have ha : c.config.maxRetries.toNat < 1 := UInt8.lt_iff_toNat_lt.mp ha
      refine ⟨Nat.eq_zero_of_le_zero (ht.trans_eq (Nat.sub_self now)), ?_, List.cons_ne_nil _ _⟩
      exact UInt8.toNat.inj (Nat.lt_one_iff.mp ha)
    · rintro ⟨ht, ha, -⟩
      refine ⟨_, rfl, ?_, ?_⟩
      · exact ht.le.trans (Nat.zero_le _)
      · show c.config.maxRetries < 1
        rw [ha]
        decide

theorem ready_mem_maybeFlushQueue : .linkStateChanged .ready ∈ (c.maybeFlushQueue now).actions
      ↔ .linkStateChanged .ready ∈ c.actions := by
  unfold maybeFlushQueue
  split
  · exact Iff.rfl
  · split
    · exact Iff.rfl
    · show _ ∈ c.actions ++ [_] ↔ _
      simp

theorem ready_mem_makeReady (hc : c.actions = []) :
    .linkStateChanged .ready ∈ c.makeReady.actions ↔ c.linkState = .notReady := by
  rw [makeReady_eq, hc]
  by_cases h : c.linkState = .notReady
  · simp [h]
  · simp [h]

/-- **What makes a link ready**: the status, or a frame that acknowledges an
exchange, whatever it is about. -/
theorem ready_mem_onReply (hc : c.actions = []) (reply : Reply α) :
    .linkStateChanged .ready ∈ (c.onReply now reply).actions
      ↔ c.linkState = .notReady ∧ (reply = .status ∨ reply = .ack ∧ c.pending.isSome) := by
  cases reply with
  | char =>
    rw [onReply]
    split
    · rw [ready_mem_maybeFlushQueue]
      simp [hc]
    · simp [hc]
  | ack =>
    rw [onReply]
    split
    · rename_i hp
      rw [ready_mem_maybeFlushQueue, ready_mem_makeReady (c := { c with pending := none }) hc]
      simp [hp]
    · rename_i hp
      simp [hc, hp]
  | status =>
    rw [onReply, ready_mem_makeReady (c := { c with pending := none }) hc]
    simp
  | nack | invalid => simp [onReply, emitLinkError, emit, hc]
  | noData => simp [onReply, hc]
  | data asdu => simp [onReply, emit, hc]

theorem ready_mem_handle (hr : c.role = .master) (hc : c.actions = [])
    (i : Input α × Instant) : .linkStateChanged .ready ∈ (c.handle i).2 ↔ c.linkState = .notReady
        ∧ (i.1.reply? = some .status ∨ i.1.reply? = some .ack ∧ c.pending.isSome) := by
  refine ready_mem_runTimers.trans ?_
  obtain ⟨reply, hreply, he⟩ | ⟨hreply, hcases⟩ := onInput_cases hr i.1 i.2
  · rw [hreply, he, ready_mem_onReply hc]
    simp
  · rw [hreply]
    refine iff_of_false ?_ (by simp)
    obtain he | ⟨asdu, he⟩ | ⟨pending, frame, he⟩ := hcases
    · rw [he, hc]
      exact List.not_mem_nil
    · rw [he, ready_mem_maybeFlushQueue]
      simp [hc]
    · rw [he]
      simp [sendWithConfirm, emit, hc]

/-- The link after an exchange has ended and the next one has begun. -/
theorem ready_maybeFlushQueue (hp : c.pending = none) :
    ((c.maybeFlushQueue now).runTimers now).linkState = .ready
      ↔ c.linkState = .ready ∧ ¬ c.FailsAtOnce := by
  by_cases h : (c.maybeFlushQueue now).GivesUp now
  · rw [linkState_runTimers_of_givesUp h]
    exact iff_of_false (by decide) fun hok => hok.2 ((givesUp_maybeFlushQueue hp).mp h)
  · rw [linkState_runTimers_of_not h, linkState_maybeFlushQueue]
    exact ⟨fun hs => ⟨hs, fun hf => h ((givesUp_maybeFlushQueue hp).mpr hf)⟩, And.left⟩

/-- **The single octet leaves the state of the link as it is.** -/
theorem ready_char (hr : c.role = .master) (hp : c.pending.isSome) {i : Input α × Instant}
    (hi : i.1.reply? = some .char) :
    (c.handle i).1.linkState = .ready ↔ c.linkState = .ready ∧ ¬ c.FailsAtOnce := by
  have hinput : c.onInput i.1 i.2 = { c with pending := none }.maybeFlushQueue i.2 := by
    rw [onInput_of_reply hr hi, onReply, if_pos hp]
  unfold handle
  rw [hinput]
  exact ready_maybeFlushQueue (c := { c with pending := none }) rfl

/-- **A frame that acknowledges makes a link ready that was not**, but not a
failed one. -/
theorem ready_ack (hr : c.role = .master) (hp : c.pending.isSome) {i : Input α × Instant}
    (hi : i.1.reply? = some .ack) :
    (c.handle i).1.linkState = .ready ↔ c.linkState ≠ .failed ∧ ¬ c.FailsAtOnce := by
  have hinput : c.onInput i.1 i.2 = ({ c with pending := none }.makeReady).maybeFlushQueue i.2 := by
    rw [onInput_of_reply hr hi, onReply, if_pos hp]
  unfold handle
  rw [hinput, makeReady_eq]
  refine (ready_maybeFlushQueue rfl).trans (and_congr ?_ Iff.rfl)
  dsimp only
  cases c.linkState <;> decide

/-- **The calls that keep the handshake**, by the state the link is in and what
it is waiting for. -/
def KeepsHandshake (c : Connection α) : Option (Reply α) → Prop
  | some .char => c.Resets → c.linkState = .ready ∧ ¬ c.FailsAtOnce
  | some .ack =>
    (c.Resets → c.linkState ≠ .failed ∧ ¬ c.FailsAtOnce)
      ∧ (¬ c.Resets → c.pending = none ∨ c.linkState ≠ .notReady)
  | some .status => c.linkState ≠ .notReady
  | _ => True

theorem Resets.isSome (h : c.Resets) : c.pending.isSome := by
  unfold Resets at h
  cases hp : c.pending with
  | none => rw [hp] at h; cases h
  | some p => rfl

/-- **When a reset makes the link ready, and nothing else does.** In every run
and for every call of it: an acknowledgement of a reset, of either kind, leaves
the link ready, and the link becomes ready only by one, exactly if the call is
one of those that keep the handshake. -/
theorem reset_handshake_iff {config : Config} {h : List (Call α)}
    (r : Run Connection.handle (unbalanced .master config) h c) {k : Call α} (hk : k ∈ h) :
    ((k.before.Resets → k.input.1.frame?.any Frame.isAck →
        (k.before.handle k.input).1.linkState = .ready)
      ∧ (.linkStateChanged .ready ∈ k.actions →
        k.before.Resets ∧ k.input.1.frame?.any Frame.isAck))
      ↔ k.before.KeepsHandshake k.input.1.reply? := by
  obtain ⟨⟨g, hbefore⟩, hcall⟩ := r.of_mem hk
  obtain ⟨hr, -, hc⟩ := kept_of_run hbefore
  have hack : k.input.1.frame?.any Frame.isAck = k.input.1.reply?.any Reply.isAck := by
    unfold Input.reply?
    rw [Option.any_map]
    exact congrArg (Option.any · _) (funext fun f => f.isAck_reply.symm)
  have hmem : .linkStateChanged .ready ∈ k.actions
      ↔ k.before.linkState = .notReady
        ∧ (k.input.1.reply? = some .status
          ∨ k.input.1.reply? = some .ack ∧ k.before.pending.isSome) := by
    rw [hcall]
    exact ready_mem_handle hr hc k.input
  rw [hack, hmem]
  cases hreply : k.input.1.reply? with
  | none => simp [KeepsHandshake]
  | some reply =>
    cases reply with
    | char =>
      have hready (hres : k.before.Resets) := ready_char hr hres.isSome hreply
      refine ⟨fun h hres => (hready hres).mp (h.1 hres rfl),
        fun h => ⟨fun hres _ => (hready hres).mpr (h hres), fun hbecomes => ?_⟩⟩
      exact absurd hbecomes.2 (by simp)
    | ack =>
      have hready (hres : k.before.Resets) := ready_ack hr hres.isSome hreply
      constructor
      · intro ⟨hreset, honly⟩
        refine ⟨fun hres => (hready hres).mp (hreset hres rfl), fun hno => ?_⟩
        by_cases hp : k.before.pending = none
        · exact Or.inl hp
        · refine Or.inr fun hstate => hno (honly ⟨hstate, Or.inr ⟨rfl, ?_⟩⟩).1
          exact Option.isSome_iff_ne_none.mpr hp
      · intro ⟨hreset, hother⟩
        refine ⟨fun hres _ => (hready hres).mpr (hreset hres), fun ⟨hstate, hcause⟩ => ⟨?_, rfl⟩⟩
        have hp : k.before.pending.isSome := (hcause.resolve_left (by simp)).2
        by_contra hno
        obtain hnone | hstate' := hother hno
        · rw [hnone] at hp
          cases hp
        · exact hstate' hstate
    | status => simp [KeepsHandshake, Reply.isAck]
    | _ => simp [KeepsHandshake, Reply.isAck]

/-- A reset that is acknowledged by a frame. -/
theorem reset_handshake_fixed :
    let reset : Call Bytes :=
      call Connection.handle (unbalanced .master Config.default) (.resetRemoteLink, 0)
    let acked : Connection Bytes :=
      ((unbalanced .master Config.default).handle (.resetRemoteLink, 0)).1
    (acked.handle (.frameReceived (.fixedLength 0x00 ⟨0⟩), 0)).1.linkState = .ready
      ∧ .linkStateChanged .ready ∉ reset.actions := by
  intro reset acked
  have r := run_exec Connection.handle (unbalanced .master Config.default : Connection Bytes)
    [(.resetRemoteLink, 0), (.frameReceived (.fixedLength 0x00 ⟨0⟩), 0)]
  have hack := (reset_handshake_iff r (k := call Connection.handle acked
    (.frameReceived (.fixedLength 0x00 ⟨0⟩), 0)) (List.mem_cons_of_mem _ List.mem_cons_self)).mpr
    ⟨fun _ => ⟨by decide, fun hf => absurd hf.1 (by decide)⟩, fun hno => absurd rfl hno⟩
  have hreset := (reset_handshake_iff r (k := reset) List.mem_cons_self).mpr trivial
  exact ⟨hack.1 rfl rfl, fun hmem => absurd (hreset.2 hmem).2 (by decide)⟩

/-- **The handshake goes wrong in four ways.** A reset that the single octet
acknowledges leaves the link as it was; one that is acknowledged after the
link has failed leaves it failed; the acknowledgement of an ASDU makes a link
ready that has never been reset, and so does its status. -/
theorem reset_handshake_broken :
    let after := fun (config : Config) (is : List (Input Bytes × Instant)) =>
      (exec Connection.handle (unbalanced .master config) is).2.linkState
    after .default [(.resetRemoteLink, 0), (.frameReceived (.single .ack), 0)] = .notReady
      ∧ after ⟨⟨0⟩, 1, 0⟩ [(.resetRemoteLink, 0), (.tick, 1), (.resetRemoteLink, 1),
          (.frameReceived (.fixedLength 0x00 ⟨0⟩), 1)] = .failed
      ∧ after .default [(.sendUserData [1], 0),
          (.frameReceived (.fixedLength 0x00 ⟨0⟩), 0)] = .ready
      ∧ after .default [(.requestStatus, 0),
          (.frameReceived (.fixedLength 0x0B ⟨0⟩), 0)] = .ready := by
  decide

end Connection

end Frame101
