import Mathlib.Data.List.TakeWhile
import Iec60870.Frame104Ack
import Iec60870.Frame104Closed
import Iec60870.Frame104Handshake

/-!
# The clean close of a client

A client that stops sends STOPDT_act and is then, in the words of
`State::Stopping`, "waiting for STOPDT_con plus all outstanding I-frame ACKs".
It closes cleanly in one of two places, and neither waits for both. The
handler of STOPDT_con looks at `sent` and not at `pending`. The tail of
`run_timers` looks at `sent` and `pending` and not at whether STOPDT_con has
come: it runs in every call, the one that sends STOPDT_act included.

Between calls a stopping client is never drained (`not_drained_of_run`), since
the tail would have closed it. So a clean close comes with the call that drains
it: with the request itself if nothing was outstanding, or with the last
acknowledgement. `ClosesEarly` collects the calls that should not close, and
`clean_stop_iff` says that these are all.
-/

open Machine

namespace Frame104

/-- **Whether STOPDT_con was received since STOPDT_act was last sent.** -/
def stopConfirmed (h : List Call) : Bool :=
  h.foldl (fun b k =>
    if .u .stopDtAct ∈ sends k.actions then false
    else if k.input.1 = .apdu (.u .stopDtCon) then true
    else b) false

theorem stopConfirmed_snoc (h : List Call) (k : Call) : stopConfirmed (h ++ [k])
      = if .u .stopDtAct ∈ sends k.actions then false
        else if k.input.1 = .apdu (.u .stopDtCon) then true
        else stopConfirmed h := by
  rw [stopConfirmed, List.foldl_append]
  rfl

/-- **A call stops cleanly, if it stops**: with the call in the history `h`, the
connection `c` after it and its actions `as`, a clean close is reported only if
STOPDT_con has been received and nothing is left to send or unacknowledged. -/
def StopsCleanly (h : List Call) (c : Connection) (as : List Action) : Prop :=
  .disconnect .stoppedCleanly ∈ as → stopConfirmed h = true ∧ c.sent = [] ∧ c.pending = []

instance (h : List Call) (c : Connection) (as : List Action) :
    Decidable (StopsCleanly h c as) :=
  inferInstanceAs (Decidable (_ → _))

namespace Connection

/-! ## The calls that close -/

/-- A stop is requested with nothing outstanding. -/
def stopsIdle (c : Connection) (input : Input) : Prop :=
  c.state = .active ∧ input = .stopDt ∧ c.sent = [] ∧ c.pending = []

/-- A receive number acknowledges everything, with nothing queued. -/
def acksRest (c : Connection) (input : Input) : Prop :=
  c.state = .stopping ∧ c.pending = [] ∧ ∃ nr ∈ c.processes input, ∀ e ∈ c.sent, acked nr e.1 = true

/-- STOPDT_con comes with nothing unacknowledged, but something queued. -/
def abandons (c : Connection) (input : Input) : Prop :=
  c.state = .stopping ∧ input = .apdu (.u .stopDtCon) ∧ c.sent = [] ∧ c.pending ≠ []

/-- **The calls that report a clean close too early**, in a history `h` and
unless the answer to a TESTFR_act is overdue. -/
def ClosesEarly (h : List Call) (c : Connection) (i : Input × Instant) : Prop :=
  c.abandons i.1 ∨ (expired c.testSent c.config.t1 i.2 = false
      ∧ (c.stopsIdle i.1 ∨ (c.acksRest i.1 ∧ stopConfirmed h = false)))

/-- A flush drains a connection only if nothing was outstanding. -/
theorem flushLoop_eq_nil_iff (now : Instant) (q : List Bytes) (c : Connection) :
    (flushLoop now q c).sent = [] ∧ (flushLoop now q c).pending = [] ↔ c.sent = [] ∧ q = [] := by
  cases q with
  | nil => exact and_congr_right fun _ => iff_of_true rfl rfl
  | cons asdu rest =>
    refine iff_of_false ?_ fun h => List.cons_ne_nil _ _ h.2
    rw [flushLoop]
    split
    · rintro ⟨hsent, -⟩
      obtain ⟨fs, -, hfs⟩ := slides_flushLoop now rest (c.sendIframe asdu now)
      have hnil := (List.append_eq_nil_iff.mp (hfs.symm.trans hsent)).1
      exact List.append_ne_nil_of_right_ne_nil c.sent (List.cons_ne_nil _ []) hnil
    · rintro ⟨-, hpending⟩
      exact List.cons_ne_nil _ _ hpending

variable {c : Connection} {now : Instant} {input : Input}

theorem drained_eq_true :
    c.drained = true ↔ c.state = .stopping ∧ c.sent = [] ∧ c.pending = [] := by
  rw [drained, Bool.and_eq_true, Bool.and_eq_true, decide_eq_true_iff, List.isEmpty_iff,
    List.isEmpty_iff, and_assoc]

/-- An acknowledgement drains a stopping connection if it acknowledges
everything. -/
theorem drained_acknowledge {nr : SeqNo} : (c.acknowledge nr now).drained = true
      ↔ c.state = .stopping ∧ c.pending = [] ∧ ∀ e ∈ c.sent, acked nr e.1 = true := by
  have hflush := flushLoop_eq_nil_iff now c.pending
    { c with sent := c.sent.dropWhile fun e => acked nr e.1 }
  rw [drained_eq_true, acknowledge_state]
  refine and_congr_right fun _ => hflush.trans ?_
  rw [and_comm]
  exact and_congr_right fun _ => List.dropWhile_eq_nil_iff

/-- **What drains a client**: a stop with nothing outstanding, or an
acknowledgement of the rest. -/
theorem drained_onInput (hc : c.drained = false) (hr : c.role = .client)
    (input : Input) (now : Instant) :
    (c.onInput input now).drained = true ↔ c.stopsIdle input ∨ c.acksRest input := by
  -- an input that neither stops nor acknowledges
  have hother : ∀ {d : Connection}, d.drained = false → input ≠ .stopDt → c.processes input = none →
      (d.drained = true ↔ c.stopsIdle input ∨ c.acksRest input) := by
    intro d hd hne hp
    refine iff_of_false (Bool.eq_false_iff.mp hd) ?_
    rintro (⟨-, hstop, -⟩ | ⟨-, -, nr, hnr, -⟩)
    · exact hne hstop
    · rw [hp] at hnr
      cases hnr
  have hstate : ∀ {d : Connection}, d.state ≠ .stopping → d.drained = false :=
    fun hd => Bool.eq_false_iff.mpr fun h => hd (drained_eq_true.mp h).1
  have hleft : ∀ (d : Connection) (target : State), target ≠ .stopping →
      (d.transition target).drained = false :=
    fun d target ht => hstate (by rw [transition_state]; exact ht)
  have hacks : ∀ nr, c.processes input = some nr → input ≠ .stopDt →
      ((c.state = .stopping ∧ c.pending = [] ∧ ∀ e ∈ c.sent, acked nr e.1 = true)
        ↔ c.stopsIdle input ∨ c.acksRest input) := by
    intro nr hp hne
    rw [or_iff_right fun h : c.stopsIdle input => hne h.2.1, acksRest, hp]
    simp
  have h := course_onInput c input now
  generalize c.onInput input now = d at h ⊢
  cases h with
  | stop hs hrole =>
    rw [drained_eq_true, transition_state, transition_eq]
    have hnot : ¬ c.acksRest .stopDt := fun hrest => by
      rw [acksRest, hs] at hrest
      cases hrest.1
    rw [or_iff_left hnot]
    exact ⟨fun hd => ⟨hs, rfl, hd.2⟩, fun hidle => ⟨rfl, hidle.2.2⟩⟩
  | serverStop hs hrole => exact absurd hr hrole
  | noStop hs =>
    refine iff_of_false (Bool.eq_false_iff.mp hc) ?_
    rintro (hidle | ⟨-, -, nr, hnr, -⟩)
    · exact hs hidle.1
    · cases hnr
  | queue asdu hq =>
    refine hother (Bool.eq_false_iff.mpr fun hd => ?_) (by simp) rfl
    exact List.append_ne_nil_of_right_ne_nil c.pending (List.cons_ne_nil asdu [])
      (drained_eq_true.mp hd).2.2
  | send asdu hs hk => exact hother (hstate (by rw [sendIframe, hs]; decide)) (by simp) rfl
  | ack nr htr =>
    exact (drained_acknowledge (c := { c with lastRecvAny := some now })).trans
      (hacks nr (if_pos htr) (by simp))
  | noAck nr htr => exact hother hc (by simp) (if_neg (by rw [htr]; decide))
  | accept send recv asdu hacc =>
    have hdue : ∀ d : Connection, (d.ackIfDue now).drained = d.drained := by
      intro d
      unfold ackIfDue
      split <;> rfl
    rw [hdue]
    exact (drained_acknowledge (c := counted { c with lastRecvAny := some now } now)).trans
      (hacks recv (by rw [processes, hacc]; rfl) (by simp))
  | refuseI send recv asdu hacc =>
    exact hother (hleft _ .closed (by decide)) (by simp) (by rw [processes, hacc]; rfl)
  | refuseU function href => exact hother (hleft _ .closed (by decide)) (by simp) rfl
  | start hs => exact hother (hleft _ .starting (by decide)) (by simp) rfl
  | startDtCon | startDtAct =>
    refine hother (hstate ?_) (by simp) rfl
    rw [flushPending_state, transition_state]
    decide
  | stopDtAct hrole => exact hother (hleft _ .stopped (by decide)) (by simp) rfl
  | stopDtCon hrole hs he =>
    exact hother (hleft { c with lastRecvAny := some now } .stopped (by decide)) (by simp) rfl
  | _ => exact hother hc (by simp) rfl

/-- STOPDT_con leaves the queue alone. -/
theorem pending_stopDtCon (c : Connection) (now : Instant) :
    (c.onInput (.apdu (.u .stopDtCon)) now).pending = c.pending := by
  have h := course_onInput c (.apdu (.u .stopDtCon)) now
  generalize c.onInput _ now = d at h ⊢
  cases h with
  | stopDtCon hr hs he =>
    rw [transition_eq]
    rfl
  | earlyStopDtCon hr hs he => rfl
  | refuseU function href =>
    rw [reject, transition_eq]
    rfl

/-- The timers close what has drained, and leave its queues alone. -/
theorem queues_handle (c : Connection) (input : Input) (now : Instant) :
    (c.handle input now).1.sent = (c.onInput input now).sent
      ∧ (c.handle input now).1.pending = (c.onInput input now).pending :=
  ⟨congrArg SendView.sent (sendView_runTimers (c.onInput input now) now),
    congrArg SendView.pending (sendView_runTimers (c.onInput input now) now)⟩

theorem ends_eq_true : c.ends input = true
      ↔ input = .apdu (.u .stopDtCon) ∧ c.role = .client ∧ c.state = .stopping ∧ c.sent = [] := by
  constructor
  · intro h
    unfold ends at h
    split at h
    · simpa [refuses, and_assoc] using h
    · cases h
  · rintro ⟨rfl, hr, hs, he⟩
    rw [ends, hr, hs, he]
    rfl

/-- **A clean close is reported by STOPDT_con, or by the tail.** -/
theorem stoppedCleanly_mem_iff (hc : c.actions = []) (input : Input) (now : Instant) :
    .disconnect .stoppedCleanly ∈ (c.handle input now).2 ↔ c.ends input = true
        ∨ ((c.onInput input now).t1Expired now = false ∧ (c.onInput input now).drained = true) := by
  have hverdict : .stoppedCleanly ∈ c.verdict input ↔ c.ends input = true := by
    unfold verdict
    by_cases hend : c.ends input = true
    · obtain ⟨rfl, hr, hs, -⟩ := ends_eq_true.mp hend
      rw [rejects, hr, hs, if_neg (by decide), if_pos hend]
      exact iff_of_true (List.mem_singleton_self _) hend
    · rw [if_neg hend]
      refine iff_of_false ?_ hend
      split <;> decide
  have htimers : ∀ d : Connection, .stoppedCleanly ∈ d.timerVerdict now
      ↔ d.t1Expired now = false ∧ d.drained = true := by
    intro d
    unfold timerVerdict
    cases d.t1Expired now <;> cases d.drained <;> decide
  rw [disconnect_handle_iff hc, hverdict, htimers]

/-- The tail closes a client unless the answer to a TESTFR_act is overdue. -/
theorem t1Expired_of_drains (h : c.stopsIdle input ∨ c.acksRest input)
    (hd : (c.onInput input now).sent = []) :
    (c.onInput input now).t1Expired now = expired c.testSent c.config.t1 now := by
  have hcfg : (c.onInput input now).config = c.config :=
    congrArg Prod.snd (ident_onInput c input now)
  have htest : (c.onInput input now).testSent = c.testSent := by
    rw [testSent_onInput]
    refine if_neg ?_
    rintro rfl
    obtain ⟨-, hstop, -⟩ | ⟨-, -, nr, hnr, -⟩ := h
    · cases hstop
    · cases hnr
  rw [t1Expired, hd, hcfg, htest]
  rfl

/-- Between calls a client that is stopping has something outstanding. -/
theorem not_drained_of_run {role : Role} {config : Config} {h : List Call}
    (r : Run step (new role config) h c) : c.drained = false := by
  cases r with
  | nil => rfl
  | @snoc g d r i =>
    refine Bool.eq_false_iff.mpr fun hdrained => ?_
    obtain ⟨hstate, hqueues⟩ := drained_eq_true.mp hdrained
    have htail := (verdict_runTimers (d.onInput i.1 i.2) i.2).2
    obtain ⟨hsent, hpending⟩ := queues_handle d i.1 i.2
    change ((d.onInput i.1 i.2).runTimers i.2).state = .stopping at hstate
    rw [htail] at hstate
    split at hstate
    · cases hstate
    · split at hstate
      · cases hstate
      · rename_i hnot
        exact hnot (drained_eq_true.mpr
          ⟨hstate, hsent.symm.trans hqueues.1, hpending.symm.trans hqueues.2⟩)

end Connection

/-! ## Every run -/

section Run

variable {h : List Call} {c : Connection} {i : Input × Instant}

/-- A stop request with nothing outstanding is not yet confirmed. -/
theorem stopConfirmed_of_stopsIdle (hact : c.actions = []) (hr : c.role = .client)
    (hidle : c.stopsIdle i.1) :
    stopConfirmed (h ++ [call Connection.step c i]) = false := by
  have hcontrol : c.control i.1 = some .stopDtAct := by
    rw [hidle.2.1]
    exact if_pos ⟨hidle.1, hr⟩
  rw [stopConfirmed_snoc]
  exact if_pos (Connection.mem_of_control hact hcontrol)

/-- An input that is no request of the user sends no STOPDT_act. -/
theorem stopDtAct_not_mem (hact : c.actions = [])
    (hne : i.1 ≠ .stopDt) : .u .stopDtAct ∉ sends (call Connection.step c i).actions :=
  fun hm => hne (Connection.control_stopDtAct (Connection.control_of_mem hact rfl hm)).1

/-- An acknowledgement does not confirm. -/
theorem stopConfirmed_of_acksRest (hact : c.actions = []) (hrest : c.acksRest i.1) :
    stopConfirmed (h ++ [call Connection.step c i]) = stopConfirmed h := by
  obtain ⟨-, -, nr, hnr, -⟩ := hrest
  have hprocesses : ∀ input, c.processes input = none → i.1 ≠ input := by
    rintro input hp rfl
    rw [hp] at hnr
    cases hnr
  rw [stopConfirmed_snoc, if_neg (stopDtAct_not_mem hact (hprocesses .stopDt rfl))]
  exact if_neg (hprocesses (.apdu (.u .stopDtCon)) rfl)

end Run

/-- **A client stops cleanly exactly where it does not close early.** -/
theorem clean_stop_iff {config : Config} {h : List Call} {c : Connection}
    (r : Run Connection.step (Connection.new .client config) h c) (i : Input × Instant) :
    StopsCleanly (h ++ [call Connection.step c i]) (c.step i).1 (c.step i).2
      ↔ ¬ Connection.ClosesEarly h c i := by
  obtain ⟨hr, -, hact⟩ := Connection.ident_of_run r
  have hnot := Connection.not_drained_of_run r
  have hdrained := Connection.drained_onInput hnot hr i.1 i.2
  obtain ⟨hsent, hpending⟩ := Connection.queues_handle c i.1 i.2
  -- when the tail closes, and what is left then
  have htail : (c.onInput i.1 i.2).drained = true →
      (c.step i).1.sent = [] ∧ (c.step i).1.pending = []
        ∧ (c.onInput i.1 i.2).t1Expired i.2
          = Connection.expired c.testSent c.config.t1 i.2 := by
    intro hd
    obtain ⟨-, hs, hp⟩ := Connection.drained_eq_true.mp hd
    exact ⟨hsent.trans hs, hpending.trans hp,
      Connection.t1Expired_of_drains (hdrained.mp hd) hs⟩
  constructor
  · intro hclean hearly
    obtain ⟨hs, hin, he, hp⟩ | ⟨hlive, hcase⟩ := hearly
    · have hend : c.ends i.1 = true := Connection.ends_eq_true.mpr ⟨hin, hr, hs, he⟩
      have hempty := (hclean ((Connection.stoppedCleanly_mem_iff hact i.1 i.2).mpr
        (Or.inl hend))).2.2
      have hkeep : (c.step i).1.pending = c.pending := by
        refine hpending.trans ?_
        rw [hin]
        exact Connection.pending_stopDtCon c i.2
      exact hp (hkeep.symm.trans hempty)
    · have hd : (c.onInput i.1 i.2).drained = true :=
        hdrained.mpr (hcase.imp id And.left)
      have hconf := (hclean ((Connection.stoppedCleanly_mem_iff hact i.1 i.2).mpr
        (Or.inr ⟨(htail hd).2.2.trans hlive, hd⟩))).1
      obtain hidle | ⟨hrest, hunconf⟩ := hcase
      · rw [stopConfirmed_of_stopsIdle hact hr hidle] at hconf
        cases hconf
      · rw [stopConfirmed_of_acksRest hact hrest, hunconf] at hconf
        cases hconf
  · intro hearly hclose
    obtain hend | ⟨hlive, hd⟩ := (Connection.stoppedCleanly_mem_iff hact i.1 i.2).mp hclose
    · obtain ⟨hin, -, hs, he⟩ := Connection.ends_eq_true.mp hend
      -- nothing unacknowledged while stopping: something is queued
      refine absurd (Or.inl ⟨hs, hin, he, fun hp => ?_⟩) hearly
      exact Bool.eq_false_iff.mp hnot (Connection.drained_eq_true.mpr ⟨hs, he, hp⟩)
    · obtain ⟨hs, hp, hlive'⟩ := htail hd
      refine ⟨?_, hs, hp⟩
      rw [hlive'] at hlive
      obtain hidle | hrest := hdrained.mp hd
      · exact absurd (Or.inr ⟨hlive, Or.inl hidle⟩) hearly
      · rw [stopConfirmed_of_acksRest hact hrest]
        by_contra hunconf
        exact hearly (Or.inr ⟨hlive, Or.inr ⟨hrest, Bool.eq_false_iff.mpr hunconf⟩⟩)

/-- The clean close as it should be: STOPDT_con comes first, and then the
acknowledgement of the last I-frame. -/
theorem clean_stop_confirmed :
    let is : List (Input × Instant) := [(.startDt, 0), (.apdu (.u .startDtCon), 0),
      (.sendAsdu [1], 0), (.stopDt, 1), (.apdu (.u .stopDtCon), 2)]
    let e := exec Connection.step (Connection.new .client .default) is
    let i : Input × Instant := (.apdu (.s (SeqNo.new 1)), 3)
    .disconnect .stoppedCleanly ∈ (e.2.step i).2
      ∧ StopsCleanly (e.1 ++ [call Connection.step e.2 i]) (e.2.step i).1 (e.2.step i).2 := by
  intro is e i
  refine ⟨by decide, (clean_stop_iff (run_exec _ _ is) i).mpr ?_⟩
  rintro (habandons | ⟨-, hidle | ⟨-, hunconf⟩⟩)
  · exact absurd habandons.2.1 (by decide)
  · exact absurd hidle.2.1 (by decide)
  · exact absurd hunconf (by decide)

/-- **A clean close without STOPDT_con**: the call that sends STOPDT_act closes
the connection. -/
theorem clean_stop_unconfirmed :
    let e := exec Connection.step (Connection.new .client .default)
      [(.startDt, 0), (.apdu (.u .startDtCon), 0)]
    (e.2.step (.stopDt, 1)).2
        = [.sendApdu (.u .stopDtAct), .stateChanged .stopping, .stateChanged .stopped,
          .disconnect .stoppedCleanly]
      ∧ ¬ StopsCleanly (e.1 ++ [call Connection.step e.2 (.stopDt, 1)])
        (e.2.step (.stopDt, 1)).1 (e.2.step (.stopDt, 1)).2 := by
  decide

end Frame104
