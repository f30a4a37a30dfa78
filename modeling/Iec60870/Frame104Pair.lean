import Iec60870.Duplex
import Iec60870.Frame104Send
import Iec60870.Frame104Recv

/-!
# Two connections over a reliable link

A client and a server joined by two FIFO channels, each halting with the
batch that contains a `Disconnect`. In every interleaving of user requests,
deliveries and clock ticks, what one side has delivered is a prefix of what
the other side's user submitted, and an entry leaves `sent` only after the
peer has accepted its I-frame.

The first half follows from the two sides taken alone. A connection that has
not halted has accepted every I-frame it has taken, since a refused one
disconnects; the channel is FIFO; and `send_side` has the rest. The second
half needs both machines and the acknowledgements in flight between them:
counted in full rather than modulo `2 ^ 15`, the number of entries removed,
the acknowledgements under way and the number of I-frames the peer has
accepted form an increasing sequence (`AckInv`). Each call extends it at one
end or shortens it at the other.
-/

open Cyclic Machine

namespace Frame104

open Connection Net

/-! ## What an acknowledgement removes -/

/-- **The window of `w` is that of `v`** without its first `n` entries, and with one for
each I-frame that was sent, with the clock of the call. -/
def SendView.Slides (now : Instant) (v w : SendView) (n : ℕ) : Prop :=
  ∃ fs, w.frames = v.frames ++ fs ∧ w.sent = v.sent.drop n ++ fs.map fun f : Iframe => (f.send, now)

theorem SendView.Slides.of_eq {now : Instant} {v w : SendView} (hf : w.frames = v.frames)
    (hs : w.sent = v.sent) : v.Slides now w 0 :=
  ⟨[], hf.trans (List.append_nil _).symm, hs.trans (List.append_nil _).symm⟩

namespace Connection

/-- The receive number a connection acts on with an input, if any: that of
an accepted I-frame, or of an S-frame in the data-transfer phase. -/
def processes (c : Connection) : Input → Option SeqNo
  | .apdu (.i send recv asdu) =>
    (c.accepts (.apdu (.i send recv asdu))).map Iframe.recv
  | .apdu (.s recv) => if c.state.isTransfer then some recv else none
  | .apdu (.u _) => none
  | .startDt => none
  | .stopDt => none
  | .sendAsdu _ => none
  | .tick => none

/-- The number of entries an input removes from `sent`. -/
def dropped (c : Connection) (input : Input) : ℕ :=
  match c.processes input with
  | none => 0
  | some nr =>
    c.sent.length - (c.sent.dropWhile (fun e => acked nr e.1)).length

variable {c : Connection} {input : Input}

theorem dropped_of_none (h : c.processes input = none) : c.dropped input = 0 := by
  rw [dropped, h]

theorem dropped_of_some {nr : SeqNo} (h : c.processes input = some nr) :
    c.dropped input = c.sent.length - (c.sent.dropWhile (fun e => acked nr e.1)).length := by
  rw [dropped, h]

/-- The loop of `acknowledge` drops entries from the front of `sent`. -/
theorem drop_dropped {nr : SeqNo} (h : c.processes input = some nr) :
    c.sent.drop (c.dropped input) = c.sent.dropWhile fun e => acked nr e.1 := by
  rw [dropped_of_some h]
  exact (List.suffix_iff_eq_drop.mp (List.dropWhile_suffix _)).symm

/-- The flush loop adds to `sent` what it sends. -/
theorem slides_flushLoop (now : Instant) (q : List Bytes) (c : Connection) :
    c.sendView.Slides now (flushLoop now q c).sendView 0 := by
  induction q generalizing c with
  | nil => exact .of_eq rfl rfl
  | cons asdu rest ih =>
    rw [flushLoop]
    split
    · obtain ⟨fs, hframes, hsent⟩ := ih (c.sendIframe asdu now)
      rw [sendView_sendIframe] at hframes hsent
      exact ⟨⟨c.sendNext, c.recvNext, asdu⟩ :: fs, hframes.trans (List.append_assoc ..),
        hsent.trans (List.append_assoc ..)⟩
    · exact .of_eq rfl rfl

/-- **What an input does to the window**: it loses what the input
acknowledges and gains what is sent. -/
theorem slides_onInput (c : Connection) (input : Input) (now : Instant) :
    c.sendView.Slides now (c.onInput input now).sendView (c.dropped input) := by
  have hack {input : Input} {nr : SeqNo} (hp : c.processes input = some nr) (d : Connection)
      (hd : d.sendView = c.sendView) :
      c.sendView.Slides now (d.acknowledge nr now).sendView (c.dropped input) := by
    obtain ⟨fs, hframes, hsent⟩ := slides_flushLoop now d.pending
      { d with sent := d.sent.dropWhile fun e => acked nr e.1 }
    have hsame : d.sent = c.sent := congrArg SendView.sent hd
    refine ⟨fs, hframes.trans (congrArg (fun v => v.frames ++ fs) hd), hsent.trans ?_⟩
    show d.sent.dropWhile _ ++ _ = c.sent.drop _ ++ _
    rw [drop_dropped hp, hsame]
  have hrest {input : Input} {v w : SendView} (hp : c.processes input = none)
      (hs : v.Slides now w 0) (hv : v = c.sendView) :
      c.sendView.Slides now w (c.dropped input) := by
    rw [dropped_of_none hp, ← hv]
    exact hs
  have hkeep {input : Input} {v : SendView} (hp : c.processes input = none)
      (hv : v = c.sendView) : c.sendView.Slides now v (c.dropped input) :=
    hrest hp (.of_eq rfl rfl) hv
  have h := course_onInput c input now
  generalize c.onInput input now = d at h ⊢
  cases h with
  | accept send recv asdu h =>
    rw [sendView_accepted]
    exact hack (by rw [processes, h]; rfl) (counted { c with lastRecvAny := some now } now) rfl
  | ack nr h =>
    have hp : c.processes (.apdu (.s nr)) = some nr := if_pos h
    exact hack hp { c with lastRecvAny := some now } rfl
  | noAck nr h => exact hkeep (if_neg (by rw [h]; decide)) rfl
  | refuseI send recv asdu h => exact hkeep (by rw [processes, h]; rfl) (sendView_reject _)
  | refuseU function h => exact hkeep rfl (sendView_reject _)
  -- The handshake's last frame flushes what was sent before it.
  | startDtCon hr hs => exact hrest rfl (slides_flushLoop now _ _) (sendView_transition _ _)
  | startDtAct hr hs =>
    exact hrest rfl (slides_flushLoop now _ _)
      ((sendView_transition _ _).trans (sendView_emitU _ _ now))
  | send asdu hs hk =>
    rw [sendView_sendIframe]
    exact hrest rfl ⟨[⟨c.sendNext, c.recvNext, asdu⟩], rfl, rfl⟩ rfl
  | queue asdu h => exact hrest (v := c.sendView) rfl (.of_eq rfl rfl) rfl
  | start | stop | serverStop => exact hkeep rfl (by simp)
  | stopDtAct | stopDtCon | testFrAct => exact hkeep rfl (by simp; rfl)
  | _ => exact hkeep rfl rfl

end Connection

/-- **The number of entries a connection has removed** from `sent` so far. -/
def removed (h : List Call) (c : Connection) : ℕ :=
  (emitted h).length - c.sent.length

section Removed

variable {role : Role} {config : Config} {h : List Call} {c : Connection} {q : ℕ}

section

variable (r : Run Connection.step (Connection.new role config) h c)

include r

/-- Between calls the window of unacknowledged frames starts after those
removed. -/
theorem sent_of_run : c.sent.length ≤ (emitted h).length
      ∧ Window (2 ^ 15) (removed h c) (c.sent.map (fun e => e.1.value)) := by
  obtain ⟨hinv, -⟩ := sendInv_of_run r
  have hframes := frames_of_run r
  have hcov := hinv.covers
  have hwin := hinv.window
  rw [hframes, List.append_nil] at hcov hwin
  exact ⟨hcov, hwin⟩

/-- **The entries of `sent` are the I-frames emitted after those removed.** -/
theorem sent_eq_of_run :
    c.sent.map Prod.fst = ((emitted h).drop (removed h c)).map Iframe.send := by
  obtain ⟨hcov, hwin⟩ := sent_of_run r
  obtain ⟨hinv, -⟩ := sendInv_of_run r
  have hnum := hinv.numbered
  rw [frames_of_run r, List.append_nil] at hnum
  have hdrop := hnum.drop (n := removed h c) (by
    rw [List.length_map]
    exact Nat.sub_le _ _)
  rw [Nat.zero_add, ← List.map_drop] at hdrop
  have hvals : c.sent.map (fun e => e.1.value)
      = ((emitted h).drop (removed h c)).map (fun f => f.send.value) := by
    refine hwin.eq_of_length hdrop ?_
    rw [List.length_map, List.length_map, List.length_drop, removed]
    omega
  have hinj : Function.Injective SeqNo.value := fun _ _ => SeqNo.ext_value
  refine List.map_injective_iff.mpr hinj ?_
  rw [List.map_map, List.map_map]
  exact hvals

/-- A call removes what its input acknowledges. -/
theorem removed_step (i : Input × Instant) :
    removed (h ++ [call Connection.step c i]) (Connection.step c i).1
      = removed h c + c.dropped i.1 := by
  obtain ⟨fs, hframes, hsent⟩ := slides_onInput c i.1 i.2
  obtain ⟨hcov, -⟩ := sent_of_run r
  have hle : c.dropped i.1 ≤ c.sent.length := by
    unfold Connection.dropped
    split <;> omega
  rw [← sendView_runTimers, frames_of_run r] at hframes
  rw [← sendView_runTimers (c.onInput i.1 i.2) i.2] at hsent
  have hlen := congrArg List.length hsent
  rw [List.length_append, List.length_drop, List.length_map, ← List.nil_append fs,
    ← hframes] at hlen
  change (Connection.step c i).1.sent.length
    = c.sent.length - c.dropped i.1 + (iframes (Connection.step c i).2).length at hlen
  unfold removed
  rw [emitted_append, emitted_singleton, call_actions, List.length_append]
  omega

end

/-- The loop test of `acknowledge` is the cyclic comparison. -/
theorem acked_eq (nr seq : SeqNo) : Connection.acked nr seq
      = decide (Behind (2 ^ 15) (2 ^ 14 - 1) seq.value nr.value) := by
  rw [Bool.eq_iff_iff, decide_eq_true_iff, Connection.acked,
    SeqNo.distance_eq, show SeqNo.MAX / 2 = 2 ^ 14 - 1 from rfl, Behind]
  simp

/-- **An acknowledgement removes no more than it covers**: one that counts
`q` I-frames leaves at most `q` removed. -/
theorem removed_add_dropped_le
    (r : Run Connection.step (Connection.new role config) h c) (input : Input)
    (hq : ∀ nr, c.processes input = some nr → nr.value = q % 2 ^ 15)
    (hle : removed h c ≤ q) : removed h c + c.dropped input ≤ q := by
  obtain ⟨-, hwin⟩ := sent_of_run r
  cases hp : c.processes input with
  | none =>
    rw [dropped_of_none hp]
    exact hle
  | some nr =>
    obtain ⟨n, hn, hd, hqn⟩ := exists_drop_le
      (fun e : SeqNo × Instant => e.1.value) (H := 2 ^ 14 - 1)
      (Nat.two_pow_pos 15) hwin hle
    rw [dropped_of_some hp]
    simp only [acked_eq, hq nr hp]
    rw [hd, List.length_drop]
    omega

/-- **Within the half-range an acknowledgement removes all it covers.** -/
theorem removed_add_dropped_eq
    (r : Run Connection.step (Connection.new role config) h c) {input : Input}
    {nr : SeqNo} (hp : c.processes input = some nr)
    (hq : nr.value = q % 2 ^ 15) (hle : removed h c ≤ q)
    (hqe : q ≤ (emitted h).length) (hk : config.k.toNat ≤ 2 ^ 14 - 1) :
    removed h c + c.dropped input = q := by
  obtain ⟨hcov, hwin⟩ := sent_of_run r
  obtain ⟨hinv, -⟩ := sendInv_of_run r
  obtain ⟨-, hcfg, -⟩ := ident_of_run r
  have hroom : c.sent.length ≤ config.k.toNat := by
    rw [← hcfg]
    exact hinv.room
  have hlen : removed h c + c.sent.length = (emitted h).length :=
    Nat.sub_add_cancel hcov
  have hd := dropWhile_behind (fun e : SeqNo × Instant => e.1.value)
    (H := 2 ^ 14 - 1) (by decide) hwin hle (by omega) (by omega)
  rw [dropped_of_some hp]
  simp only [acked_eq, hq]
  rw [hd, List.length_drop]
  omega

end Removed

/-! ## A refused I-frame disconnects -/

namespace Connection

/-- The timers add to the actions queued. -/
theorem exists_actions_runTimers (c : Connection) (now : Instant) :
    ∃ as, (c.runTimers now).actions = c.actions ++ as := by
  have ht : ∀ (d : Connection) (target : State),
      ∃ as, (d.transition target).actions = d.actions ++ as := by
    intro d target
    rw [transition_eq]
    exact ⟨_, rfl⟩
  refine runTimers_rel c now (R := fun d e => ∃ as, e.actions = d.actions ++ as)
    (fun d => ⟨[], (List.append_nil _).symm⟩) ?_ ?_ (fun d => ⟨_, rfl⟩)
    (fun d => ⟨_, rfl⟩) ?_
  · rintro d e f ⟨as, has⟩ ⟨bs, hbs⟩
    exact ⟨as ++ bs, by rw [hbs, has, List.append_assoc]⟩
  · intro d
    obtain ⟨as, has⟩ := ht (d.push (.disconnect .ackTimeout)) .closed
    exact ⟨.disconnect .ackTimeout :: as, by
      rw [timeOut, has, push, List.append_assoc]
      rfl⟩
  · intro d
    obtain ⟨as, has⟩ := ht d .stopped
    exact ⟨as ++ [.disconnect .stoppedCleanly], by
      rw [push, has, List.append_assoc]⟩

/-- A refused I-frame disconnects. -/
theorem disconnects_of_refused {c : Connection} {send recv : SeqNo}
    {asdu : Bytes} (h : c.accepts (.apdu (.i send recv asdu)) = none)
    (now : Instant) :
    disconnects (c.handle (.apdu (.i send recv asdu)) now).2 = true := by
  obtain ⟨as, has⟩ := exists_actions_runTimers (c.onInput (.apdu (.i send recv asdu)) now) now
  have hin : c.onInput (.apdu (.i send recv asdu)) now
      = { c with lastRecvAny := some now }.reject :=
    onIFrame_of_refused (c := { c with lastRecvAny := some now }) h
  show disconnects ((c.onInput _ now).runTimers now).actions = true
  rw [has, hin, disconnects_append, reject, transition_eq]
  simp [push]

end Connection

/-! ## The pair -/

/-- The APDU an input carries, if it carries one. -/
@[simp] def Input.apdu? : Input → Option Apdu
  | .apdu m => some m
  | .startDt => none
  | .stopDt => none
  | .sendAsdu _ => none
  | .tick => none

/-- The role at each end of a link. -/
def roleAt : Side → Role
  | .left => .client
  | .right => .server

/-- **A client and a server over a reliable link.** An end halts with the
batch that contains a `Disconnect`, as the driver does; `allowed` says which
requests the users make. -/
def pair (allowed : Side → Input → Prop) :
    Net Connection (Input × Instant) Action Apdu where
  step := Connection.step
  offers x _ i := i.1.apdu? = none ∧ allowed x i.1
  receives apdu i := i.1 = .apdu apdu
  ignores _ := False
  message := Action.apdu?
  halts := Action.isDisconnect
  lossy := False

instance (allowed : Side → Input → Prop)
    [∀ x i, Decidable (allowed x i)] (x : Side) (h : List Call)
    (i : Input × Instant) : Decidable ((pair allowed).offers x h i) :=
  inferInstanceAs (Decidable (_ ∧ _))

instance (allowed : Side → Input → Prop) (apdu : Apdu)
    (i : Input × Instant) : Decidable ((pair allowed).receives apdu i) :=
  inferInstanceAs (Decidable (_ = _))

instance (allowed : Side → Input → Prop) : Decidable (pair allowed).lossy :=
  inferInstanceAs (Decidable False)

/-- A state of the pair. -/
abbrev Pair := Net.State Connection (Input × Instant) Action Apdu

/-- The pair before anything has happened. -/
def pairInit (config : Side → Config) : Pair :=
  Net.State.init (fun x => Connection.new (roleAt x) (config x))

/-- The APDUs emitted by the calls of a history. -/
def emittedApdus (h : List Call) : List Apdu :=
  h.flatMap (fun c => sends c.actions)

theorem emitted_eq (h : List Call) : emitted h = (emittedApdus h).filterMap Apdu.iframe? := by
  rw [emitted, emittedApdus, List.filterMap_flatMap]
  rfl

@[simp] theorem emittedApdus_append (g h : List Call) :
    emittedApdus (g ++ h) = emittedApdus g ++ emittedApdus h :=
  List.flatMap_append

@[simp] theorem emittedApdus_singleton (c : Call) : emittedApdus [c] = sends c.actions := by
  simp [emittedApdus]

section Reachable

variable {allowed : Side → Input → Prop} {config : Side → Config} {s : Pair}
  {c : Connection} {input : Input}

section

variable (hs : (pair allowed).Reachable (pairInit config) s) (x : Side)

include hs

/-- Each end of the pair is a run of its connection. -/
theorem run_of_pair : Run Connection.step (Connection.new (roleAt x) (config x)) (s.past x)
      (s.node x) :=
  run_of_reachable hs x

/-- What one end has emitted is what the other has taken, then what is in
flight. -/
theorem emittedApdus_of_pair : emittedApdus (s.past x) = s.taken x.other ++ s.inbox x.other :=
  sent_eq_of_reachable (N := pair allowed) (fun h => h) hs x

/-- What an end has taken is what its calls received. -/
theorem taken_of_pair : s.taken x = (s.past x).filterMap (fun c => c.input.1.apdu?) := by
  refine taken_eq_of_reachable (N := pair allowed) (fun i => i.1.apdu?) ?_ ?_ (fun _ h => h) hs x
  · intro m i hm
    show i.1.apdu? = some m
    rw [show i.1 = .apdu m from hm]
    rfl
  · intro _ _ i hoff
    exact hoff.1

end

/-- A call accepts an I-frame it took or none, and disconnects if it refuses
one. -/
theorem accepts_eq_or (c : Connection) (i : Input × Instant) :
    c.accepts i.1 = i.1.apdu?.bind Apdu.iframe?
      ∨ (c.accepts i.1 = none ∧ disconnects (c.step i).2 = true) := by
  obtain ⟨input, now⟩ := i
  cases input with
  | apdu apdu =>
    cases apdu with
    | i send recv asdu =>
      cases hacc : c.accepts (.apdu (.i send recv asdu)) with
      | none => exact Or.inr ⟨rfl, disconnects_of_refused hacc now⟩
      | some f =>
        obtain ⟨-, -, rfl⟩ := accepts_iframe hacc
        exact Or.inl rfl
    | s | u => exact Or.inl rfl
  | startDt | stopDt | sendAsdu | tick => exact Or.inl rfl

/-- **A live connection has accepted every I-frame it has taken**, and a
halted one all but perhaps the last. -/
theorem accepted_of_haltsLast {h : List Call} {halted : Bool}
    (hreal : ∀ c ∈ h, c = call Connection.step c.before c.input)
    (hh : (pair allowed).HaltsLast halted h) : (halted = false → accepted h
        = (h.filterMap (fun c => c.input.1.apdu?)).filterMap Apdu.iframe?)
      ∧ accepted h <+: (h.filterMap (fun c => c.input.1.apdu?)).filterMap Apdu.iframe? := by
  -- a history without a disconnect has refused nothing
  have hquiet : ∀ g : List Call, (∀ c ∈ g, c = call Connection.step c.before c.input) →
      (pair allowed).Quiet g →
      accepted g = (g.filterMap (fun c => c.input.1.apdu?)).filterMap Apdu.iframe? := by
    intro g hg hq
    rw [List.filterMap_filterMap]
    refine List.filterMap_congr fun c hc => ?_
    obtain h | ⟨-, h⟩ := accepts_eq_or c.before c.input
    · exact h
    · have hc' : c.actions = (c.before.step c.input).2 :=
        congrArg Call.actions (hg c hc)
      rw [← hc', disconnects, List.any_eq_true] at h
      obtain ⟨a, ha, hd⟩ := h
      exact absurd hd (Bool.eq_false_iff.mp (hq c hc a ha))
  obtain ⟨rfl, hq⟩ | ⟨rfl, g, c, i, rfl, hq⟩ := hh
  · exact ⟨fun _ => hquiet h hreal hq, (hquiet h hreal hq) ▸ List.prefix_refl _⟩
  · refine ⟨fun hf => absurd hf (by decide), ?_⟩
    have hg := hquiet g (fun d hd => hreal d (List.mem_append_left _ hd)) hq
    rw [accepted_append, hg, List.filterMap_append, List.filterMap_append]
    refine (List.prefix_append_right_inj _).mpr ?_
    rw [accepted_singleton]
    show (c.accepts i.1).toList <+: _
    obtain h | ⟨h, -⟩ := accepts_eq_or c i
    · rw [h, show [call (pair allowed).step c i].filterMap
          (fun c => c.input.1.apdu?) = i.1.apdu?.toList from
        filterMap_singleton _ _]
      cases i.1.apdu? with
      | none => exact List.prefix_refl _
      | some m =>
        rw [Option.toList_some, filterMap_singleton]
        exact List.prefix_refl _
    · rw [h]
      exact List.nil_prefix

/-- A live end has accepted every I-frame it has taken. -/
theorem accepted_of_live (hs : (pair allowed).Reachable (pairInit config) s)
    {x : Side} (live : s.halted x = false) :
    accepted (s.past x) = (s.taken x).filterMap Apdu.iframe? := by
  rw [taken_of_pair hs x]
  exact (accepted_of_haltsLast (fun c hc => ((run_of_pair hs x).of_mem hc).2)
    (quiet_of_reachable hs x)).1 live

/-- **What one end has accepted is a prefix of what the other has
emitted.** -/
theorem accepted_isPrefix_emitted (hs : (pair allowed).Reachable (pairInit config) s) (x : Side) :
    accepted (s.past x.other) <+: emitted (s.past x) := by
  have hacc := (accepted_of_haltsLast (fun c hc => ((run_of_pair hs x.other).of_mem hc).2)
    (quiet_of_reachable hs x.other)).2
  rw [← taken_of_pair hs x.other] at hacc
  rw [emitted_eq, emittedApdus_of_pair hs x, List.filterMap_append]
  exact hacc.trans (List.prefix_append _ _)

/-! ## The acknowledgements in flight -/

/-- **The acknowledgements in flight to `x`**, counted in full: from the
number of entries `x` has removed, over the counts `Q` under way, to the
number of I-frames its peer has accepted, they increase. -/
structure AckInv (s : Pair) (x : Side) (Q : List ℕ) : Prop where
  /-- The receive numbers in flight are the counts modulo `2 ^ 15`. -/
  inflight : ((s.inbox x).filterMap Apdu.nr?).map SeqNo.value = Q.map (· % 2 ^ 15)
  /-- The counts increase. -/
  mono : Q.Pairwise (· ≤ ·)
  /-- None is behind what was removed. -/
  low : ∀ q ∈ Q, removed (s.past x) (s.node x) ≤ q
  /-- None is ahead of what was accepted. -/
  high : ∀ q ∈ Q, q ≤ (accepted (s.past x.other)).length
  /-- No entry was removed that was not accepted. -/
  le : removed (s.past x) (s.node x) ≤ (accepted (s.past x.other)).length

/-- A receive number acted on is that of the APDU taken. -/
theorem nr_of_processes {nr : SeqNo} (h : c.processes input = some nr) :
    input.apdu?.bind Apdu.nr? = some nr := by
  unfold Connection.processes at h
  split at h
  · obtain ⟨f, hf, rfl⟩ := Option.map_eq_some_iff.mp h
    rw [(accepts_iframe hf).2.2]
    rfl
  · split at h
    · exact h
    · exact absurd h (by simp)
  all_goals exact absurd h (by simp)

namespace AckInv

variable {x : Side} {Q : List ℕ} {role : Role} {cfg : Config} {m : Apdu} {rest : List Apdu}
  {nr : SeqNo}

section

variable (h : AckInv s x Q)

include h

/-- A call of the peer appends the count it has reached, once for each
receive number it sends. -/
theorem peer_call (r : Run Connection.step (Connection.new role cfg) (s.past x.other)
      (s.node x.other)) (i : Input × Instant) :
    AckInv ((pair allowed).perform s x.other i) x (Q ++ List.replicate
        (nrs (Connection.step (s.node x.other) i).2).length (accepted (s.past x.other
          ++ [call Connection.step (s.node x.other) i])).length) := by
  obtain ⟨n, hn, -⟩ := exists_nrs_of_run r i
  have hcount := (recvInv_of_run (r.snoc i)).counted
  have hgrow : (accepted (s.past x.other)).length ≤ (accepted (s.past x.other
          ++ [call Connection.step (s.node x.other) i])).length := by
    rw [accepted_append, List.length_append]
    exact Nat.le_add_right _ _
  refine ⟨?_, ?_, ?_, ?_, ?_⟩
  · -- the new messages carry the count the call ends with
    rw [perform_peer_inbox, List.filterMap_append, List.map_append,
      h.inflight, List.map_append, List.map_replicate]
    refine congrArg _ ?_
    show (nrs (Connection.step (s.node x.other) i).2).map _ = _
    rw [hn, List.map_replicate, List.length_replicate, hcount]
  · refine List.pairwise_append.mpr ⟨h.mono, List.pairwise_replicate.mpr (Or.inr le_rfl), ?_⟩
    intro q hq q' hq'
    rw [List.eq_of_mem_replicate hq']
    exact (h.high q hq).trans hgrow
  · intro q hq
    rw [perform_peer_past, perform_peer_node]
    obtain hq | hq := List.mem_append.mp hq
    · exact h.low q hq
    · rw [List.eq_of_mem_replicate hq]
      exact h.le.trans hgrow
  · intro q hq
    rw [perform_past_self]
    obtain hq | hq := List.mem_append.mp hq
    · exact (h.high q hq).trans hgrow
    · exact (List.eq_of_mem_replicate hq).le
  · rw [perform_peer_past, perform_peer_node, perform_past_self]
    exact h.le.trans hgrow

/-- A call of `x` itself removes no more than the least count still in
flight. -/
theorem own_call (r : Run Connection.step (Connection.new role cfg) (s.past x) (s.node x))
    (i : Input × Instant) (hle : ∀ q ∈ Q ++ [(accepted (s.past x.other)).length],
      removed (s.past x) (s.node x) + (s.node x).dropped i.1 ≤ q) :
    AckInv ((pair allowed).perform s x i) x Q := by
  have hrem : removed (((pair allowed).perform s x i).past x)
      (((pair allowed).perform s x i).node x)
      = removed (s.past x) (s.node x) + (s.node x).dropped i.1 := by
    rw [perform_past_self, perform_node_self]
    exact removed_step r i
  refine ⟨?_, h.mono, ?_, ?_, ?_⟩
  · rw [perform_inbox_self]
    exact h.inflight
  · intro q hq
    rw [hrem]
    exact hle q (List.mem_append_left _ hq)
  · rw [perform_past_other]
    exact h.high
  · rw [hrem, perform_past_other]
    exact hle _ List.mem_concat_self

/-- Taking a message without a receive number leaves the counts alone. -/
theorem pop_other (hin : s.inbox x = m :: rest) (hm : m.nr? = none) :
    AckInv (s.pop x m rest) x Q := by
  refine ⟨?_, h.mono, h.low, h.high, h.le⟩
  have hi := h.inflight
  rw [hin, filterMap_cons_toList, hm] at hi
  rw [pop_inbox_self]
  exact hi

/-- Taking a message with one takes the first count. -/
theorem pop_nr (hin : s.inbox x = m :: rest) (hm : m.nr? = some nr) :
    ∃ q Q', Q = q :: Q' ∧ nr.value = q % 2 ^ 15 ∧ AckInv (s.pop x m rest) x Q' := by
  have hi := h.inflight
  rw [hin, filterMap_cons_toList, hm, Option.toList_some,
    List.singleton_append, List.map_cons] at hi
  cases Q with
  | nil => exact absurd hi (by simp)
  | cons q Q' =>
    rw [List.map_cons, List.cons.injEq] at hi
    refine ⟨q, Q', rfl, hi.1, ?_, (List.pairwise_cons.mp h.mono).2,
      fun q' hq => h.low q' (List.mem_cons_of_mem q hq),
      fun q' hq => h.high q' (List.mem_cons_of_mem q hq), h.le⟩
    rw [pop_inbox_self]
    exact hi.2

/-- What the peer takes does not touch what is in flight to `x`. -/
theorem pop_peer (m : Apdu) (rest : List Apdu) : AckInv (s.pop x.other m rest) x Q := by
  refine ⟨?_, h.mono, h.low, h.high, h.le⟩
  rw [pop_peer_inbox]
  exact h.inflight

/-- Nothing removed is ahead of a count in flight, or of what was
accepted. -/
theorem removed_le {q : ℕ} (hq : q ∈ Q ++ [(accepted (s.past x.other)).length]) :
    removed (s.past x) (s.node x) ≤ q := by
  obtain hq | hq := List.mem_append.mp hq
  · exact h.low q hq
  · rw [List.mem_singleton.mp hq]
    exact h.le

/-- A call of `x` that acts on no receive number leaves the counts alone. -/
theorem own_call_none (r : Run Connection.step (Connection.new role cfg) (s.past x) (s.node x))
    (i : Input × Instant) (hp : (s.node x).processes i.1 = none) :
    AckInv ((pair allowed).perform s x i) x Q := by
  refine h.own_call r i fun q hq => ?_
  rw [dropped_of_none hp]
  exact h.removed_le hq

/-- A call of `x` on a message with a receive number takes the first
count, which bounds what is removed and is the least of all. -/
theorem own_take_nr (r : Run Connection.step (Connection.new role cfg) (s.past x) (s.node x))
    (hin : s.inbox x = m :: rest) (hm : m.nr? = some nr)
    (i : Input × Instant) (hi : i.1 = .apdu m) :
    ∃ q Q', Q = q :: Q' ∧ nr.value = q % 2 ^ 15
      ∧ AckInv ((pair allowed).perform (s.pop x m rest) x i) x Q' := by
  obtain ⟨q₀, Q', rfl, hq₀, hQ'⟩ := h.pop_nr hin hm
  refine ⟨q₀, Q', rfl, hq₀, hQ'.own_call r i fun q hq => ?_⟩
  have hle := removed_add_dropped_le r i.1 (q := q₀) (fun nr' h' => by
      have hnr := nr_of_processes h'
      rw [hi] at hnr
      change m.nr? = some nr' at hnr
      rw [hm, Option.some.injEq] at hnr
      rw [← hnr, hq₀])
    (h.low q₀ List.mem_cons_self)
  refine hle.trans ?_
  obtain hq | hq := List.mem_append.mp hq
  · exact (List.pairwise_cons.mp h.mono).1 q hq
  · rw [List.mem_singleton.mp hq]
    exact h.high q₀ List.mem_cons_self

end

end AckInv

/-- An input without a receive number is not acted on as one. -/
theorem processes_eq_none (h : input.apdu?.bind Apdu.nr? = none) : c.processes input = none := by
  by_contra hne
  obtain ⟨nr, hnr⟩ := Option.ne_none_iff_exists'.mp hne
  rw [nr_of_processes hnr] at h
  exact absurd h (by simp)

/-- **The acknowledgements in flight are in order**, in every reachable state
and in both directions. -/
theorem exists_ackInv (hs : (pair allowed).Reachable (pairInit config) s)
    (x : Side) : ∃ Q, AckInv s x Q := by
  induction hs with
  | refl =>
    exact ⟨[], rfl, List.Pairwise.nil, fun q hq => absurd hq List.not_mem_nil,
      fun q hq => absurd hq List.not_mem_nil, Nat.zero_le _⟩
  | @tail s t hs st ih =>
    obtain ⟨Q, hQ⟩ := ih
    cases st with
    | offer y i live ho =>
      obtain rfl | rfl := Side.eq_or_eq_other x y
      · refine ⟨Q, hQ.own_call_none (run_of_pair hs y) i ?_⟩
        exact processes_eq_none (by rw [show i.1.apdu? = none from ho.1]; rfl)
      · exact ⟨_, hQ.peer_call (run_of_pair hs x.other) i⟩
    | take y m rest i live hin hr =>
      obtain rfl | rfl := Side.eq_or_eq_other x y
      · have hi : i.1 = .apdu m := hr
        cases hm : m.nr? with
        | none =>
          refine ⟨Q, (hQ.pop_other hin hm).own_call_none (run_of_pair hs y) i ?_⟩
          exact processes_eq_none (by rw [hi]; exact hm)
        | some nr =>
          obtain ⟨q, Q', -, -, hQ'⟩ :=
            hQ.own_take_nr (run_of_pair hs y) hin hm i hi
          exact ⟨Q', hQ'⟩
      · exact ⟨_, (hQ.pop_peer m rest).peer_call (run_of_pair hs x.other) i⟩
    | ignore y m rest live hin hi => exact absurd hi (fun h => h)
    | lose y l m r hl hin => exact absurd hl (fun h => h)

end Reachable

/-- **Safety of the pair.** For any two configurations and in every
interleaving, what a side has delivered is a prefix of what the other side's
user submitted; and `sent` lists the I-frames emitted from some point on,
those before it having been accepted by the peer. -/
theorem pair_safety {config : Side → Config} {s : Pair}
    (hs : (pair (fun _ _ => True)).Reachable (pairInit config) s) (x : Side) :
    delivered (s.past x) <+: submitted (s.past x.other) ∧ (s.node x).sent.map Prod.fst
        = ((emitted (s.past x)).drop (removed (s.past x) (s.node x))).map Iframe.send
      ∧ (emitted (s.past x)).take (removed (s.past x) (s.node x))
        <+: accepted (s.past x.other) := by
  refine ⟨?_, ?_, ?_⟩
  · have hrecv := Connection.recvInv_of_run (run_of_pair hs x)
    obtain ⟨hsend, -⟩ := Connection.sendInv_of_run (run_of_pair hs x.other)
    have hpre := accepted_isPrefix_emitted hs x.other
    rw [Side.other_other] at hpre
    rw [hrecv.delivered, ← hsend.asdus]
    rw [Connection.frames_of_run (run_of_pair hs x.other), List.append_nil]
    exact (hpre.map _).trans (List.prefix_append _ _)
  · exact sent_eq_of_run (run_of_pair hs x)
  · obtain ⟨Q, hQ⟩ := exists_ackInv hs x
    refine List.prefix_of_prefix_length_le ?_ (accepted_isPrefix_emitted hs x) ?_
    · exact List.take_prefix _ _
    · rw [List.length_take]
      exact (Nat.min_le_left _ _).trans hQ.le

/-- A schedule that transfers one ASDU and its acknowledgement: the client
starts, submits, and the server, with `w = 1`, acknowledges at once. -/
def oneTransfer : List (Net.Move (Input × Instant)) :=
  [.offer .left (.startDt, 0), .take .right (.apdu (.u .startDtAct), 0),
   .take .left (.apdu (.u .startDtCon), 1),
   .offer .left (.sendAsdu [7], 1),
   .take .right (.apdu (.i (SeqNo.new 0) (SeqNo.new 0) [7]), 1),
   .take .left (.apdu (.s (SeqNo.new 1)), 2)]

/-- The pair with `w = 1` at both ends, before anything has happened. -/
def eagerInit : Pair := pairInit (fun _ => { Config.default with w := 1 })

/-- After the transfer the server has delivered the ASDU and the client's
window is empty, as the safety of the pair has it. -/
theorem pair_safety_oneTransfer : ∃ s : Pair,
      (pair (fun _ _ => True)).Reachable eagerInit s
        ∧ delivered (s.past .right) = [[7]]
        ∧ delivered (s.past .right) <+: submitted (s.past .left)
        ∧ removed (s.past .left) (s.node .left) = 1
        ∧ (emitted (s.past .left)).take 1 <+: accepted (s.past .right) := by
  obtain ⟨s, hs, hdel, hrem⟩ := Net.exists_reachable_of_play
    (N := pair (fun _ _ => True)) (s := eagerInit) oneTransfer
    (P := fun s => delivered (s.past .right) = [[7]]
      ∧ removed (s.past .left) (s.node .left) = 1) (by decide +kernel)
  refine ⟨s, hs, hdel, (pair_safety hs .right).1, hrem, ?_⟩
  have hacc := (pair_safety hs .left).2.2
  rwa [hrem] at hacc

end Frame104
