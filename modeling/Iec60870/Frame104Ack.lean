import Iec60870.Frame104Control

/-!
# What a receive number acknowledges

A peer acknowledges with the number of the I-frame it expects next, its
`N(R)`. A number that can be right lies between the oldest unacknowledged
`N(S)` and `send_next`, and acknowledges what is before it; any other number
speaks of I-frames that were never sent, or were acknowledged already.

The state machine compares numbers by their distance modulo `2 ^ 15`, and
takes the upper half of the range for "behind". A right number is therefore
acted on as long as it acknowledges at most 16383 I-frames; one that
acknowledges more removes nothing (`acks_exactly_iff`). With the windows the
standard recommends this does not happen, with those it admits it can. And a
wrong number is not noticed at all: `acknowledge` never rejects
(`impossible_ack_accepted`).
-/

open Cyclic Machine

namespace Frame104

open Connection SeqNo

namespace Connection

/-- The oldest unacknowledged `N(S)`, or the next one if there is none. -/
def oldest (c : Connection) : SeqNo := (c.sent.head?.map Prod.fst).getD c.sendNext

/-- **A receive number that can be right**: it lies, cyclically, between the
oldest unacknowledged `N(S)` and `send_next`. -/
def InWindow (c : Connection) (nr : SeqNo) : Prop :=
  c.oldest.distance nr ≤ c.oldest.distance c.sendNext

instance (c : Connection) (nr : SeqNo) : Decidable (c.InWindow nr) :=
  inferInstanceAs (Decidable (_ ≤ _))

/-- An entry of `sent` precedes a receive number. -/
def precedes (c : Connection) (nr : SeqNo) (e : SeqNo × Instant) : Bool :=
  decide (c.oldest.distance e.1 < c.oldest.distance nr)

/-- **A call acknowledges exactly what precedes `nr`**: what is left of `sent`
is what does not, followed by what the call has sent. -/
def AcksExactly (c : Connection) (nr : SeqNo) (input : Input) (now : Instant) : Prop :=
  (c.handle input now).1.sent = c.sent.filter (fun e => !c.precedes nr e)
      ++ (iframes (c.handle input now).2).map fun f => (f.send, now)

/-! ## What a call removes and adds -/

/-- **What a call that processes a receive number does to `sent`**: the loop
of `acknowledge` drops entries from its front, and what the call sends is
appended. -/
theorem sent_handle {c : Connection} (hc : c.actions = []) {input : Input}
    {nr : SeqNo} (hp : c.processes input = some nr) (now : Instant) :
    (c.handle input now).1.sent = c.sent.dropWhile (fun e => acked nr e.1)
        ++ (iframes (c.handle input now).2).map fun f => (f.send, now) := by
  have htimers := sendView_runTimers (c.onInput input now) now
  obtain ⟨fs, hframes, hsent⟩ := slides_onInput c input now
  rw [← htimers] at hframes hsent
  have hnew : iframes (c.handle input now).2 = fs := by
    refine Eq.trans hframes ?_
    show iframes c.actions ++ fs = fs
    rw [hc]
    rfl
  rw [hnew, ← drop_dropped hp]
  exact hsent

end Connection

/-! ## What is acknowledged -/

section Exactly

variable {role : Role} {config : Config} {h : List Call} {c : Connection} {nr : SeqNo}
  {input : Input}

section

variable (r : Run Connection.step (Connection.new role config) h c)

include r

/-- The oldest unacknowledged number counts the entries removed. -/
theorem value_oldest : c.oldest.value = removed h c % 2 ^ 15 := by
  obtain ⟨hcov, hwin⟩ := sent_of_run r
  unfold Connection.oldest
  cases hs : c.sent with
  | nil =>
    obtain ⟨hinv, -⟩ := sendInv_of_run r
    have hnext := hinv.next
    rw [frames_of_run r, List.append_nil] at hnext
    rw [removed, hs]
    exact hnext
  | cons e rest =>
    rw [hs] at hwin
    exact hwin.1

/-- What is unacknowledged is what lies between the oldest number and the
next. -/
theorem distance_oldest_sendNext
    (hk : config.k.toNat ≤ 32767) : c.oldest.distance c.sendNext = c.sent.length := by
  obtain ⟨hcov, -⟩ := sent_of_run r
  obtain ⟨hinv, -⟩ := sendInv_of_run r
  obtain ⟨-, hcfg, -⟩ := ident_of_run r
  have hroom : c.sent.length ≤ config.k.toNat := by
    rw [← hcfg]
    exact hinv.room
  have hnext : c.sendNext.value = (emitted h).length % 2 ^ 15 := by
    have hnext := hinv.next
    rwa [frames_of_run r, List.append_nil] at hnext
  have hle : removed h c ≤ (emitted h).length := Nat.sub_le _ _
  rw [distance_eq, value_oldest r, hnext,
    distance_mod (Nat.two_pow_pos 15) hle, removed, Nat.sub_sub_self hcov,
    Nat.mod_eq_of_lt (by omega)]

/-- A receive number, counted from the entries removed. -/
theorem value_nr (nr : SeqNo) : nr.value = (removed h c + c.oldest.distance nr) % 2 ^ 15 := by
  rw [distance_eq, ← Nat.mod_add_mod, ← value_oldest r, add_distance c.oldest.value_lt nr.value_lt]

section

variable (hk : config.k.toNat ≤ 32767)

include hk

/-- What does not precede a receive number is what comes after as many entries
as it acknowledges. -/
theorem filter_precedes (nr : SeqNo) : c.sent.filter (fun e => !c.precedes nr e)
      = c.sent.drop (c.oldest.distance nr) := by
  obtain ⟨-, hwin⟩ := sent_of_run r
  have hlen := distance_oldest_sendNext r hk
  have hlt : c.sent.length < 2 ^ 15 := by
    rw [← hlen, distance_eq]
    exact Nat.mod_lt _ (Nat.two_pow_pos 15)
  have hfilter := filter_distance (fun e : SeqNo × Instant => e.1.value)
    (c.oldest.distance nr) (f := removed h c) 0 hwin (by omega)
  rw [Nat.sub_zero, ← value_oldest r] at hfilter
  rw [← hfilter]
  refine List.filter_congr fun e _ => ?_
  rw [← distance_eq, Connection.precedes, ← decide_not]
  exact decide_eq_decide.mpr not_lt

/-- **The loop of `acknowledge` on a right number**: it drops what the number
acknowledges, or nothing if that is more than half the range. -/
theorem dropWhile_acked (hnr : c.InWindow nr) : c.sent.dropWhile (fun e => Connection.acked nr e.1)
      = if c.oldest.distance nr ≤ SeqNo.MAX / 2 then c.sent.drop (c.oldest.distance nr)
        else c.sent := by
  obtain ⟨-, hwin⟩ := sent_of_run r
  have hle : c.oldest.distance nr ≤ c.sent.length :=
    le_of_le_of_eq hnr (distance_oldest_sendNext r hk)
  have hlt : c.oldest.distance nr < 2 ^ 15 := by
    rw [distance_eq]
    exact Nat.mod_lt _ (Nat.two_pow_pos 15)
  have hval := value_nr r nr
  simp only [acked_eq, hval]
  split
  · rename_i hhalf
    change c.oldest.distance nr ≤ 2 ^ 14 - 1 at hhalf
    have hdrop := dropWhile_behind (fun e : SeqNo × Instant => e.1.value)
      (H := 2 ^ 14 - 1) (by decide) hwin (Nat.le_add_right _ (c.oldest.distance nr))
      (by omega) (by omega)
    rwa [Nat.add_sub_cancel_left] at hdrop
  · rename_i hhalf
    change ¬ c.oldest.distance nr ≤ 2 ^ 14 - 1 at hhalf
    exact dropWhile_behind_far (fun e : SeqNo × Instant => e.1.value) hwin (by omega) (by omega)

/-- What `AcksExactly` asks of the loop. -/
theorem acksExactly_iff_dropWhile (hp : c.processes input = some nr) (now : Instant) :
    c.AcksExactly nr input now ↔ c.sent.dropWhile (fun e => Connection.acked nr e.1)
        = c.sent.drop (c.oldest.distance nr) := by
  obtain ⟨-, -, hact⟩ := ident_of_run r
  rw [Connection.AcksExactly, sent_handle hact hp, filter_precedes r hk, List.append_left_inj]

/-- A number that acknowledges more than half the range is not acted on. -/
theorem not_acksExactly_of_far (hp : c.processes input = some nr) (hnr : c.InWindow nr)
    (hfar : SeqNo.MAX / 2 < c.oldest.distance nr) (now : Instant) :
    ¬ c.AcksExactly nr input now := by
  rw [acksExactly_iff_dropWhile r hk hp, dropWhile_acked r hk hnr, if_neg (not_le.mpr hfar)]
  intro heq
  have hle : c.oldest.distance nr ≤ c.sent.length :=
    le_of_le_of_eq hnr (distance_oldest_sendNext r hk)
  have hlen := congrArg List.length heq
  rw [List.length_drop] at hlen
  omega

end

end

/-- **A right receive number acknowledges exactly the frames before it** if
and only if these are at most half the range of sequence numbers. -/
theorem acks_exactly_iff (r : Run Connection.step (Connection.new role config) h c)
    (hk : 1 ≤ config.k.toNat ∧ config.k.toNat ≤ 32767) {input : Input} {nr : SeqNo}
    (hp : c.processes input = some nr) (hnr : c.InWindow nr) (now : Instant) :
    c.AcksExactly nr input now ↔ c.oldest.distance nr ≤ SeqNo.MAX / 2 := by
  constructor
  · intro hacks
    by_contra hfar
    exact not_acksExactly_of_far r hk.2 hp hnr (not_le.mp hfar) now hacks
  · intro hhalf
    rw [acksExactly_iff_dropWhile r hk.2 hp, dropWhile_acked r hk.2 hnr, if_pos hhalf]

end Exactly

/-- Two of three I-frames are acknowledged. -/
theorem acks_exactly_iff_twoOfThree :
    let is : List (Input × Instant) := [(.apdu (.u .startDtAct), 0),
      (.sendAsdu [1], 0), (.sendAsdu [2], 0), (.sendAsdu [3], 0)]
    let c := (exec Connection.step (Connection.new .server .default) is).2
    c.sent.length = 3
      ∧ c.AcksExactly (SeqNo.new 2) (.apdu (.s (SeqNo.new 2))) 1 := by
  intro is c
  have hp : c.processes (.apdu (.s (SeqNo.new 2))) = some (SeqNo.new 2) := by decide
  exact ⟨by decide, (acks_exactly_iff (run_exec _ _ is) (by decide) hp (by decide) 1).mpr
    (by decide)⟩

/-! ## A window that is too wide

The widest window that the standard admits, and a user that fills half of it
before anything is acknowledged. -/

/-- The default parameters with the widest window. -/
def Config.widest : Config := { Config.default with k := 32767 }

/-- Data transfer is started and `n` ASDUs are submitted, all at once. -/
def burst (n : ℕ) : List (Input × Instant) :=
  (.apdu (.u .startDtAct), 0) :: List.replicate n (.sendAsdu [], 0)

/-- What a connection is after such a burst, as far as it matters. -/
structure Filled (n : ℕ) (c : Connection) : Prop where
  config : c.config = .widest
  state : c.state = .active
  length : c.sent.length = n
  times : ∀ e ∈ c.sent, e.2 = 0
  unacked : c.unackedRecv = 0
  test : c.testSent = none
  io : c.lastSendAny = some 0 ∧ c.lastRecvAny = some 0

variable {n : ℕ} {c : Connection}

/-- At the same instant no timer has run out. -/
theorem Filled.runTimers (h : Filled n c) : c.runTimers 0 = c := by
  have ht1 : c.t1Expired 0 = false := by
    unfold Connection.t1Expired
    rw [h.test, h.config]
    cases hs : c.sent with
    | nil => rfl
    | cons e rest =>
      have he : e.2 = 0 := h.times e (hs ▸ List.mem_cons_self)
      show (Connection.expired (some e.2) _ 0 || _) = _
      rw [he]
      rfl
  have ht2 : c.runT2 0 = c := by
    unfold Connection.runT2 Connection.t2Due
    rw [h.unacked]
    rfl
  have ht3 : c.runT3 0 = c := by
    unfold Connection.runT3 Connection.t3Due
    rw [h.test, h.config, h.io.1, h.io.2, h.state]
    rfl
  have htail : c.runStopping = c := by
    unfold Connection.runStopping Connection.drained
    rw [h.state]
    rfl
  unfold Connection.runTimers
  rw [ht1, if_neg Bool.false_ne_true, ht2, ht3, htail]

/-- One more ASDU is sent at once. -/
theorem Filled.submit (h : Filled n c) (hn : n < 32767) :
    Filled (n + 1) (c.step (.sendAsdu [], 0)).1 := by
  have hroom : ¬ c.config.k.toNat ≤ c.sent.length := by
    rw [h.config, h.length]
    exact not_le.mpr hn
  have hinput : c.onInput (.sendAsdu []) 0 = c.sendIframe [] 0 := by
    show c.onUserSend [] 0 = _
    unfold Connection.onUserSend
    rw [if_neg (not_not_intro h.state), if_neg hroom]
  have hlength : (c.sendIframe [] 0).sent.length = n + 1 := by
    show (c.sent ++ [_]).length = n + 1
    rw [List.length_append, h.length]
    rfl
  have htimes : ∀ e ∈ (c.sendIframe [] 0).sent, e.2 = 0 := by
    intro e he
    obtain he | he := List.mem_append.mp he
    · exact h.times e he
    · rw [List.mem_singleton.mp he]
  have hfilled : Filled (n + 1) (c.sendIframe [] 0) :=
    ⟨h.config, h.state, hlength, htimes, rfl, h.test, rfl, h.io.2⟩
  unfold Connection.step Connection.handle
  dsimp only
  rw [hinput, hfilled.runTimers]
  exact ⟨hfilled.config, hfilled.state, hfilled.length, hfilled.times, hfilled.unacked,
    hfilled.test, hfilled.io⟩

/-- A burst fills the window. -/
theorem filled_burst (hn : n ≤ 32767) :
    Filled n (exec Connection.step (Connection.new .server .widest) (burst n)).2 := by
  induction n with
  | zero => exact ⟨rfl, rfl, rfl, (fun _ he => nomatch he), rfl, rfl, rfl, rfl⟩
  | succ n ih =>
    have hburst : burst (n + 1) = burst n ++ [(.sendAsdu [], 0)] := by
      rw [burst, List.replicate_succ']
      rfl
    rw [hburst, exec_concat]
    exact (ih (by omega)).submit (by omega)

/-- **An acknowledgement that is not acted on**: of 16384 I-frames, all of
which the peer acknowledges, none is removed. -/
theorem acks_nothing_halfRange :
    let c := (exec Connection.step (Connection.new .server .widest) (burst 16384)).2
    c.state = .active ∧ c.InWindow c.sendNext
      ∧ (c.handle (.apdu (.s c.sendNext)) 0).1.sent
        = c.sent ++ (iframes (c.handle (.apdu (.s c.sendNext)) 0).2).map
          (fun f => (f.send, 0))
      ∧ ¬ c.AcksExactly c.sendNext (.apdu (.s c.sendNext)) 0 := by
  intro c
  have r := run_exec Connection.step (Connection.new .server .widest) (burst 16384)
  have hfilled : Filled 16384 c := filled_burst (by decide)
  have hk : Config.widest.k.toNat ≤ 32767 := by decide
  have hp : c.processes (.apdu (.s c.sendNext)) = some c.sendNext := by
    rw [Connection.processes, hfilled.state]
    rfl
  have hfar : SeqNo.MAX / 2 < c.oldest.distance c.sendNext := by
    rw [distance_oldest_sendNext r hk, hfilled.length]
    decide
  refine ⟨hfilled.state, le_rfl, ?_, not_acksExactly_of_far r hk hp le_rfl hfar 0⟩
  obtain ⟨-, -, hact⟩ := Connection.ident_of_run r
  rw [Connection.sent_handle hact hp, dropWhile_acked r hk le_rfl,
    if_neg (not_le.mpr hfar)]

/-! ## A wrong number -/

/-- **An acknowledgement is rejected**: what was unacknowledged stays so, and
the connection is closed for a protocol error. -/
def Connection.RejectsAck (c : Connection) (input : Input) (now : Instant) : Prop :=
  c.sent <+: (c.handle input now).1.sent ∧ .disconnect .protocolError ∈ (c.handle input now).2
    ∧ (c.handle input now).1.state = .closed

/-- What a connection processes it does not reject. -/
theorem not_rejects_of_processes {input : Input} {nr : SeqNo}
    (hp : c.processes input = some nr) : c.rejects input = false := by
  cases input with
  | apdu m =>
    cases m with
    | i send recv asdu =>
      rw [Connection.processes, Option.map_eq_some_iff] at hp
      obtain ⟨f, hf, -⟩ := hp
      rw [Connection.rejects, hf]
      rfl
    | s recv => rfl
    | u function => cases hp
  | _ => cases hp

/-- **No acknowledgement is rejected**, whatever it speaks of: an S-frame or an
in-sequence I-frame in the data-transfer phase whose receive number lies
outside the window does not lead to a protocol error. -/
theorem impossible_ack_accepted {role : Role} {config : Config} {h : List Call}
    {c : Connection} (r : Run Connection.step (Connection.new role config) h c)
    {input : Input} {nr : SeqNo} (hp : c.processes input = some nr)
    (_hnr : ¬ c.InWindow nr) (now : Instant) : ¬ c.RejectsAck input now := by
  obtain ⟨-, -, hact⟩ := Connection.ident_of_run r
  rintro ⟨-, herror, -⟩
  rw [Connection.protocolError_mem_iff hact, not_rejects_of_processes hp] at herror
  exact Bool.false_ne_true herror

/-- One I-frame was sent; an S-frame that acknowledges three. -/
theorem impossible_ack_accepted_threeOfOne :
    let c := (exec Connection.step (Connection.new .server .default)
      [(.apdu (.u .startDtAct), 0), (.sendAsdu [1], 0)]).2
    ¬ c.InWindow (SeqNo.new 3) ∧ ¬ c.RejectsAck (.apdu (.s (SeqNo.new 3))) 1 := by
  intro c
  have hp : c.processes (.apdu (.s (SeqNo.new 3))) = some (SeqNo.new 3) := by decide
  exact ⟨by decide, impossible_ack_accepted (run_exec _ _ _) hp (by decide) 1⟩

/-- It removes the I-frame, and the connection stays open. -/
theorem impossible_ack_removes :
    let c := (exec Connection.step (Connection.new .server .default)
      [(.apdu (.u .startDtAct), 0), (.sendAsdu [1], 0)]).2
    c.state = .active ∧ ¬ c.InWindow (SeqNo.new 3)
      ∧ c.sent = [(SeqNo.new 0, 0)]
      ∧ (c.handle (.apdu (.s (SeqNo.new 3))) 1).1.sent = []
      ∧ (c.handle (.apdu (.s (SeqNo.new 3))) 1).1.state = .active
      ∧ (c.handle (.apdu (.s (SeqNo.new 3))) 1).2 = []
      ∧ ¬ c.RejectsAck (.apdu (.s (SeqNo.new 3))) 1 := by
  intro c
  have hquiet : (c.handle (.apdu (.s (SeqNo.new 3))) 1).2 = [] := by decide
  refine ⟨by decide, by decide, by decide, by decide, by decide, hquiet, ?_⟩
  rintro ⟨-, herror, -⟩
  rw [hquiet] at herror
  exact absurd herror List.not_mem_nil

end Frame104
