import Iec60870.Frame104Control

/-!
# The STARTDT handshake of a pair

How the two ends of a link move through their states together. Whatever the
users do, the client's first APDU is STARTDT_act and it sends no second one;
until the server has taken it, the server is stopped and has sent nothing;
and the server's first APDU is STARTDT_con. So a client that is still
waiting has taken nothing, and both ends enter the data-transfer phase with
their first message. `Handshake` is the invariant, kept by every step of
the pair (`handshake_of_pair`).

It is where the two directions meet: an end that has not entered the
data-transfer phase has sent nothing that needs an acknowledgement, so its
timers are idle (`Connection.Idle`) and it cannot speak before its turn.
-/

open Machine

namespace Frame104

open Connection

namespace Connection

/-! ## Idle connections -/

/-- Nothing is outstanding in either direction. -/
structure Idle (c : Connection) : Prop where
  sent : c.sent = []
  testSent : c.testSent = none
  unackedRecv : c.unackedRecv = 0

variable {c : Connection} {input : Input} {now : Instant} {function : UFunction}

/-- The timers have nothing to do on an idle connection outside the
data-transfer phase. -/
theorem Idle.runTimers (h : c.Idle)
    (hs : c.state.isTransfer = false) (now : Instant) : c.runTimers now = c := by
  have h₁ : c.t1Expired now = false := by
    unfold t1Expired
    rw [h.sent, h.testSent]
    rfl
  have h₂ : c.runT2 now = c := by
    unfold runT2 t2Due
    rw [h.unackedRecv]
    rfl
  have h₃ : c.runT3 now = c := by
    unfold runT3 t3Due
    rw [hs]
    rfl
  have h₄ : c.runStopping = c := by
    unfold runStopping drained
    rw [if_neg]
    intro hd
    rw [Bool.and_eq_true, Bool.and_eq_true, decide_eq_true_eq] at hd
    rw [hd.1.1] at hs
    exact absurd hs (by decide)
  unfold Connection.runTimers
  rw [h₁, if_neg (by decide), h₂, h₃, h₄]

/-- **An idle connection outside the data-transfer phase** answers a user
request with its control function only, and stays idle. -/
theorem Idle.handle (hc : c.actions = []) (h : c.Idle)
    (hs : c.state.isTransfer = false) (hin : input.apdu? = none) (now : Instant) :
    sends (c.handle input now).2 = (c.control input).toList.map .u
      ∧ (c.handle input now).1.state = c.target input
      ∧ (c.handle input now).1.Idle := by
  -- it is enough to know that the input leaves the connection idle
  have key : ∀ d : Connection, c.onInput input now = d → d.Idle → d.state.isTransfer = false →
      sends d.actions = (c.control input).toList.map .u →
      sends (c.handle input now).2 = (c.control input).toList.map .u
        ∧ (c.handle input now).1.state = c.target input
        ∧ (c.handle input now).1.Idle := by
    intro d hd hi hst hsends
    unfold Connection.handle
    rw [hd, hi.runTimers hst now]
    refine ⟨hsends, ?_, hi.sent, hi.testSent, hi.unackedRecv⟩
    rw [← state_onInput c input now, hd]
  cases input with
  | apdu m => exact absurd hin (by simp)
  | startDt =>
    by_cases hcs : c.role = .client ∧ c.state = .stopped
    · refine key _ (if_pos hcs) ?_ ?_ ?_
      · rw [transition_eq]
        exact ⟨h.sent, h.testSent, h.unackedRecv⟩
      · rw [transition_state]
        rfl
      · rw [sends_transition, control, if_pos hcs]
        simp [emitU, emitApdu, push, hc]
    · refine key c (if_neg hcs) h hs ?_
      rw [control, if_neg hcs, hc]
      rfl
  | stopDt =>
    have hne : c.state ≠ .active := by
      intro he
      rw [he] at hs
      exact absurd hs (by decide)
    refine key c (if_neg hne) h hs ?_
    rw [control, if_neg fun ha => hne ha.1, hc]
    rfl
  | sendAsdu asdu =>
    have hne : c.state ≠ .active := by
      intro he
      rw [he] at hs
      exact absurd hs (by decide)
    refine key _ (if_pos hne) ⟨h.sent, h.testSent, h.unackedRecv⟩ hs ?_
    show sends c.actions = _
    rw [hc]
    rfl
  | tick =>
    refine key c rfl h hs ?_
    rw [hc]
    rfl

/-! ## Which calls send which function -/

/-- A start or stop function a call sends is its answer. -/
theorem control_of_mem (hc : c.actions = []) (hf : function.isControl = true)
    (hm : .u function ∈ sends (c.handle input now).2) :
    c.control input = some function := by
  obtain ⟨ms, -, hms, hctl⟩ := exists_emits_handle hc input now
  rw [hms] at hm
  obtain hm | hm := List.mem_append.mp hm
  · obtain ⟨g, hg, he⟩ := List.mem_map.mp hm
    rw [Apdu.u.injEq] at he
    rw [← he]
    exact Option.mem_toList.mp hg
  · have hfalse : function.isControl = false := hctl _ hm
    rw [hf] at hfalse
    exact absurd hfalse (by decide)

/-- An answer is sent. -/
theorem mem_of_control (hc : c.actions = []) (hf : c.control input = some function) :
    .u function ∈ sends (c.handle input now).2 := by
  obtain ⟨ms, -, hms, -⟩ := exists_emits_handle hc input now
  rw [hms, hf]
  exact List.mem_cons_self

section Control

variable {c : Connection} {input : Input}

/-- **The answers of a connection**, with what they answer. -/
theorem control_cases {function : UFunction} (h : c.control input = some function) :
    (function = .startDtCon ∧ input = .apdu (.u .startDtAct)
        ∧ c.role = .server ∧ c.state = .stopped)
      ∨ (function = .stopDtCon ∧ input = .apdu (.u .stopDtAct) ∧ c.role = .server)
      ∨ (function = .startDtAct ∧ input = .startDt ∧ c.role = .client ∧ c.state = .stopped)
      ∨ (function = .stopDtAct ∧ input = .stopDt ∧ c.state = .active ∧ c.role = .client) := by
  unfold control at h
  split at h
  · split at h
    · rename_i hc
      exact Or.inl ⟨(Option.some.inj h).symm, rfl, hc⟩
    · exact absurd h (by simp)
  · split at h
    · rename_i hc
      exact Or.inr (Or.inl ⟨(Option.some.inj h).symm, rfl, hc⟩)
    · exact absurd h (by simp)
  · split at h
    · rename_i hc
      exact Or.inr (Or.inr (Or.inl ⟨(Option.some.inj h).symm, rfl, hc⟩))
    · exact absurd h (by simp)
  · split at h
    · rename_i hc
      exact Or.inr (Or.inr (Or.inr ⟨(Option.some.inj h).symm, rfl, hc⟩))
    · exact absurd h (by simp)
  · exact absurd h (by simp)

theorem control_startDtAct (h : c.control input = some .startDtAct) :
    input = .startDt ∧ c.role = .client ∧ c.state = .stopped := by
  simpa using control_cases h

theorem control_startDtCon (h : c.control input = some .startDtCon) :
    input = .apdu (.u .startDtAct) ∧ c.role = .server ∧ c.state = .stopped := by
  simpa using control_cases h

theorem control_stopDtAct (h : c.control input = some .stopDtAct) :
    input = .stopDt ∧ c.state = .active ∧ c.role = .client := by
  simpa using control_cases h

theorem control_stopDtCon (h : c.control input = some .stopDtCon) :
    input = .apdu (.u .stopDtAct) ∧ c.role = .server := by
  simpa using control_cases h

/-- A user request outside the data-transfer phase starts a stopped client,
or is not answered and changes no state. -/
theorem request_cases (hs : c.state.isTransfer = false) (hin : input.apdu? = none) :
    (input = .startDt ∧ c.role = .client ∧ c.state = .stopped
        ∧ c.control input = some .startDtAct ∧ c.target input = .starting)
      ∨ (c.control input = none ∧ c.target input = c.state) := by
  have hne : c.state ≠ .active := by
    intro he
    rw [he] at hs
    exact absurd hs (by decide)
  cases input with
  | apdu m => exact absurd hin (by simp)
  | startDt =>
    by_cases hc : c.role = .client ∧ c.state = .stopped
    · exact Or.inl ⟨rfl, hc.1, hc.2, if_pos hc, if_pos hc⟩
    · exact Or.inr ⟨if_neg hc, if_neg hc⟩
  | stopDt => exact Or.inr ⟨if_neg fun h => hne h.1, if_neg hne⟩
  | sendAsdu | tick => exact Or.inr ⟨rfl, rfl⟩

/-- **A client in the data-transfer phase stays where it is or begins to
stop**, unless it disconnects. -/
theorem target_of_transfer (hr : c.role = .client)
    (hs : c.state.isTransfer = true) (hrej : c.rejects input = false)
    (hend : c.ends input = false) :
    c.target input = c.state ∨ c.target input = .stopping := by
  unfold target
  rw [if_neg (by rw [hrej]; decide)]
  split
  · rename_i function
    change refuses c.role c.state function = false at hrej
    rw [hr] at hrej
    cases function with
    | startDtCon =>
      have hst : c.state = .starting := by simpa [refuses] using hrej
      rw [hst] at hs
      exact absurd hs (by decide)
    | startDtAct | stopDtAct => exact absurd hrej (by simp [refuses])
    | stopDtCon =>
      change (!refuses c.role c.state .stopDtCon && c.sent.isEmpty) = false at hend
      rw [hr, hrej, Bool.not_false, Bool.true_and] at hend
      rw [uTarget, hend]
      exact Or.inl rfl
    | testFrAct | testFrCon => exact Or.inl rfl
  · exact Or.inl rfl
  · exact Or.inl rfl
  · split
    · rename_i hc
      rw [hc.2] at hs
      exact absurd hs (by decide)
    · exact Or.inl rfl
  · rw [hr]
    split
    · exact Or.inr rfl
    · exact Or.inl rfl
  · exact Or.inl rfl
  · exact Or.inl rfl

end Control

end Connection

/-! ## The handshake -/

/-- **The client's half of the handshake**, for a client `c` that has sent
`E` and taken `T`. -/
structure ClientSide (halted : Bool) (c : Connection) (E T : List Apdu) :
    Prop where
  /-- A stopped client has neither sent nor taken anything. -/
  stopped : halted = false → c.state = .stopped → E = [] ∧ T = [] ∧ c.Idle
  /-- A starting client has sent STARTDT_act and taken nothing. -/
  starting : halted = false → c.state = .starting → E = [.u .startDtAct] ∧ T = [] ∧ c.Idle
  /-- A client in the data-transfer phase has taken something. -/
  transfer : halted = false → c.state.isTransfer = true → T ≠ []
  /-- A closed client has halted. -/
  closed : halted = false → c.state ≠ .closed
  /-- STARTDT_act is sent first, and once. -/
  head : E = [] ∨ ∃ ms, E = .u .startDtAct :: ms ∧ .u .startDtAct ∉ ms

/-- **The server's half of the handshake.** -/
structure ServerSide (c : Connection) (E T : List Apdu) : Prop where
  /-- A server that has taken nothing is stopped and has sent nothing. -/
  idle : T = [] → c.state = .stopped ∧ E = [] ∧ c.Idle
  /-- STARTDT_con is sent first, and once. -/
  head : T ≠ [] → ∃ ms, E = .u .startDtCon :: ms ∧ .u .startDtCon ∉ ms

/-- **The handshake invariant** of the two ends of a link. -/
structure Handshake (s : Pair) : Prop where
  client : ClientSide (s.halted .left) (s.node .left) (emittedApdus (s.past .left)) (s.taken .left)
  server : ServerSide (s.node .right) (emittedApdus (s.past .right)) (s.taken .right)

section Pair

variable {allowed : Side → Input → Prop} {config : Side → Config} {s : Pair} {halted : Bool}
  {c : Connection} {E T : List Apdu}

/-- The client's channel: what it has sent is taken or in flight. -/
theorem client_channel (hs : (pair allowed).Reachable (pairInit config) s) :
    emittedApdus (s.past .left) = s.taken .right ++ s.inbox .right :=
  emittedApdus_of_pair hs .left

/-- The server's channel. -/
theorem server_channel (hs : (pair allowed).Reachable (pairInit config) s) :
    emittedApdus (s.past .right) = s.taken .left ++ s.inbox .left :=
  emittedApdus_of_pair hs .right

namespace Handshake

variable (hh : Handshake s) (hs : (pair allowed).Reachable (pairInit config) s) {m : Apdu}
  {rest : List Apdu}
include hh hs

/-- Nothing is in flight to a stopped client. -/
theorem inbox_of_stopped (live : s.halted .left = false)
    (hst : (s.node .left).state = .stopped) : s.inbox .left = [] := by
  obtain ⟨hsent, -, -⟩ := hh.client.stopped live hst
  rw [client_channel hs, List.append_eq_nil_iff] at hsent
  have hserver := (hh.server.idle hsent.1).2.1
  rw [server_channel hs, List.append_eq_nil_iff] at hserver
  exact hserver.2

/-- The first message a starting client takes is STARTDT_con. -/
theorem head_of_starting (live : s.halted .left = false) (hst : (s.node .left).state = .starting)
    (hin : s.inbox .left = m :: rest) : m = .u .startDtCon := by
  obtain ⟨-, htaken, -⟩ := hh.client.starting live hst
  have hch := server_channel hs
  rw [htaken, List.nil_append, hin] at hch
  by_cases hr : s.taken .right = []
  · have hserver := (hh.server.idle hr).2.1
    rw [hch] at hserver
    exact absurd hserver (List.cons_ne_nil _ _)
  · obtain ⟨ms, hms, -⟩ := hh.server.head hr
    rw [hms, List.cons.injEq] at hch
    exact hch.1.symm

/-- The first message the server takes is STARTDT_act. -/
theorem head_of_fresh (hr : s.taken .right = [])
    (hin : s.inbox .right = m :: rest) : m = .u .startDtAct := by
  have hch := client_channel hs
  rw [hr, List.nil_append, hin] at hch
  obtain he | ⟨ms, hms, -⟩ := hh.client.head
  · rw [he] at hch
    exact absurd hch.symm (List.cons_ne_nil _ _)
  · rw [hms, List.cons.injEq] at hch
    exact hch.1.symm

/-- No later message is STARTDT_act. -/
theorem ne_startDtAct (hr : s.taken .right ≠ []) (hin : s.inbox .right = m :: rest) :
    m ≠ .u .startDtAct := by
  have hch := client_channel hs
  obtain he | ⟨ms, hms, hnot⟩ := hh.client.head
  · rw [he] at hch
    exact absurd (List.append_eq_nil_iff.mp hch.symm).1 hr
  · obtain ⟨t, ts, ht⟩ := List.exists_cons_of_ne_nil hr
    rw [hms, hin, ht, List.cons_append, List.cons.injEq] at hch
    intro hm
    refine hnot ?_
    rw [hch.2, hm]
    exact List.mem_append_right _ List.mem_cons_self

/-- A client in the data-transfer phase has started. -/
theorem head_of_transfer (live : s.halted .left = false)
    (hst : (s.node .left).state.isTransfer = true) :
    emittedApdus (s.past .left) ≠ [] := by
  intro he
  rw [client_channel hs, List.append_eq_nil_iff] at he
  have hserver := (hh.server.idle he.1).2.1
  rw [server_channel hs, List.append_eq_nil_iff] at hserver
  exact hh.client.transfer live hst hserver.1

end Handshake

/-! ## Every step keeps the handshake -/

/-- The APDUs a party has emitted after one more call. -/
theorem emittedApdus_snoc (h : List Call) (c : Connection) (i : Input × Instant) :
    emittedApdus (h ++ [call Connection.step c i]) = emittedApdus h ++ sends (c.step i).2 := by
  rw [emittedApdus_append, emittedApdus_singleton, call_actions]

/-- A client that has sent something sends no second STARTDT_act. -/
theorem ClientSide.head_snoc (hc : ClientSide halted c E T) (hact : c.actions = [])
    (hE : E ≠ []) (hne : c.state ≠ .stopped) (i : Input × Instant) :
    E ++ sends (c.step i).2 = [] ∨ ∃ ms, E ++ sends (c.step i).2 = .u .startDtAct :: ms
        ∧ .u .startDtAct ∉ ms := by
  obtain he | ⟨ms, hms, hnot⟩ := hc.head
  · exact absurd he hE
  · refine Or.inr ⟨ms ++ sends (c.step i).2, by rw [hms]; rfl, ?_⟩
    rw [List.mem_append, not_or]
    refine ⟨hnot, fun hm => ?_⟩
    exact hne (control_startDtAct (control_of_mem hact rfl hm)).2.2

/-- A client that disconnects keeps its half. -/
theorem ClientSide.of_halted (h : E = [] ∨ ∃ ms, E = .u .startDtAct :: ms ∧ .u .startDtAct ∉ ms) :
    ClientSide true c E T where
  stopped := fun hf => absurd hf (by decide)
  starting := fun hf => absurd hf (by decide)
  transfer := fun hf => absurd hf (by decide)
  closed := fun hf => absurd hf (by decide)
  head := h

/-- A client in the data-transfer phase that has taken something keeps its
half. -/
theorem ClientSide.of_transfer (hs : c.state.isTransfer = true) (hT : T ≠ [])
    (h : E = [] ∨ ∃ ms, E = .u .startDtAct :: ms ∧ .u .startDtAct ∉ ms) :
    ClientSide halted c E T where
  stopped := by
    intro _ he
    rw [he] at hs
    exact absurd hs (by decide)
  starting := by
    intro _ he
    rw [he] at hs
    exact absurd hs (by decide)
  transfer := fun _ _ => hT
  closed := by
    intro _ he
    rw [he] at hs
    exact absurd hs (by decide)
  head := h

/-- **A call of a client in the data-transfer phase** keeps its half of the
handshake. -/
theorem ClientSide.call_transfer {E T T' : List Apdu}
    (hc : ClientSide false c E T) (hact : c.actions = [])
    (hrole : c.role = .client) (hs : c.state.isTransfer = true) (hE : E ≠ [])
    (hT : T' ≠ []) (i : Input × Instant) :
    ClientSide (disconnects (c.step i).2) (c.step i).1 (E ++ sends (c.step i).2) T' := by
  have hne : c.state ≠ .stopped := by
    intro he
    rw [he] at hs
    exact absurd hs (by decide)
  have hhead := hc.head_snoc hact hE hne i
  cases hd : disconnects (c.step i).2 with
  | true => exact ClientSide.of_halted hhead
  | false =>
    obtain ⟨hst, hrej, hend⟩ := state_of_quiet hact hd
    refine ClientSide.of_transfer ?_ hT hhead
    rw [show (c.step i).1.state = c.target i.1 from hst]
    obtain he | he := target_of_transfer hrole hs hrej hend
    · rw [he]
      exact hs
    · rw [he]
      rfl

/-- A client that has not started and has not moved keeps its half. -/
theorem ClientSide.of_same {c d : Connection} (hc : ClientSide false c E T)
    (hst : d.state = c.state) (hi : d.Idle) : ClientSide halted d E T where
  stopped := by
    intro _ he
    obtain ⟨hE, hT, -⟩ := hc.stopped rfl (hst ▸ he)
    exact ⟨hE, hT, hi⟩
  starting := by
    intro _ he
    obtain ⟨hE, hT, -⟩ := hc.starting rfl (hst ▸ he)
    exact ⟨hE, hT, hi⟩
  transfer := fun _ he => hc.transfer rfl (hst ▸ he)
  closed := fun _ he => hc.closed rfl (hst ▸ he)
  head := hc.head

/-- A client outside the data-transfer phase that has not halted is idle and
has taken nothing. -/
theorem ClientSide.idle (hc : ClientSide false c E T) (hs : c.state.isTransfer = false) :
    c.Idle ∧ T = [] := by
  cases hst : c.state with
  | stopped => exact ⟨(hc.stopped rfl hst).2.2, (hc.stopped rfl hst).2.1⟩
  | starting => exact ⟨(hc.starting rfl hst).2.2, (hc.starting rfl hst).2.1⟩
  | active | stopping =>
    rw [hst] at hs
    exact absurd hs (by decide)
  | closed => exact absurd hst (hc.closed rfl)

/-- **A user request at a client that has not started** starts it, or leaves
it as it is. -/
theorem ClientSide.call_idle (hc : ClientSide false c E T) (hact : c.actions = [])
    (hs : c.state.isTransfer = false) (i : Input × Instant) (hin : i.1.apdu? = none) :
    ClientSide (disconnects (c.step i).2) (c.step i).1
      (E ++ sends (c.step i).2) T := by
  obtain ⟨hi, hT⟩ := hc.idle hs
  obtain ⟨hsends, hstate, hi'⟩ := hi.handle hact hs hin i.2
  change sends (c.step i).2 = _ at hsends
  change (c.step i).1.state = _ at hstate
  change (c.step i).1.Idle at hi'
  obtain ⟨-, -, hst, hctl, htgt⟩ | ⟨hctl, htgt⟩ :=
    request_cases hs hin
  · rw [htgt] at hstate
    rw [hsends, hctl, (hc.stopped rfl hst).1]
    refine ⟨?_, fun _ _ => ⟨rfl, hT, hi'⟩, ?_, ?_, Or.inr ⟨[], rfl, List.not_mem_nil⟩⟩
    all_goals
      intro _ he
      rw [hstate] at he
      exact absurd he (by decide)
  · rw [hsends, hctl, Option.toList_none, List.map_nil, List.append_nil]
    exact hc.of_same (hstate.trans htgt) hi'

/-- A server that has confirmed STARTDT_act does so no more. -/
theorem ServerSide.head_call (hc : ServerSide c E T) (hact : c.actions = []) (hT : T ≠ [])
    (i : Input × Instant) (hi : i.1 ≠ .apdu (.u .startDtAct)) :
    ∃ ms, E ++ sends (c.step i).2 = .u .startDtCon :: ms ∧ .u .startDtCon ∉ ms := by
  obtain ⟨ms, hms, hnot⟩ := hc.head hT
  refine ⟨ms ++ sends (c.step i).2, by rw [hms]; rfl, ?_⟩
  rw [List.mem_append, not_or]
  exact ⟨hnot, fun hm => hi (control_startDtCon (control_of_mem hact rfl hm)).1⟩

/-- **A user request at the server** is not answered with a start or stop
function, and leaves a fresh server as it is. -/
theorem ServerSide.call_request
    (hc : ServerSide c E T) (hact : c.actions = []) (hrole : c.role = .server)
    (i : Input × Instant) (hin : i.1.apdu? = none) :
    ServerSide (c.step i).1 (E ++ sends (c.step i).2) T where
  idle := by
    intro hT
    obtain ⟨hst, hE, hi⟩ := hc.idle hT
    have hs : c.state.isTransfer = false := by
      rw [hst]
      rfl
    obtain ⟨hsends, hstate, hi'⟩ := hi.handle hact hs hin i.2
    obtain ⟨-, hcl, -⟩ | ⟨hctl, htgt⟩ := request_cases hs hin
    · rw [hrole] at hcl
      exact absurd hcl (by decide)
    · rw [hctl] at hsends
      refine ⟨(hstate.trans htgt).trans hst, ?_, hi'⟩
      rw [hE, List.nil_append]
      exact hsends
  head := by
    refine fun hT => hc.head_call hact hT i fun he => ?_
    rw [he] at hin
    exact absurd hin (by simp)

/-- **The server takes STARTDT_act first and no second one.** -/
theorem ServerSide.call_take
    (hc : ServerSide c E T) (hact : c.actions = []) (hrole : c.role = .server)
    {m : Apdu} (i : Input × Instant) (hi : i.1 = .apdu m)
    (hfirst : T = [] → m = .u .startDtAct) (hlater : T ≠ [] → m ≠ .u .startDtAct) :
    ServerSide (c.step i).1 (E ++ sends (c.step i).2) (T ++ [m]) where
  idle := fun hT => absurd hT (by simp)
  head := by
    intro _
    by_cases hT : T = []
    · obtain ⟨hst, hE, -⟩ := hc.idle hT
      obtain ⟨ms, -, hms, hctl⟩ := exists_emits_handle hact i.1 i.2
      refine ⟨ms, ?_, fun hm => absurd (hctl _ hm) (by decide)⟩
      rw [hE, List.nil_append]
      refine hms.trans ?_
      rw [hi, hfirst hT, Connection.control, if_pos ⟨hrole, hst⟩]
      rfl
    · refine hc.head_call hact hT i fun he => ?_
      rw [hi, Input.apdu.injEq] at he
      exact hlater hT he

/-- **STARTDT_con brings a starting client into the data-transfer phase.** -/
theorem ClientSide.call_startDtCon (hc : ClientSide false c E T) (hact : c.actions = [])
    (hrole : c.role = .client) (hst : c.state = .starting)
    (i : Input × Instant) (hi : i.1 = .apdu (.u .startDtCon)) :
    ClientSide (disconnects (c.step i).2) (c.step i).1
      (E ++ sends (c.step i).2) (T ++ [.u .startDtCon]) := by
  obtain ⟨hE, -, -⟩ := hc.starting rfl hst
  have hhead := hc.head_snoc hact (by rw [hE]; exact List.cons_ne_nil _ _) (by rw [hst]; decide) i
  cases hd : disconnects (c.step i).2 with
  | true => exact ClientSide.of_halted hhead
  | false =>
    obtain ⟨hstate, -, -⟩ := state_of_quiet hact hd
    refine ClientSide.of_transfer ?_ (by simp) hhead
    rw [show (c.step i).1.state = c.target i.1 from hstate, hi,
      Connection.target, Connection.rejects, hrole, hst]
    rfl

/-- Two new connections have not begun the handshake. -/
theorem handshake_init : Handshake (pairInit config) := by
  refine ⟨⟨fun _ _ => ⟨rfl, rfl, rfl, rfl, rfl⟩, ?_, ?_, ?_, Or.inl rfl⟩,
    fun _ => ⟨rfl, rfl, rfl, rfl, rfl⟩, fun h => absurd rfl h⟩
  · intro _ he
    exact absurd he (by simp [pairInit, Net.State.init, Connection.new])
  · intro _ he
    exact absurd he (by
      simp [pairInit, Net.State.init, Connection.new, State.isTransfer])
  · intro _ he
    exact absurd he (by simp [pairInit, Net.State.init, Connection.new])

/-- The client makes a call. -/
theorem ClientSide.snoc {s : Pair} (live : s.halted .left = false)
    {i : Input × Instant} (h : ClientSide (disconnects ((s.node .left).step i).2)
      ((s.node .left).step i).1
      (emittedApdus (s.past .left) ++ sends ((s.node .left).step i).2) T) :
    ClientSide (s.halted .left || disconnects ((s.node .left).step i).2) ((s.node .left).step i).1
      (emittedApdus (s.past .left ++ [call Connection.step (s.node .left) i])) T := by
  rw [emittedApdus_snoc, live, Bool.false_or]
  exact h

section Moves

variable (hs : (pair allowed).Reachable (pairInit config) s) (h : Handshake s)
  {i : Input × Instant} {m : Apdu} {rest : List Apdu}

include hs h

/-- The user of the client makes a request. -/
theorem Handshake.offer_client (live : s.halted .left = false)
    (hi : i.1.apdu? = none) : Handshake ((pair allowed).perform s .left i) := by
  obtain ⟨hrole, -, hact⟩ := ident_of_run (run_of_pair hs .left)
  have hc := h.client
  rw [live] at hc
  refine ⟨ClientSide.snoc live ?_, h.server⟩
  cases hst : (s.node .left).state.isTransfer with
  | true =>
    exact hc.call_transfer hact hrole hst (h.head_of_transfer hs live hst) (hc.transfer rfl hst) i
  | false => exact hc.call_idle hact hst i hi

/-- The user of the server makes a request. -/
theorem Handshake.offer_server (hi : i.1.apdu? = none) :
    Handshake ((pair allowed).perform s .right i) := by
  obtain ⟨hrole, -, hact⟩ := ident_of_run (run_of_pair hs .right)
  refine ⟨h.client, ?_⟩
  have hcall := h.server.call_request hact hrole i hi
  rw [← emittedApdus_snoc] at hcall
  exact hcall

/-- The client takes an APDU. -/
theorem Handshake.take_client (live : s.halted .left = false)
    (hin : s.inbox .left = m :: rest) (hi : i.1 = .apdu m) :
    Handshake ((pair allowed).perform (s.pop .left m rest) .left i) := by
  obtain ⟨hrole, -, hact⟩ := ident_of_run (run_of_pair hs .left)
  have hc := h.client
  rw [live] at hc
  have htransfer (htr : (s.node .left).state.isTransfer = true) :=
    hc.call_transfer hact hrole htr (h.head_of_transfer hs live htr)
      (List.append_ne_nil_of_right_ne_nil (s.taken .left) (List.cons_ne_nil m [])) i
  refine ⟨ClientSide.snoc live ?_, h.server⟩
  rw [Net.perform_taken, Net.pop_taken_self]
  cases hst : (s.node .left).state with
  | stopped =>
    rw [h.inbox_of_stopped hs live hst] at hin
    cases hin
  | starting =>
    obtain rfl := h.head_of_starting hs live hst hin
    exact hc.call_startDtCon hact hrole hst i hi
  | active | stopping => exact htransfer (by rw [hst]; rfl)
  | closed => exact absurd hst (hc.closed rfl)

/-- The server takes an APDU. -/
theorem Handshake.take_server (hin : s.inbox .right = m :: rest) (hi : i.1 = .apdu m) :
    Handshake ((pair allowed).perform (s.pop .right m rest) .right i) := by
  obtain ⟨hrole, -, hact⟩ := ident_of_run (run_of_pair hs .right)
  refine ⟨h.client, ?_⟩
  have hcall := h.server.call_take hact hrole i hi
    (fun hT => h.head_of_fresh hs hT hin) (fun hT => h.ne_startDtAct hs hT hin)
  rw [← emittedApdus_snoc, ← Net.pop_taken_self s .right m rest] at hcall
  exact hcall

end Moves

/-- **The handshake holds in every reachable state of a pair.** -/
theorem handshake_of_pair (hs : (pair allowed).Reachable (pairInit config) s) : Handshake s := by
  induction hs with
  | refl => exact handshake_init
  | @tail s t hs st ih =>
    cases st with
    | offer y i live ho =>
      cases y with
      | left => exact ih.offer_client hs live ho.1
      | right => exact ih.offer_server hs ho.1
    | take y m rest i live hin hr =>
      cases y with
      | left => exact ih.take_client hs live hin hr
      | right => exact ih.take_server hs hin hr
    | ignore y m rest live hin hi => exact absurd hi (fun h => h)
    | lose y l m r hl hin => exact absurd hl (fun h => h)

end Pair

end Frame104
