import Mathlib.Data.List.TakeWhile
import Iec60870.Frame104Handshake

/-!
# The STOPDT phase of a pair

Two connections of this crate, talking to each other with the client in
charge of STARTDT and STOPDT, should never accuse each other of a protocol
error. They can. A client that is stopping still acts on acknowledgements,
and `acknowledge` ends in `flush_pending`, which does not look at the state:
an ASDU left in the queue goes out behind STOPDT_act. The server answers
STOPDT_act by moving to `Stopped` at once, and an I-frame in `Stopped` is a
protocol error.

That is the only way (`no_protocolError`): in a run in which the client
never acts on an acknowledgement while it is stopping, has something queued
and has room for it – `Connection.flushesStopping` – neither end ever
reports one. The invariant is `Orderly`: behind STOPDT_act the client sends
no I-frame, and the server is active from STARTDT_act until it takes
STOPDT_act.
-/

open Cyclic Machine

namespace Frame104

open Connection Net

namespace Connection

/-- **A call flushes the queue in the stopping state**: it acts on a receive
number, an ASDU is queued, and the entries left in `sent` leave room. -/
def flushesStopping (c : Connection) (input : Input) : Prop :=
  c.state = .stopping ∧ (c.processes input).isSome = true ∧ c.pending ≠ []
    ∧ c.sent.length - c.dropped input < c.config.k.toNat

instance (c : Connection) (input : Input) :
    Decidable (c.flushesStopping input) :=
  inferInstanceAs (Decidable (_ ∧ _))

variable {c : Connection} {input : Input}

/-- The flush loop sends nothing without a queue or without room. -/
theorem flushLoop_blocked (now : Instant) {q : List Bytes}
    (h : q = [] ∨ ¬ c.sent.length < c.config.k.toNat) :
    iframes (flushLoop now q c).actions = iframes c.actions := by
  cases q with
  | nil => rfl
  | cons asdu rest =>
    obtain h | h := h
    · exact absurd h (List.cons_ne_nil _ _)
    · rw [flushLoop, if_neg h]

/-- Acting on a receive number in the stopping state leaves no queue or no
room, unless the call flushes. -/
theorem blocked_of_stopping {nr : SeqNo}
    (hs : c.state = .stopping) (hp : c.processes input = some nr)
    (hno : ¬ c.flushesStopping input) : c.pending = []
      ∨ ¬ (c.sent.dropWhile (fun e => acked nr e.1)).length < c.config.k.toNat := by
  by_contra hcon
  rw [not_or, not_not] at hcon
  refine hno ⟨hs, by rw [hp]; rfl, hcon.1, ?_⟩
  have hle : (c.sent.dropWhile (fun e => acked nr e.1)).length
      ≤ c.sent.length := (List.dropWhile_sublist _).length_le
  rw [dropped_of_some hp, Nat.sub_sub_self hle]
  exact hcon.2

/-- The data-transfer phase without its active half is the stopping one. -/
theorem stopping_of_transfer {state : State} (h : state.isTransfer = true)
    (hne : state ≠ .active) : state = .stopping := by
  cases state with
  | active => exact absurd rfl hne
  | stopping => rfl
  | stopped | starting | closed => exact absurd h (by decide)

/-- **I-frames go out of an active connection only**, or of one that flushes
its queue while stopping. -/
theorem iframes_onInput (ht : c.target input ≠ .active) (hno : ¬ c.flushesStopping input)
    (now : Instant) : iframes (c.onInput input now).actions = iframes c.actions := by
  have hview : ∀ d : Connection, d.sendView = c.sendView → iframes d.actions = iframes c.actions :=
    fun d hd => congrArg SendView.frames hd
  have h := course_onInput c input now
  generalize c.onInput input now = d at h ⊢
  cases h with
  | accept send recv asdu h =>
    have hp : c.processes (.apdu (.i send recv asdu)) = some recv := by
      rw [processes, h, Option.map_some]
    have hst : c.target (.apdu (.i send recv asdu)) = c.state := by
      rw [target, rejects, h]
      rfl
    rw [hst] at ht
    have hs := stopping_of_transfer (accepts_iframe h).1 ht
    rw [show iframes _ = _ from congrArg SendView.frames (sendView_accepted
      { c with lastRecvAny := some now } recv asdu now)]
    exact flushLoop_blocked now (blocked_of_stopping hs hp hno)
  | ack nr h =>
    have hp : c.processes (.apdu (.s nr)) = some nr := if_pos h
    exact flushLoop_blocked now (blocked_of_stopping (stopping_of_transfer h ht) hp hno)
  -- a connection that enters `Active` or sends at once has it for target
  | startDtCon hr hs | startDtAct hr hs => exact absurd (by rw [target, rejects, hr, hs]; rfl) ht
  | send asdu hs hk => exact absurd hs ht
  | start | stop | serverStop => exact hview _ (by simp)
  | refuseI | refuseU => exact hview _ (sendView_reject _)
  | testFrAct => exact hview _ (sendView_emitU _ _ _)
  | stopDtAct | stopDtCon => exact hview _ (by simp; rfl)
  | _ => rfl

/-- A call outside `Active` that does not flush sends no I-frame. -/
theorem iframes_handle (hc : c.actions = [])
    (ht : c.target input ≠ .active) (hno : ¬ c.flushesStopping input)
    (now : Instant) : iframes (c.handle input now).2 = [] := by
  have hv := congrArg SendView.frames (sendView_runTimers (c.onInput input now) now)
  refine hv.trans ((iframes_onInput ht hno now).trans ?_)
  rw [hc]
  rfl

end Connection

/-! ## Which functions an end sends -/

section Pair

variable {config : Side → Config} {s : Pair} {cfg : Config} {h : List Call} {c : Connection}
  {function : UFunction} {E : List Apdu} {m : Apdu} {i : Input × Instant} {rest : List Apdu}
  {allowed : Side → Input → Prop} {x : Side} {send recv : SeqNo} {asdu : Bytes}

/-- A start or stop function an end has sent answered one of its calls. -/
theorem exists_call_of_mem {role : Role} (r : Run Connection.step (Connection.new role cfg) h c)
    (hf : function.isControl = true) (hm : .u function ∈ emittedApdus h) :
    ∃ d ∈ h, d.before.control d.input.1 = some function ∧ d.before.role = role := by
  obtain ⟨d, hd, hmem⟩ := List.mem_flatMap.mp hm
  obtain ⟨⟨g, hg⟩, heq⟩ := r.of_mem hd
  obtain ⟨hrole, -, hact⟩ := ident_of_run hg
  rw [heq] at hmem
  exact ⟨d, hd, control_of_mem hact hf hmem, hrole⟩

/-- A client sends no confirmation. -/
theorem client_sends_no_con (r : Run Connection.step (Connection.new .client cfg) h c)
    (hm : .u function ∈ emittedApdus h) :
    function ≠ .startDtCon ∧ function ≠ .stopDtCon := by
  constructor <;> rintro rfl
  · obtain ⟨d, -, hctl, hrole⟩ := exists_call_of_mem r rfl hm
    rw [(control_startDtCon hctl).2.1] at hrole
    exact absurd hrole (by decide)
  · obtain ⟨d, -, hctl, hrole⟩ := exists_call_of_mem r rfl hm
    rw [(control_stopDtCon hctl).2] at hrole
    exact absurd hrole (by decide)

/-- A server sends no activation. -/
theorem server_sends_no_act (r : Run Connection.step (Connection.new .server cfg) h c)
    (hm : .u function ∈ emittedApdus h) :
    function ≠ .startDtAct ∧ function ≠ .stopDtAct := by
  constructor <;> rintro rfl
  · obtain ⟨d, -, hctl, hrole⟩ := exists_call_of_mem r rfl hm
    rw [(control_startDtAct hctl).2.1] at hrole
    exact absurd hrole (by decide)
  · obtain ⟨d, -, hctl, hrole⟩ := exists_call_of_mem r rfl hm
    rw [(control_stopDtAct hctl).2.2] at hrole
    exact absurd hrole (by decide)

/-! ## An orderly stop -/

/-- The users' part: STARTDT and STOPDT are the client's. -/
def clientOnly (x : Side) (input : Input) : Prop :=
  x = .left ∨ (input ≠ .startDt ∧ input ≠ .stopDt)

instance (x : Side) (input : Input) : Decidable (clientOnly x input) :=
  inferInstanceAs (Decidable (_ ∨ _))

/-- What is sent from STOPDT_act on. -/
def stopTail (E : List Apdu) : List Apdu :=
  E.dropWhile (fun m => decide (m ≠ .u .stopDtAct))

/-- Before STOPDT_act is sent there is no tail. -/
theorem stopTail_of_not_mem (h : .u .stopDtAct ∉ E) : stopTail E = [] := by
  refine List.dropWhile_eq_nil_iff.mpr fun m hm => decide_eq_true ?_
  rintro rfl
  exact h hm

/-- Once STOPDT_act is sent, the tail grows with what is sent. -/
theorem stopTail_append (h : .u .stopDtAct ∈ E)
    (E' : List Apdu) : stopTail (E ++ E') = stopTail E ++ E' := by
  unfold stopTail
  rw [List.dropWhile_append, if_neg]
  rw [List.isEmpty_iff, List.dropWhile_eq_nil_iff]
  intro hall
  exact absurd rfl (of_decide_eq_true (hall _ h))

/-- A tail without I-frames stays so when none is added behind STOPDT_act. -/
theorem stopTail_snoc {E E' : List Apdu} (h : (stopTail E).filterMap Apdu.iframe? = [])
    (h' : .u .stopDtAct ∈ E ∨ .u .stopDtAct ∈ E' → E'.filterMap Apdu.iframe? = []) :
    (stopTail (E ++ E')).filterMap Apdu.iframe? = [] := by
  by_cases hE : .u .stopDtAct ∈ E
  · rw [stopTail_append hE, List.filterMap_append, h, h' (Or.inl hE)]
    rfl
  · by_cases hE' : .u .stopDtAct ∈ E'
    · have htail : stopTail (E ++ E') = stopTail E' := by
        unfold stopTail
        rw [List.dropWhile_append, if_pos]
        exact List.isEmpty_iff.mpr (stopTail_of_not_mem hE)
      rw [htail]
      have hsub := (List.dropWhile_sublist
        (fun m : Apdu => decide (m ≠ .u .stopDtAct)) (l := E')).filterMap
        Apdu.iframe?
      rw [h' (Or.inr hE')] at hsub
      exact List.sublist_nil.mp hsub
    · rw [stopTail_of_not_mem]
      · rfl
      · rw [List.mem_append, not_or]
        exact ⟨hE, hE'⟩

/-- **An orderly stop**: what holds of the two ends while the client does not
flush its queue behind STOPDT_act. -/
structure Orderly (s : Pair) : Prop where
  /-- A client that has sent STOPDT_act is stopping until it halts. -/
  client_stopping : s.halted .left = false → .u .stopDtAct ∈ emittedApdus (s.past .left) →
    (s.node .left).state = .stopping
  /-- It sends no I-frame behind STOPDT_act. -/
  client_tail : (stopTail (emittedApdus (s.past .left))).filterMap Apdu.iframe? = []
  /-- The server is active between STARTDT_act and STOPDT_act. -/
  server_active : s.halted .right = false → s.taken .right ≠ [] →
    .u .stopDtAct ∉ s.taken .right → (s.node .right).state = .active

/-- A stopping client does not become active. -/
theorem target_of_stopping {input : Input} (hrole : c.role = .client) (hs : c.state = .stopping) :
    c.target input ≠ .active := by
  cases hrej : c.rejects input with
  | true =>
    unfold Connection.target
    rw [if_pos hrej]
    decide
  | false =>
    cases hend : c.ends input with
    | true =>
      unfold Connection.ends at hend
      split at hend
      · rw [Bool.and_eq_true] at hend
        rw [Connection.target, hrej, if_neg (by decide)]
        show (if c.sent.isEmpty then State.stopped else c.state) ≠ _
        rw [if_pos hend.2]
        decide
      · exact absurd hend (by simp)
    | false =>
      obtain he | he := target_of_transfer hrole (by rw [hs]; rfl) hrej hend
      · rw [he, hs]
        decide
      · rw [he]
        decide

/-- **A call of the client** keeps its part of an orderly stop. -/
theorem Orderly.client_call (hact : c.actions = []) (hrole : c.role = .client)
    (hstop : .u .stopDtAct ∈ E → c.state = .stopping)
    (htail : (stopTail E).filterMap Apdu.iframe? = [])
    (i : Input × Instant) (hno : ¬ c.flushesStopping i.1) :
    (disconnects (c.step i).2 = false → .u .stopDtAct ∈ E ++ sends (c.step i).2 →
        (c.step i).1.state = .stopping)
      ∧ (stopTail (E ++ sends (c.step i).2)).filterMap Apdu.iframe? = [] := by
  have hnew : .u .stopDtAct ∈ sends (c.step i).2 → c.target i.1 = .stopping := by
    intro hm
    obtain ⟨hi, hs, -⟩ := control_stopDtAct (control_of_mem hact rfl hm)
    rw [hi]
    show (if c.state = .active then
      if c.role = .client then State.stopping else .stopped else c.state) = _
    rw [if_pos hs, if_pos hrole]
  constructor
  · intro hq hm
    obtain ⟨hst, hrej, hend⟩ := state_of_quiet hact hq
    refine Eq.trans hst ?_
    obtain hm | hm := List.mem_append.mp hm
    · obtain he | he := target_of_transfer hrole (by rw [hstop hm]; rfl) hrej hend
      · rw [he, hstop hm]
      · exact he
    · exact hnew hm
  · refine stopTail_snoc htail fun hm => ?_
    refine iframes_handle hact ?_ hno i.2
    obtain hm | hm := hm
    · exact target_of_stopping hrole (hstop hm)
    · rw [hnew hm]
      decide

/-- What the client takes changes nothing an orderly stop is about. -/
theorem Orderly.pop_client (h : Orderly s) (m : Apdu) (rest : List Apdu) :
    Orderly (s.pop .left m rest) :=
  ⟨h.client_stopping, h.client_tail, h.server_active⟩

/-- A call of the client that does not flush keeps a stop orderly. -/
theorem Orderly.perform_client (h : Orderly s)
    (hact : (s.node .left).actions = []) (hrole : (s.node .left).role = .client)
    (live : s.halted .left = false) (i : Input × Instant)
    (hno : ¬ (s.node .left).flushesStopping i.1) :
    Orderly ((pair clientOnly).perform s .left i) := by
  have hpast : ((pair clientOnly).perform s .left i).past .left
      = s.past .left ++ [call Connection.step (s.node .left) i] := rfl
  obtain ⟨h₁, h₂⟩ := Orderly.client_call hact hrole (h.client_stopping live) h.client_tail i hno
  refine ⟨?_, ?_, h.server_active⟩
  · intro hq hm
    rw [perform_halted_self, live, Bool.false_or] at hq
    rw [hpast, emittedApdus_snoc] at hm
    exact h₁ hq hm
  · rw [hpast, emittedApdus_snoc]
    exact h₂

/-- An active server stays active, unless it takes STOPDT_act or
disconnects. -/
theorem target_of_active (hrole : c.role = .server) (hs : c.state = .active)
    (hm : m ≠ .u .stopDtAct) (hrej : c.rejects (.apdu m) = false) :
    c.target (.apdu m) = .active := by
  unfold Connection.target
  rw [if_neg (by rw [hrej]; decide)]
  cases m with
  | i | s => exact hs
  | u function =>
    change Connection.refuses c.role c.state function = false at hrej
    rw [hrole, hs] at hrej
    cases function with
    | startDtAct | startDtCon => rfl
    | stopDtAct => exact absurd rfl hm
    | stopDtCon => exact absurd hrej (by decide)
    | testFrAct | testFrCon => exact hs

/-- A request of the server's user keeps a stop orderly: it neither starts nor
stops the transfer of data. -/
theorem Orderly.offer_server (h : Orderly s)
    (hact : (s.node .right).actions = []) (live : s.halted .right = false)
    (hi : i.1.apdu? = none ∧ clientOnly .right i.1) :
    Orderly ((pair clientOnly).perform s .right i) := by
  refine ⟨h.client_stopping, h.client_tail, ?_⟩
  intro hq hne hnm
  rw [perform_halted_self, live, Bool.false_or] at hq
  obtain ⟨hst, -, -⟩ := state_of_quiet hact hq
  refine Eq.trans hst ?_
  have hold := h.server_active live hne hnm
  obtain ⟨hin, hl | ⟨hn₁, hn₂⟩⟩ := hi
  · exact absurd hl (by decide)
  · obtain ⟨input, now⟩ := i
    cases input with
    | apdu m => exact absurd hin (by simp)
    | startDt => exact absurd rfl hn₁
    | stopDt => exact absurd rfl hn₂
    | sendAsdu | tick => exact hold

/-- An APDU that the server takes keeps a stop orderly. -/
theorem Orderly.take_server (hs : (pair clientOnly).Reachable (pairInit config) s)
    (h : Orderly s) (live : s.halted .right = false)
    (hin : s.inbox .right = m :: rest) (hi : i.1 = .apdu m) :
    Orderly ((pair clientOnly).perform (s.pop .right m rest) .right i) := by
  obtain ⟨hrole, -, hact⟩ := ident_of_run (run_of_pair hs .right)
  refine ⟨h.client_stopping, h.client_tail, ?_⟩
  intro hq _ hnm
  rw [perform_halted_self, pop_halted, live, Bool.false_or] at hq
  rw [perform_taken, pop_taken_self, List.mem_append, not_or, List.mem_singleton] at hnm
  obtain ⟨hst, hrej, -⟩ := state_of_quiet hact hq
  refine Eq.trans hst ?_
  rw [hi] at hrej ⊢
  by_cases hT : s.taken .right = []
  · -- the first APDU is STARTDT_act
    obtain rfl := (handshake_of_pair hs).head_of_fresh hs hT hin
    rw [Connection.target, hrej]
    rfl
  · exact target_of_active hrole (h.server_active live hT hnm.1) (fun he => hnm.2 he.symm) hrej

/-- **A stop is orderly as long as the client does not flush in it.** -/
theorem orderly_of_pair (hs : (pair clientOnly).Reachable (pairInit config) s)
    (hno : ∀ c ∈ s.past .left, ¬ c.before.flushesStopping c.input.1) : Orderly s := by
  induction hs with
  | refl =>
    exact ⟨fun _ hm => absurd hm List.not_mem_nil, rfl, fun _ hne => absurd rfl hne⟩
  | @tail s t hs st ih =>
    obtain ⟨hrl, -, hactl⟩ := ident_of_run (run_of_pair hs .left)
    obtain ⟨-, -, hactr⟩ := ident_of_run (run_of_pair hs .right)
    have ih := ih fun c hc => hno c (st.mem_past hc)
    cases st with
    | offer y i live ho =>
      cases y with
      | left =>
        exact ih.perform_client hactl hrl live i
          (hno _ List.mem_concat_self)
      | right => exact ih.offer_server hactr live ho
    | take y m rest i live hin hr =>
      cases y with
      | left =>
        exact (ih.pop_client m rest).perform_client hactl hrl live i
          (hno _ List.mem_concat_self)
      | right => exact ih.take_server hs live hin hr
    | ignore y m rest live hin hi => exact absurd hi (fun h => h)
    | lose y l m r hl hin => exact absurd hl (fun h => h)

/-! ## No protocol error -/

section

variable (hs : (pair allowed).Reachable (pairInit config) s)

include hs

/-- The I-frame a live end takes next carries the expected send number. -/
theorem send_of_take (live : s.halted x = false) (hin : s.inbox x = .i send recv asdu :: rest) :
    send = (s.node x).recvNext := by
  have hemit := emittedApdus_of_pair hs x.other
  rw [Side.other_other, hin] at hemit
  have hfr : emitted (s.past x.other) = accepted (s.past x)
      ++ ⟨send, recv, asdu⟩ :: rest.filterMap Apdu.iframe? := by
    rw [emitted_eq, hemit, List.filterMap_append, accepted_of_live hs live]
    rfl
  obtain ⟨hinv, -⟩ := sendInv_of_run (run_of_pair hs x.other)
  have hnum := hinv.numbered
  rw [hfr, List.append_assoc, List.map_append, window_append, Nat.zero_add, List.length_map] at hnum
  refine SeqNo.ext_value ?_
  rw [(recvInv_of_run (run_of_pair hs x)).counted]
  exact hnum.2.1

/-- An I-frame taken in the data-transfer phase is not rejected. -/
theorem not_rejects_iframe (live : s.halted x = false) (hin : s.inbox x = .i send recv asdu :: rest)
    (htr : (s.node x).state.isTransfer = true) :
    (s.node x).rejects (.apdu (.i send recv asdu)) = false := by
  rw [Connection.rejects, Connection.accepts, send_of_take hs live hin, htr]
  simp

/-- The first message the client takes is STARTDT_con, and no later one
is. -/
theorem client_takes_startDtCon
    (hin : s.inbox .left = m :: rest) : m = .u .startDtCon ↔ s.taken .left = [] := by
  have hh := handshake_of_pair hs
  have hch := server_channel hs
  have hT : s.taken .right ≠ [] := by
    intro hT
    rw [(hh.server.idle hT).2.1, hin] at hch
    exact absurd (List.append_eq_nil_iff.mp hch.symm).2 (List.cons_ne_nil _ _)
  obtain ⟨ms, hms, hnot⟩ := hh.server.head hT
  rw [hms, hin] at hch
  constructor
  · rintro rfl
    by_contra hne
    obtain ⟨t, ts, ht⟩ := List.exists_cons_of_ne_nil hne
    rw [ht, List.cons_append, List.cons.injEq] at hch
    refine hnot ?_
    rw [hch.2]
    exact List.mem_append_right _ List.mem_cons_self
  · intro hnil
    rw [hnil, List.nil_append, List.cons.injEq] at hch
    exact hch.1.symm

/-- A live client that takes a message has been started: it waits for
STARTDT_con, or is in the data-transfer phase. -/
theorem client_phase (live : s.halted .left = false) (hin : s.inbox .left = m :: rest) :
    ((s.node .left).state = .starting ∧ m = .u .startDtCon)
      ∨ ((s.node .left).state.isTransfer = true ∧ m ≠ .u .startDtCon) := by
  have hh := handshake_of_pair hs
  have htr : (s.node .left).state.isTransfer = true → m ≠ .u .startDtCon := fun htr he =>
    hh.client.transfer live htr ((client_takes_startDtCon hs hin).mp he)
  cases hst : (s.node .left).state with
  | stopped =>
    rw [hh.inbox_of_stopped hs live hst] at hin
    exact absurd hin (by simp)
  | starting => exact Or.inl ⟨rfl, hh.head_of_starting hs live hst hin⟩
  | active | stopping =>
    rw [hst] at htr
    exact Or.inr ⟨rfl, htr rfl⟩
  | closed => exact absurd hst (hh.client.closed live)

end

/-- **The client rejects nothing the server sends.** -/
theorem client_not_rejects (hs : (pair clientOnly).Reachable (pairInit config) s) (ho : Orderly s)
    (live : s.halted .left = false) (hin : s.inbox .left = m :: rest) :
    (s.node .left).rejects (.apdu m) = false := by
  obtain ⟨hrole, -, -⟩ := ident_of_run (run_of_pair hs .left)
  have hmem : m ∈ emittedApdus (s.past .right) := by
    rw [server_channel hs, hin]
    exact List.mem_append_right _ List.mem_cons_self
  have hphase := client_phase hs live hin
  cases m with
  | i send recv asdu =>
    obtain ⟨-, he⟩ | ⟨htr, -⟩ := hphase
    · exact absurd he (by simp)
    · exact not_rejects_iframe hs live hin htr
  | s recv => rfl
  | u function =>
    obtain ⟨hst, he⟩ | ⟨htr, hne⟩ := hphase
    · rw [Apdu.u.injEq] at he
      rw [he, Connection.rejects, hrole, hst]
      rfl
    · have hact := server_sends_no_act (run_of_pair hs .right) hmem
      cases function with
      | startDtCon => exact absurd rfl hne
      | startDtAct => exact absurd rfl hact.1
      | stopDtAct => exact absurd rfl hact.2
      | stopDtCon =>
        -- the server confirmed a STOPDT_act, so the client is stopping
        obtain ⟨d, hd, hctl, -⟩ :=
          exists_call_of_mem (run_of_pair hs .right) rfl hmem
        have htaken : .u .stopDtAct ∈ s.taken .right := by
          rw [taken_of_pair hs .right]
          refine List.mem_filterMap.mpr ⟨d, hd, ?_⟩
          rw [(control_stopDtCon hctl).1]
          rfl
        have hst := ho.client_stopping live (by
          rw [client_channel hs]
          exact List.mem_append_left _ htaken)
        rw [Connection.rejects, hrole, hst]
        rfl
      | testFrAct | testFrCon => rfl

/-- **The server rejects nothing the client sends.** -/
theorem server_not_rejects (hs : (pair clientOnly).Reachable (pairInit config) s) (ho : Orderly s)
    (live : s.halted .right = false) (hin : s.inbox .right = m :: rest) :
    (s.node .right).rejects (.apdu m) = false := by
  obtain ⟨hrole, -, -⟩ := ident_of_run (run_of_pair hs .right)
  have hh := handshake_of_pair hs
  have hmem : m ∈ emittedApdus (s.past .left) := by
    rw [client_channel hs, hin]
    exact List.mem_append_right _ List.mem_cons_self
  cases m with
  | i send recv asdu =>
    have hT : s.taken .right ≠ [] := by
      intro hT
      exact absurd (hh.head_of_fresh hs hT hin) (by simp)
    have hns : .u .stopDtAct ∉ s.taken .right := by
      intro hst
      have htail := ho.client_tail
      rw [client_channel hs, hin, stopTail_append hst,
        List.filterMap_append, List.append_eq_nil_iff] at htail
      exact absurd htail.2 (by simp)
    refine not_rejects_iframe hs live hin ?_
    rw [ho.server_active live hT hns]
    rfl
  | s recv => rfl
  | u function =>
    have hcon := client_sends_no_con (run_of_pair hs .left) hmem
    cases function with
    | startDtCon => exact absurd rfl hcon.1
    | startDtAct =>
      have hT : s.taken .right = [] := by
        by_contra hne
        exact hh.ne_startDtAct hs hne hin rfl
      rw [Connection.rejects, hrole, (hh.server.idle hT).1]
      rfl
    | stopDtAct =>
      rw [Connection.rejects, hrole]
      rfl
    | stopDtCon => exact absurd rfl hcon.2
    | testFrAct | testFrCon => rfl

end Pair

/-- **Two connections never accuse each other of a protocol error**, with
STARTDT and STOPDT in the client's hands, in a run in which the client never
flushes its queue while stopping. -/
theorem no_protocolError {config : Side → Config} {s : Pair}
    (hs : (pair clientOnly).Reachable (pairInit config) s)
    (hno : ∀ c ∈ s.past .left, ¬ c.before.flushesStopping c.input.1) (x : Side) :
    ∀ c ∈ s.past x, .disconnect .protocolError ∉ c.actions := by
  induction hs with
  | refl => exact fun c hc => absurd hc List.not_mem_nil
  | @tail s t hs st ih =>
    have hold : ∀ c ∈ s.past .left, ¬ c.before.flushesStopping c.input.1 :=
      fun c hc => hno c (st.mem_past hc)
    have ih := ih hold
    -- the new call, if any, is one that rejects nothing
    have key : ∀ (y : Side) (i : Input × Instant),
        (s.node y).rejects i.1 = false →
        ∀ c ∈ Function.update s.past y
            (s.past y ++ [call Connection.step (s.node y) i]) x,
          .disconnect .protocolError ∉ c.actions := by
      intro y i hrej c hc
      obtain ⟨-, -, hact⟩ := Connection.ident_of_run (run_of_pair hs y)
      obtain rfl | rfl := Side.eq_or_eq_other y x
      · rw [Function.update_self] at hc
        obtain hc | hc := List.mem_append.mp hc
        · exact ih c hc
        · rw [List.mem_singleton.mp hc]
          intro hm
          rw [(Connection.protocolError_mem_iff hact).mp hm] at hrej
          exact absurd hrej (by decide)
      · rw [Function.update_of_ne (Side.other_ne y)] at hc
        exact ih c hc
    cases st with
    | offer y i live ho =>
      refine key y i ?_
      obtain ⟨hin, -⟩ := ho
      obtain ⟨input, now⟩ := i
      cases input with
      | apdu m => exact absurd hin (by simp)
      | startDt | stopDt | sendAsdu | tick => rfl
    | take y m rest i live hin hr =>
      refine key y i ?_
      have hord := orderly_of_pair hs hold
      rw [show i.1 = .apdu m from hr]
      cases y with
      | left => exact client_not_rejects hs hord live hin
      | right => exact server_not_rejects hs hord live hin
    | ignore y m rest live hin hi => exact absurd hi (fun h => h)
    | lose y l m r hl hin => exact absurd hl (fun h => h)

/-- A schedule that transfers an ASDU and stops, with nothing left queued. -/
def cleanStop : List (Net.Move (Input × Instant)) :=
  [.offer .left (.startDt, 0), .take .right (.apdu (.u .startDtAct), 0),
   .take .left (.apdu (.u .startDtCon), 1),
   .offer .left (.sendAsdu [7], 1),
   .offer .left (.stopDt, 1),
   .take .right (.apdu (.i (SeqNo.new 0) (SeqNo.new 0) [7]), 2),
   .take .right (.apdu (.u .stopDtAct), 2),
   .take .left (.apdu (.s (SeqNo.new 1)), 3)]

/-- The stop ends the client cleanly and the server without complaint. -/
theorem no_protocolError_cleanStop : ∃ s : Pair, (pair clientOnly).Reachable
          (pairInit fun _ => { Config.default with k := 1, w := 1 }) s
        ∧ s.halted .left = true ∧ (s.node .right).state = .stopped
        ∧ ∀ c ∈ s.past .right, .disconnect .protocolError ∉ c.actions := by
  obtain ⟨s, hs, hhalt, hst, hno⟩ :=
    Net.exists_reachable_of_play (N := pair clientOnly)
      (s := pairInit fun _ => { Config.default with k := 1, w := 1 })
      cleanStop
      (P := fun s => s.halted .left = true
        ∧ (s.node .right).state = .stopped
        ∧ ∀ c ∈ s.past .left, ¬ c.before.flushesStopping c.input.1)
      (by decide +kernel)
  exact ⟨s, hs, hhalt, hst, no_protocolError hs hno .right⟩

/-- The race: a second ASDU is queued behind a window of one when the client
stops. The acknowledgement of the first overtakes nothing, but it reaches the
client in `Stopping`, and the second ASDU leaves behind STOPDT_act. -/
def stopRace : List (Net.Move (Input × Instant)) :=
  [.offer .left (.startDt, 0), .take .right (.apdu (.u .startDtAct), 0),
   .take .left (.apdu (.u .startDtCon), 1),
   .offer .left (.sendAsdu [7], 1),
   .offer .left (.sendAsdu [8], 1),
   .offer .left (.stopDt, 1),
   .take .right (.apdu (.i (SeqNo.new 0) (SeqNo.new 0) [7]), 2),
   .take .right (.apdu (.u .stopDtAct), 2),
   .take .left (.apdu (.s (SeqNo.new 1)), 3),
   .take .right (.apdu (.i (SeqNo.new 1) (SeqNo.new 0) [8]), 3)]

/-- Two conforming ends can accuse each other of a protocol error. -/
theorem stopRace_protocolError : ¬ ∀ config : Side → Config,
      (∀ x, 1 ≤ (config x).k.toNat ∧ 1 ≤ (config x).w.toNat) →
      ∀ s : Pair, (pair clientOnly).Reachable (pairInit config) s →
      ∀ x, ∀ c ∈ s.past x, .disconnect .protocolError ∉ c.actions := by
  intro h
  obtain ⟨s, hs, hbad⟩ :=
    Net.exists_reachable_of_play (N := pair clientOnly)
      (s := pairInit fun _ => { Config.default with k := 1, w := 1 })
      stopRace
      (P := fun s => ∃ c ∈ s.past .right,
        Action.disconnect .protocolError ∈ c.actions) (by decide +kernel)
  obtain ⟨c, hc, hm⟩ := hbad
  exact h _ (fun _ => by decide) s hs .right c hc hm

end Frame104
