import Iec60870.ClientDaemon

/-!
# Confirmations of commands

A call of `send_command_and_wait` registers a waiter under its type identification and
its address. The common address is not part of the key, although that of a confirmation is
at hand and the collectors of interrogations have it in theirs. So a confirmation from
another station is taken for one's own. And there is one waiter for a key: a second call
for it drops the waiter of the first one, and when a call gives up it removes whichever
waiter is there.

`command_sound_iff` says that this is all. A call is answered as it should be if and only if,
while it is pending, nothing is done at its key but by an ASDU with its common address.
-/

open Iec60870 Deadband Machine Points Switchboard

namespace Client

variable {F32 F64 : Type} {fp : PointArith F32 F64} {st st' : DaemonState F32} {n : ℕ}

/-- The ASDU is a confirmation of the command: with its common address, its type and its
address. -/
def Confirms (a : Asdu) (req : CommandRequest) : Prop :=
  a.cot.cause = .activationCon ∧ a.ca.raw = req.ca ∧ a.typeId = req.typeId
    ∧ firstIoa a.payload = some req.ioa

/-- The key at which an input takes a waiter. -/
def Input.cmdKey? (st : DaemonState F32) : Input → Option (UInt8 × UInt32)
  | .command n i => commandDesk.taken st.cmdWaiters n i
  | .asdu a =>
    if isTermination a then none
    else if isConfirmation a then (firstIoa a.payload).map (a.typeId, ·)
    else none
  | .interrogate _ _ => none

/-- What becomes of the receiver whose waiter is taken. -/
def Input.verdict : Input → Oneshot Bool → Oneshot Bool
  | .asdu a => Oneshot.send a.cot.negative
  | _ => Oneshot.drop

namespace CommandCall

/-- The call has neither given up nor answered. -/
def Waits (call : CommandCall) : Prop := call.stage = .sending ∨ call.stage = .waiting

/-- The slot of the call: its waiter is registered as long as it was not taken. -/
def slot? (call : CommandCall) : Option (UInt8 × UInt32) :=
  if call.ack = .pending then some call.request.key else none

/-- **A call can go to a stage**: it does not begin to wait again, and there is no success
unless it was sent one. -/
structure GoesTo (call : CommandCall) (stage : CommandStage) : Prop where
  waits : (call.goTo stage).Waits → call.Waits
  success : ∀ c, stage = .answered (.ok c) →
    call.stage = stage ∨ call.Waits ∧ call.ack = .sent false

/-- What a call does next. -/
theorem exists_goTo {call : CommandCall} {i : CommandInput} {t : Bool}
    {f : CommandCall → CommandCall} {actions : List (CallAction Confirmation)}
    (h : call.next i = some (t, f, actions)) : ∃ stage, f = goTo stage ∧ call.GoesTo stage := by
  -- it waits, and the success is looked at in the cases
  have hwaits {stage : CommandStage} (hw : call.Waits)
      (hs : ∀ c, stage = .answered (.ok c) → call.ack = .sent false) : call.GoesTo stage :=
    ⟨fun _ => hw, fun c hc => Or.inr ⟨hw, hs c hc⟩⟩
  obtain ⟨req, ack, stage⟩ := call
  cases i with
  | register req => cases h
  | sent ok =>
    cases stage with
    | sending =>
      cases ok <;> cases h <;> exact ⟨_, rfl, hwaits (.inl rfl) fun c hc => by cases hc⟩
    | _ => cases h
  | wake =>
    cases stage with
    | waiting =>
      cases ack with
      | pending => cases h
      | sent negative =>
        cases negative <;> cases h <;> exact ⟨_, rfl, hwaits (.inr rfl) (by simp)⟩
      | dropped =>
        cases h
        exact ⟨_, rfl, hwaits (.inr rfl) fun c hc => by cases hc⟩
    | _ => cases h
  | elapse =>
    cases stage <;> cases ack <;> cases h
    exact ⟨_, rfl, hwaits (.inr rfl) fun c hc => by cases hc⟩
  | cleanUp =>
    cases stage with
    | failing message =>
      cases h
      refine ⟨_, rfl, ⟨fun hw => ?_, fun c hc => by cases hc⟩⟩
      obtain hw | hw := hw <;> cases hw
    | _ => cases h

end CommandCall

/-! ## One step, as one call sees it -/

/-- A receiver whose waiter is taken is not pending any more. -/
theorem verdict_ne_pending (i : Input) (ack : Oneshot Bool) : i.verdict ack ≠ .pending := by
  cases i <;> cases ack <;> simp [Input.verdict, Oneshot.send, Oneshot.drop]

theorem verdict_of_ne {i : Input} {ack : Oneshot Bool} (h : ack ≠ .pending) :
    i.verdict ack = ack := by
  cases i <;> cases ack <;> first | rfl | exact absurd rfl h

section Step

variable {call : CommandCall} {k? : Option (UInt8 × UInt32)}

/-- The waiters after an ASDU. -/
theorem cmdWaiters_processAsdu (st : DaemonState F32) (fp : PointArith F32 F64) (a : Asdu) :
    (processAsdu st fp a).1.cmdWaiters = match (Input.asdu a).cmdKey? st with
        | some key =>
          (st.cmdWaiters.signal key (CommandCall.confirm a.cot.negative)).unplug
            CommandCall.hangUp key
        | none => st.cmdWaiters := by
  have hobserve : ∀ (os : List (Observation F32)) (st : DaemonState F32),
      (os.foldl (fun st o => observe st a o) st).cmdWaiters = st.cmdWaiters := by
    intro os
    induction os with
    | nil => exact fun st => rfl
    | cons o os ih => exact fun st => ih _
  unfold processAsdu Input.cmdKey?
  dsimp only
  cases isTermination a with
  | true => rfl
  | false =>
    cases isConfirmation a with
    | true => cases firstIoa a.payload <;> rfl
    | false => exact hobserve _ st

variable (fp)

/-- The call goes to a stage, and its waiter is taken or not. -/
theorem exists_hasUnless (h : st.cmdWaiters.Has n k? call) (i : Input) :
    ∃ stage, call.GoesTo stage ∧ (step fp st i).1.cmdWaiters.HasUnless n k? (call.goTo stage)
      (i.cmdKey? st) ⟨call.request, i.verdict call.ack, stage⟩ := by
  have hstays : call.GoesTo call.stage := ⟨id, fun c _ => Or.inl rfl⟩
  cases i with
  | command m i =>
    obtain ⟨f, rfl | ⟨rfl, t, actions, hf⟩, hturn⟩ := h.turn (D := commandDesk) m i
    · exact ⟨call.stage, hstays, hturn⟩
    · obtain ⟨stage, rfl, hstage⟩ := CommandCall.exists_goTo hf
      exact ⟨stage, hstage, hturn⟩
  | interrogate m i => exact ⟨call.stage, hstays, h.hasUnless_none⟩
  | asdu a =>
    refine ⟨call.stage, hstays, ?_⟩
    show (processAsdu st fp a).1.cmdWaiters.HasUnless n k? _ _ _
    rw [cmdWaiters_processAsdu]
    cases (Input.asdu a).cmdKey? st with
    | none => exact h.hasUnless_none
    | some key =>
      have htold : ((st.cmdWaiters.signal key _).unplug CommandCall.hangUp key).HasUnless
          n k? call _ _ := h.signal_unplug (f := CommandCall.confirm a.cot.negative)
      have hdrop : (call.ack.send a.cot.negative).drop = call.ack.send a.cot.negative := by
        cases call.ack <;> rfl
      rw [CommandCall.hangUp, CommandCall.confirm, hdrop] at htold
      exact htold

/-- **One step of the daemon, as one call sees it.** -/
theorem exists_goTo_step (h : st.cmdWaiters.Has n call.slot? call) (i : Input) :
    ∃ call', (step fp st i).1.cmdWaiters.Has n call'.slot? call'
      ∧ call'.request = call.request ∧ call.GoesTo call'.stage
      ∧ call'.ack = if i.cmdKey? st = some call.request.key then i.verdict call.ack
        else call.ack := by
  obtain ⟨stage, hstage, ⟨k, hk, hkey, hhas⟩ | ⟨hkey, hhas⟩⟩ :=
    exists_hasUnless fp h i
  · have hown : k = call.request.key := by
      unfold CommandCall.slot? at hk
      by_cases hack : call.ack = .pending
      · rw [if_pos hack] at hk
        exact (Option.some.inj hk).symm
      · rw [if_neg hack] at hk
        cases hk
    refine ⟨⟨call.request, i.verdict call.ack, stage⟩, ?_, rfl, hstage, (if_pos ?_).symm⟩
    · rw [CommandCall.slot?, if_neg (verdict_ne_pending i call.ack)]
      exact hhas
    · rw [hkey, hown]
  · refine ⟨call.goTo stage, hhas, rfl, hstage, ?_⟩
    -- a receiver that is not pending stays as it is
    by_cases hack : call.ack = .pending
    · exact (if_neg (hkey _ (if_pos hack))).symm
    · rw [verdict_of_ne hack, ite_self]
      rfl

end Step

/-! ## Runs -/

/-- A call is pending: it waits, and nothing was sent to it. -/
def CommandPending (st : DaemonState F32) (n : ℕ) : Prop :=
  ∃ call, st.cmdWaiters.line n = some call ∧ call.Waits ∧ call.ack = .pending

/-- A confirmation of the command has come, and it is not a negative one. -/
def Confirmed (req : CommandRequest) (s : History F32) : Prop :=
  ∃ k ∈ s, ∃ a, k.input = .asdu a ∧ Confirms a req ∧ a.cot.negative = false

/-- **The call of a command is answered as it should be.** If it answers with success, then
its confirmation has come; and as long as it is pending, nothing else settles it. -/
structure CommandSound (fp : PointArith F32 F64) (n : ℕ) (req : CommandRequest)
    (s : History F32) (st' : DaemonState F32) : Prop where
  matched : ∀ call c, st'.cmdWaiters.line n = some call → call.stage = .answered (.ok c) →
    Confirmed req s
  undisturbed : ∀ k ∈ s, CommandPending k.before n → ∀ call,
    (step fp k.before k.input).1.cmdWaiters.line n = some call → call.ack ≠ .pending →
      ∃ a, k.input = .asdu a ∧ Confirms a req

/-- As long as the call is pending, its waiter is taken only by an ASDU with its common
address. -/
def OwnKey (n : ℕ) (req : CommandRequest) (s : History F32) : Prop :=
  ∀ k ∈ s, CommandPending k.before n → k.input.cmdKey? k.before = some req.key →
    ∃ a, k.input = .asdu a ∧ a.ca.raw = req.ca

variable {req : CommandRequest} {s : History F32}

theorem confirms_of_cmdKey? {a : Asdu} (hkey : (Input.asdu a).cmdKey? st = some req.key)
    (hca : a.ca.raw = req.ca) : Confirms a req := by
  unfold Input.cmdKey? at hkey
  dsimp only at hkey
  cases hterm : isTermination a with
  | true =>
    rw [hterm] at hkey
    cases hkey
  | false =>
    cases hcon : isConfirmation a with
    | false =>
      rw [hterm, hcon] at hkey
      cases hkey
    | true =>
      rw [hterm, hcon] at hkey
      obtain ⟨ioa, hioa, hpair⟩ := Option.map_eq_some_iff.mp hkey
      obtain ⟨htype, rfl⟩ := Prod.mk.inj hpair
      exact ⟨eq_of_beq (Bool.and_eq_true_iff.mp hcon).1, hca, htype, hioa⟩

/-- **The call along a run**, and its success if nobody else has taken its waiter. -/
theorem exists_call (hnew : st.cmdWaiters.line n = none)
    (r : Run (step fp) (step fp st (.command n (.register req))).1 s st') :
    ∃ call, st'.cmdWaiters.Has n call.slot? call ∧ call.request = req ∧ (OwnKey n req s →
        (call.Waits ∧ call.ack = .sent false ∨ ∃ c, call.stage = .answered (.ok c)) →
          Confirmed req s) := by
  induction r with
  | nil =>
    refine ⟨⟨req, .pending, .sending⟩, ?_, rfl, fun _ hcall => ?_⟩
    · show (commandDesk.turn st.cmdWaiters n (.register req)).1.Has n _ _
      rw [Desk.turn, hnew]
      exact Board.has_plug hnew
    · obtain ⟨_, hcall⟩ | ⟨c, hcall⟩ := hcall <;> cases hcall
  | @snoc s st₁ r i ih =>
    obtain ⟨call, hhas, rfl, hconf⟩ := ih
    obtain ⟨call', hhas', hreq, hgoes, hack⟩ := exists_goTo_step fp hhas i
    refine ⟨call', hhas', hreq, fun hkeys hcall => ?_⟩
    -- what the call had been sent before
    have hbefore (hcall : call.Waits ∧ call.ack = .sent false
        ∨ ∃ c, call.stage = .answered (.ok c)) :
        Confirmed call.request (s ++ [Machine.call (step fp) st₁ i]) := by
      obtain ⟨k, hk, hconf⟩ :=
        hconf (fun k hk => hkeys k (List.mem_append_left _ hk)) hcall
      exact ⟨k, List.mem_append_left _ hk, hconf⟩
    obtain ⟨hwaits, hsent⟩ | ⟨c, hc⟩ := hcall
    · have hwaits := hgoes.waits hwaits
      by_cases hpending : call.ack = .pending
      · -- it is sent now
        by_cases hkey : i.cmdKey? st₁ = some call.request.key
        · have hk := List.mem_append_right s
            (List.mem_singleton_self (Machine.call (step fp) st₁ i))
          rw [if_pos hkey, hpending] at hack
          obtain ⟨a, rfl, hca⟩ := hkeys _ hk ⟨call, hhas.line, hwaits, hpending⟩ hkey
          have hneg : a.cot.negative = false := Oneshot.sent.inj (hack.symm.trans hsent)
          exact ⟨_, hk, a, rfl, confirms_of_cmdKey? hkey hca, hneg⟩
        · rw [if_neg hkey, hpending, hsent] at hack
          cases hack
      · rw [verdict_of_ne hpending, ite_self] at hack
        exact hbefore (.inl ⟨hwaits, hack.symm.trans hsent⟩)
    · obtain hc' | hcall := hgoes.success c hc
      · exact hbefore (.inr ⟨c, hc'.trans hc⟩)
      · exact hbefore (.inl hcall)

/-- **A command is answered as it should be if and only if**, as long as it is pending, its
waiter is taken only by ASDUs with its common address. -/
theorem command_sound_iff (hnew : st.cmdWaiters.line n = none)
    (r : Run (step fp) (step fp st (.command n (.register req))).1 s st') :
    CommandSound fp n req s st' ↔ OwnKey n req s := by
  constructor
  · intro hsound k hk hpending hkey
    obtain ⟨⟨g, r⟩, -⟩ := r.of_mem hk
    obtain ⟨call, hhas, rfl, -⟩ := exists_call hnew r
    obtain ⟨call', hhas', -, -, hack⟩ := exists_goTo_step fp hhas k.input
    rw [if_pos hkey] at hack
    obtain ⟨a, ha, hconf⟩ := hsound.undisturbed k hk hpending call' hhas'.line
      (hack ▸ verdict_ne_pending _ _)
    exact ⟨a, ha, hconf.2.1⟩
  · intro hkeys
    refine ⟨fun call c hcall hc => ?_, fun k hk hpending call' hcall' hack' => ?_⟩
    · obtain ⟨call', hhas, -, hconf⟩ := exists_call hnew r
      obtain rfl := Option.some.inj (hhas.line.symm.trans hcall)
      exact hconf hkeys (.inr ⟨c, hc⟩)
    · obtain ⟨⟨g, r⟩, -⟩ := r.of_mem hk
      obtain ⟨call, hhas, rfl, -⟩ := exists_call hnew r
      obtain ⟨_, hhas', -, -, hack⟩ := exists_goTo_step fp hhas k.input
      obtain rfl := Option.some.inj (hhas'.line.symm.trans hcall')
      by_cases hkey : k.input.cmdKey? k.before = some call.request.key
      · obtain ⟨a, ha, hca⟩ := hkeys k hk hpending hkey
        rw [ha] at hkey
        exact ⟨a, ha, confirms_of_cmdKey? hkey hca⟩
      · -- the receiver was pending and is as it was
        obtain ⟨call₀, hcall₀, -, hpending⟩ := hpending
        obtain rfl := Option.some.inj (hhas.line.symm.trans hcall₀)
        rw [if_neg hkey, hpending] at hack
        exact absurd hack hack'

/-- A single command for the address 100 of a station. -/
def singleTo (ca : UInt16) : CommandRequest :=
  handleCmdSingle (.new 1 : DaemonState ExtRat) 100 (some ca) true

/-- The confirmation of this command. -/
def singleCon (ca : UInt16) : Asdu :=
  ⟨C_SC_NA_1.typeId, ⟨false, 1⟩, .of .activationCon, ⟨ca⟩, [100, 0, 0, 1]⟩

/-- A command that is confirmed. -/
theorem command_sound_single :
    let st : DaemonState ExtRat := .new 1
    let e := exec (step Exact.arith) (step Exact.arith st (.command 0 (.register (singleTo 1)))).1
      [.command 0 (.sent true), .asdu (singleCon 1), .command 0 .wake]
    CommandSound Exact.arith 0 (singleTo 1) e.1 e.2 := by
  intro st e
  refine (command_sound_iff rfl (run_exec _ _ _)).mpr ?_
  refine List.forall_mem_cons.mpr ⟨fun _ hkey => ?_, List.forall_mem_cons.mpr
    ⟨fun _ _ => ⟨_, rfl, rfl⟩, List.forall_mem_singleton.mpr fun _ hkey => ?_⟩⟩
  · exact absurd hkey (by decide +kernel)
  · exact absurd hkey (by decide +kernel)

/-- **Two stations, and the same address in both.** The second command drops the waiter of
the first one, which fails. The first one is confirmed, and the second one, which is not,
answers with success. -/
theorem command_unsound_stations :
    let st := (step Exact.arith (.new 1) (.command 0 (.register (singleTo 1)))).1
    let e := exec (step Exact.arith) (step Exact.arith st (.command 1 (.register (singleTo 2)))).1
      [.command 0 (.sent true), .command 0 .wake, .command 1 (.sent true),
        .asdu (singleCon 1), .command 1 .wake]
    (e.2.cmdWaiters.line 0).map CommandCall.stage
        = some (.answered (.error "command waiter dropped"))
      ∧ (e.2.cmdWaiters.line 1).map CommandCall.stage
        = some (.answered (.ok ⟨"activation_con", false⟩))
      ∧ ¬ ∀ (st : DaemonState ExtRat) n req s st', st.cmdWaiters.line n = none →
        Run (step Exact.arith) (step Exact.arith st (.command n (.register req))).1 s st' →
          CommandSound Exact.arith n req s st' := by
  intro st e
  have hone : (e.2.cmdWaiters.line 1).map CommandCall.stage
      = some (.answered (.ok ⟨"activation_con", false⟩)) := by decide +kernel
  refine ⟨by decide +kernel, hone, fun hall => ?_⟩
  have hsound := hall st 1 (singleTo 2) e.1 e.2 rfl (run_exec _ _ _)
  obtain ⟨call, hcall, hstage⟩ := Option.map_eq_some_iff.mp hone
  obtain ⟨k, hk, a, ha, hconf, -⟩ := hsound.matched call _ hcall hstage
  have hin : k.input ∈ e.1.map Call.input := List.mem_map_of_mem hk
  have hinputs : e.1.map Call.input = [.command 0 (.sent true), .command 0 .wake,
    .command 1 (.sent true), .asdu (singleCon 1), .command 1 .wake] := rfl
  rw [hinputs, ha] at hin
  obtain rfl : a = singleCon 1 := by simpa using hin
  exact absurd hconf.2.1 (by decide)

end Client
