import Iec60870.ClientDaemon
import Iec60870.Keyed

/-!
# Complete interrogations

A call of `handle_interrogate` registers a collector, waits for its done signal and answers
with the points that are in its channel. The termination of any interrogation of its
station sends the signal, although the qualifier is in the payload and in the key of the
collector. The channel takes 256 points, and the others are lost. A second call with the
same key drops the collector of the first one, which then finds its channel closed and goes
on as if it had been signalled.

`interrogate_complete` says that the answer is complete if none of this happens (`FairCall`):
it has the last value of every point that was reported before the termination, as long as
these are not reported once more before the call has emptied its channel.
-/

open Iec60870 Deadband Machine Points Switchboard

namespace Client

open InterrogateCall

variable {F32 F64 : Type} {fp : PointArith F32 F64} {st st' : DaemonState F32} {n : ℕ}
  {ca : UInt16} {qoi : Qoi} {s : History F32}

/-- The ASDU is the termination of the interrogation: with its common address and its
qualifier. -/
def Terminates (a : Asdu) (ca : UInt16) (qoi : Qoi) : Prop :=
  isTermination a ∧ a.ca.raw = ca ∧ ∃ ioa, a.decodePayload C_IC_NA_1 .iec104 = .ok [(ioa, qoi)]

/-- The points that an input reports with a common address. -/
def Input.reports (fp : PointArith F32 F64) (ca : UInt16) : Input → List (Point F32)
  | .asdu a => if a.ca.raw = ca then (observations fp a).map Observation.point else []
  | _ => []

/-- The points that were reported with a common address. -/
def reports (fp : PointArith F32 F64) (ca : UInt16) (s : History F32) : List (Point F32) :=
  s.flatMap fun k => k.input.reports fp ca

theorem reports_snoc (k : Call (DaemonState F32) Input (Action F32)) :
    reports fp ca (s ++ [k]) = reports fp ca s ++ k.input.reports fp ca := by
  rw [reports, List.flatMap_append, List.flatMap_singleton]
  rfl

/-- A point with its key. -/
def Point.keyed (p : Point F32) : Option ((UInt8 × UInt32) × Point F32) := some (p.key, p)

/-- **The answer is complete**: the termination has come, and for all that was reported
until then the answer has the last value. -/
def Complete (fp : PointArith F32 F64) (ca : UInt16) (qoi : Qoi) (s : History F32)
    (answer : Interrogated F32) : Prop :=
  ∃ g k g', s = g ++ k :: g' ∧ (∃ a, k.input = .asdu a ∧ Terminates a ca qoi)
    ∧ ∀ key p, Keyed.LastAt Point.keyed key p (reports fp ca g) → p ∈ answer.points

/-- The key at which an input takes a collector. -/
def Input.icKey? (st : DaemonState F32) : Input → Option (UInt16 × UInt8)
  | .interrogate n i => (interrogateDesk st.coa).taken st.interrogations n i
  | _ => none

/-! ## What a call does -/

namespace InterrogateCall

variable {call call' : InterrogateCall F32}

/-- The call has not begun to empty its channel. -/
def Waits (call : InterrogateCall F32) : Prop := call.stage = .sending ∨ call.stage = .waiting

/-- What is in the channel will be taken. -/
def Collects (call : InterrogateCall F32) : Prop := call.Waits ∨ call.stage = .draining

/-- What the call has, and will take out of the channel. -/
def gathered (call : InterrogateCall F32) : List (Point F32) :=
  match call.stage with
  | .sending | .waiting | .draining => call.collected ++ call.buffer
  | _ => call.collected

theorem gathered_of_collects (h : call.Collects) :
    call.gathered = call.collected ++ call.buffer := by
  unfold gathered
  obtain (h | h) | h := h <;> rw [h]

theorem gathered_of_not_collects (h : ¬ call.Collects) : call.gathered = call.collected := by
  unfold gathered
  split <;> first | rfl | simp_all [Collects, Waits]

/-- The wait has ended at the deadline, or there was an error. -/
def Lost (call : InterrogateCall F32) : Prop :=
  ¬ call.Waits ∧ call.ended = some .deadline ∨ ∃ message, call.stage = .failing message
    ∨ call.stage = .answered (.error message)

/-- An answer is what the call has gathered. -/
def Answers (call : InterrogateCall F32) : Prop :=
  ∀ answer, call.stage = .answered (.ok answer) → answer = interrogated call.gathered

/-- **What a call does by itself**: it keeps what it has gathered, or it is lost. -/
structure Moves (call call' : InterrogateCall F32) : Prop where
  key : call'.key = call.key
  lost : call.Lost → call'.Lost
  gathered : call'.Lost ∨ call'.gathered = call.gathered ∧ (call.Answers → call'.Answers)
  waits : call.Waits → call.done = .pending → call'.Lost ∨ call'.Waits

/-- Its signal may be dropped meanwhile. -/
theorem moves_drop (d : Oneshot Unit) : call.Moves { call with done := d } :=
  ⟨rfl, id, Or.inr ⟨rfl, id⟩, fun h _ => Or.inr h⟩

theorem moves_next {i : InterrogateInput} {t : Bool}
    {f : InterrogateCall F32 → InterrogateCall F32}
    {actions : List (CallAction (Interrogated F32))} (h : call.next i = some (t, f, actions))
    (d : Oneshot Unit) :
    call.Moves (f { call with done := d }) ∧ (f { call with done := d }).done = d := by
  obtain ⟨ca, qoi, done, buffer, collected, stage, ended⟩ := call
  cases i with
  | register group ca => cases h
  | sent ok =>
    cases stage with
    | sending =>
      cases ok <;> cases h <;> refine ⟨⟨rfl, ?_, ?_, ?_⟩, rfl⟩ <;>
        simp [Lost, Waits, Answers, gathered, goTo]
    | _ => cases h
  | wake =>
    cases stage with
    | waiting =>
      cases done <;> cases h <;> refine ⟨⟨rfl, ?_, ?_, ?_⟩, rfl⟩ <;>
        simp [Lost, Waits, Answers, gathered, endWait]
    | _ => cases h
  | elapse =>
    cases stage with
    | waiting =>
      cases h
      refine ⟨⟨rfl, ?_, ?_, ?_⟩, rfl⟩ <;> simp [Lost, Waits, endWait]
    | _ => cases h
  | recv =>
    cases stage with
    | draining =>
      cases buffer <;> cases h
      refine ⟨⟨rfl, ?_, ?_, ?_⟩, rfl⟩ <;> simp [Lost, Waits, Answers, gathered, recv]
    | _ => cases h
  | drained =>
    cases stage with
    | draining =>
      cases buffer <;> cases h
      refine ⟨⟨rfl, ?_, ?_, ?_⟩, rfl⟩ <;> simp [Lost, Waits, Answers, gathered, goTo]
    | _ => cases h
  | cleanUp =>
    cases stage with
    | cleaning =>
      cases h
      refine ⟨⟨rfl, ?_, ?_, ?_⟩, rfl⟩ <;> simp [Lost, Waits, Answers, gathered, goTo]
    | failing message =>
      cases h
      refine ⟨⟨rfl, ?_, ?_, ?_⟩, rfl⟩ <;> simp [Lost, Waits, goTo]
    | _ => cases h

/-- What a call takes from an ASDU with its common address. -/
def heard (fp : PointArith F32 F64) (a : Asdu) (call : InterrogateCall F32) :
    InterrogateCall F32 :=
  if isTermination a then call.finish
  else (observations fp a).foldl (fun call o => call.push o.point) call

theorem key_push (p : Point F32) : (call.push p).key = call.key := by
  unfold push
  split <;> rfl

/-- Points go into the channel as long as there is room. -/
theorem exists_foldl_push (os : List (Observation F32)) (call : InterrogateCall F32) :
    ∃ e, (∀ p ∈ e, p ∈ os.map Observation.point) ∧ os.foldl (fun call o => call.push o.point) call
        = { call with buffer := call.buffer ++ e }
      ∧ (call.buffer.length + os.length ≤ capacity → e = os.map Observation.point) := by
  induction os generalizing call with
  | nil => exact ⟨[], fun p hp => hp, by simp, fun _ => rfl⟩
  | cons o os ih =>
    obtain ⟨e, he, hcall, hroom⟩ := ih (call.push o.point)
    rw [List.foldl_cons, hcall]
    unfold push at hroom ⊢
    by_cases hlt : call.buffer.length < capacity
    · rw [if_pos hlt] at hroom ⊢
      refine ⟨o.point :: e, fun p hp => ?_, by simp, fun hlen => ?_⟩
      · obtain rfl | hp := List.mem_cons.mp hp
        · exact List.mem_cons_self
        · exact List.mem_cons_of_mem _ (he p hp)
      · rw [List.map_cons, hroom]
        simp only [List.length_append, List.length_cons, List.length_nil] at hlen ⊢
        omega
    · rw [if_neg hlt]
      refine ⟨e, fun p hp => List.mem_cons_of_mem _ (he p hp), rfl, fun hlen => ?_⟩
      rw [List.length_cons] at hlen
      omega

end InterrogateCall

/-! ## One step, as one call sees it -/

/-- What ends an interrogation or confirms a command reports nothing. -/
theorem observations_eq_nil {a : Asdu} (h : isTermination a ∨ isConfirmation a) :
    observations fp a = [] := by
  refine observations_of_mem ?_
  obtain h | h := h
  · exact List.mem_cons.mpr (.inl (eq_of_beq (Bool.and_eq_true_iff.mp h).2))
  · exact List.mem_cons_of_mem _ (List.contains_iff_mem.mp (Bool.and_eq_true_iff.mp h).2)

section Step

variable {call : InterrogateCall F32} {k? : Option (UInt16 × UInt8)}

variable (ca) in
/-- A call with a collector is told of what comes with its common address. -/
theorem has_signalAll (h : st.interrogations.Has n k? call)
    (hk : ∀ k, k? = some k → k = call.key) (f : InterrogateCall F32 → InterrogateCall F32) :
    (st.interrogations.signalAll (collectorKeys st ca) f).Has n k?
      (if k? ≠ none ∧ ca = call.ca then f call else call) := by
  have hiff : (∃ k ∈ collectorKeys st ca, k? = some k) ↔ k? ≠ none ∧ ca = call.ca := by
    constructor
    · rintro ⟨k, hmem, rfl⟩
      refine ⟨Option.some_ne_none k, ?_⟩
      rw [hk k rfl] at hmem
      exact (eq_of_beq (List.mem_filter.mp hmem).2).symm
    · rintro ⟨hne, rfl⟩
      obtain ⟨k, rfl⟩ := Option.ne_none_iff_exists'.mp hne
      have hslot : k ∈ st.interrogations.slots :=
        AList.lookup_isSome.mp (Option.isSome_of_eq_some ((h.slot k).mpr rfl))
      refine ⟨k, List.mem_filter.mpr ⟨AList.mem_keys.mp hslot, ?_⟩, rfl⟩
      rw [hk k rfl]
      exact beq_self_eq_true _
  have hkeys : (collectorKeys st ca).Nodup := st.interrogations.slots.keys_nodup.filter _
  have hall := h.signalAll (f := f) hkeys
  simpa only [hiff] using hall

variable (fp) in
theorem has_processAsdu (h : st.interrogations.Has n k? call)
    (hk : ∀ k, k? = some k → k = call.key) (a : Asdu) :
    (processAsdu st fp a).1.interrogations.Has n k?
      (if k? ≠ none ∧ a.ca.raw = call.ca then call.heard fp a else call) := by
  have hobserve : ∀ (os : List (Observation F32)) (st : DaemonState F32)
      (call : InterrogateCall F32), st.interrogations.Has n k? call →
      (∀ k, k? = some k → k = call.key) →
      (os.foldl (fun st o => observe st a o) st).interrogations.Has n k?
        (if k? ≠ none ∧ a.ca.raw = call.ca
          then os.foldl (fun call o => call.push o.point) call else call) := by
    intro os
    induction os with
    | nil =>
      intro st call h _
      rw [List.foldl_nil, List.foldl_nil, ite_self]
      exact h
    | cons o os ih =>
      intro st call h hk
      have hfed := has_signalAll a.ca.raw h hk fun call => call.push o.point
      by_cases hhears : k? ≠ none ∧ a.ca.raw = call.ca
      · rw [if_pos hhears] at hfed ⊢
        have hkey : (call.push o.point).key = call.key := key_push o.point
        have hrest := ih (observe st a o) _ hfed fun k hk' => (hk k hk').trans hkey.symm
        rw [if_pos ⟨hhears.1, hhears.2.trans (Prod.mk.inj hkey).1.symm⟩] at hrest
        exact hrest
      · rw [if_neg hhears] at hfed ⊢
        have hrest := ih (observe st a o) _ hfed hk
        rw [if_neg hhears] at hrest
        exact hrest
  unfold processAsdu InterrogateCall.heard
  cases hterm : isTermination a with
  | true => exact has_signalAll _ h hk _
  | false =>
    cases hcon : isConfirmation a with
    | true =>
      rw [observations_eq_nil (.inr hcon)]
      cases firstIoa a.payload <;> simpa using h
    | false => exact hobserve _ st call h hk

end Step

/-! ## Runs -/

/-- The call waits and was not signalled. -/
def Gathers (st : DaemonState F32) (n : ℕ) : Prop :=
  ∃ call, st.interrogations.line n = some call ∧ call.Waits ∧ call.done = .pending

/-- The call was signalled, and will still take what is in its channel. -/
def Drains (st : DaemonState F32) (n : ℕ) : Prop :=
  ∃ call, st.interrogations.line n = some call ∧ call.Collects ∧ call.done ≠ .pending

/-- **Nothing comes in the way of an interrogation.** Until it is signalled, its collector is
not taken, what ends an interrogation of its station ends this one, and its channel does
not overflow. And what was reported until then is not reported again before the channel
is empty. -/
structure FairCall (fp : PointArith F32 F64) (n : ℕ) (ca : UInt16) (qoi : Qoi)
    (g : History F32) (k : Call (DaemonState F32) Input (Action F32)) : Prop where
  own : Gathers k.before n → k.input.icKey? k.before ≠ some (ca, qoi.raw)
  qualifier : Gathers k.before n → ∀ a, k.input = .asdu a → isTermination a →
    a.ca.raw = ca → Terminates a ca qoi
  capacity : Gathers k.before n → (reports fp ca (g ++ [k])).length ≤ InterrogateCall.capacity
  settled : Drains k.before n → ∀ p ∈ k.input.reports fp ca, ∀ j ∈ g, Gathers j.before n →
    ∀ q ∈ j.input.reports fp ca, q.key ≠ p.key

/-- The history up to the termination; what was taken from the rest is of other keys. -/
structure Cut (fp : PointArith F32 F64) (n : ℕ) (ca : UInt16) (qoi : Qoi)
    (s g : History F32) (extra : List (Point F32)) : Prop where
  split : ∃ k g', s = g ++ k :: g' ∧ ∃ a, k.input = .asdu a ∧ Terminates a ca qoi
  gathers : ∀ j ∈ g, Gathers j.before n
  fresh : ∀ p ∈ extra, ∀ q ∈ reports fp ca g, q.key ≠ p.key

/-- **Where a call is.** -/
inductive Phase (fp : PointArith F32 F64) (n : ℕ) (ca : UInt16) (qoi : Qoi)
    (s : History F32) (k? : Option (UInt16 × UInt8)) (call : InterrogateCall F32) : Prop
  | lost (h : call.Lost)
  | gathering (hwaits : call.Waits) (hdone : call.done = .pending)
      (hslot : k? = some (ca, qoi.raw)) (hall : ∀ j ∈ s, Gathers j.before n)
      (hpoints : call.gathered = reports fp ca s)
  | terminated {g : History F32} {extra : List (Point F32)} (hcut : Cut fp n ca qoi s g extra)
      (hdone : call.done ≠ .pending) (hanswers : call.Answers)
      (hpoints : call.gathered = reports fp ca g ++ extra)

section Phase

variable {call call' : InterrogateCall F32} {k? k?' : Option (UInt16 × UInt8)}
  {k : Call (DaemonState F32) Input (Action F32)} {g : History F32} {extra e : List (Point F32)}

theorem Cut.snoc (h : Cut fp n ca qoi s g extra)
    (he : ∀ p ∈ e, ∀ q ∈ reports fp ca g, q.key ≠ p.key) :
    Cut fp n ca qoi (s ++ [k]) g (extra ++ e) := by
  obtain ⟨k', g', rfl, hterm⟩ := h.split
  refine ⟨⟨k', g' ++ [k], by rw [List.append_assoc, List.cons_append], hterm⟩, h.gathers,
    fun p hp => ?_⟩
  obtain hp | hp := List.mem_append.mp hp
  · exact h.fresh p hp
  · exact he p hp

theorem gathers_snoc (hall : ∀ j ∈ s, Gathers j.before n) (hk : Gathers k.before n) :
    ∀ j ∈ s ++ [k], Gathers j.before n := by
  intro j hj
  obtain hj | hj := List.mem_append.mp hj
  · exact hall j hj
  · rw [List.mem_singleton.mp hj]
    exact hk

section

variable (h : Phase fp n ca qoi s k? call) (hline : k.before.interrogations.line n = some call)

include h hline

/-- The call moves by itself, and nothing is reported to it. -/
theorem Phase.moves (hm : call.Moves call')
    (hslot : Gathers k.before n → k?' = k? ∧ call'.done = call.done)
    (hdone : call.done ≠ .pending → call'.done ≠ .pending)
    (hreports : k? = some (ca, qoi.raw) → k.input.reports fp ca = []) :
    Phase fp n ca qoi (s ++ [k]) k?' call' := by
  cases h with
  | lost h => exact .lost (hm.lost h)
  | gathering hwaits hpending hk hall hpoints =>
    have hgathers : Gathers k.before n := ⟨call, hline, hwaits, hpending⟩
    obtain ⟨hk', hdone'⟩ := hslot hgathers
    obtain hlost | hwaits' := hm.waits hwaits hpending
    · exact .lost hlost
    · obtain hlost | ⟨hsame, -⟩ := hm.gathered
      · exact .lost hlost
      · refine .gathering hwaits' (hdone'.trans hpending) (hk'.trans hk)
          (gathers_snoc hall hgathers) ?_
        rw [reports_snoc, hreports hk, List.append_nil, hsame, hpoints]
  | terminated hcut hnot hanswers hpoints =>
    obtain hlost | ⟨hsame, hanswers'⟩ := hm.gathered
    · exact .lost hlost
    · refine .terminated (hcut.snoc (e := []) fun p hp => absurd hp List.not_mem_nil)
        (hdone hnot) (hanswers' hanswers) ?_
      rw [List.append_nil, hsame, hpoints]

/-- The call is signalled. -/
theorem Phase.finish {a : Asdu} (hk : k.input = .asdu a)
    (hca : a.ca.raw = ca) (hterm : isTermination a) (hfair : FairCall fp n ca qoi s k) :
    Phase fp n ca qoi (s ++ [k]) k? call.finish := by
  have hsent : call.done.send () ≠ .pending := by
    cases call.done <;> simp [Oneshot.send]
  cases h with
  | lost h => exact .lost h
  | gathering hwaits hpending hslot hall hpoints =>
    have hterm := hfair.qualifier ⟨call, hline, hwaits, hpending⟩ a hk hterm hca
    have hcut : Cut fp n ca qoi (s ++ [k]) s [] :=
      ⟨⟨k, [], rfl, a, hk, hterm⟩, hall, fun p hp => absurd hp List.not_mem_nil⟩
    refine .terminated hcut hsent (fun answer hstage => ?_) ?_
    · obtain hw | hw := hwaits <;> cases hw.symm.trans hstage
    · rw [List.append_nil]
      exact hpoints
  | terminated hcut hdone hanswers hpoints =>
    refine .terminated (hcut.snoc (e := []) fun p hp => absurd hp List.not_mem_nil) hsent
      hanswers ?_
    rw [List.append_nil]
    exact hpoints

/-- Points that are reported go into the channel, and in the beginning all of them. -/
theorem Phase.push (he : ∀ p ∈ e, p ∈ k.input.reports fp ca)
    (hroom : call.buffer.length + (k.input.reports fp ca).length ≤ InterrogateCall.capacity →
      e = k.input.reports fp ca) (hfair : FairCall fp n ca qoi s k) :
    Phase fp n ca qoi (s ++ [k]) k? { call with buffer := call.buffer ++ e } := by
  have happ (hc : call.Collects) :
      InterrogateCall.gathered { call with buffer := call.buffer ++ e } = call.gathered ++ e := by
    have hc' : InterrogateCall.Collects { call with buffer := call.buffer ++ e } := hc
    rw [gathered_of_collects hc', gathered_of_collects hc, List.append_assoc]
  cases h with
  | lost h => exact .lost h
  | gathering hwaits hpending hslot hall hpoints =>
    have hgathers : Gathers k.before n := ⟨call, hline, hwaits, hpending⟩
    have hlen := hfair.capacity hgathers
    have hlen' : call.buffer.length + (k.input.reports fp ca).length
        ≤ InterrogateCall.capacity := by
      rw [reports_snoc, ← hpoints, gathered_of_collects (.inl hwaits)] at hlen
      simp only [List.length_append] at hlen
      omega
    refine .gathering hwaits hpending hslot (gathers_snoc hall hgathers) ?_
    rw [happ (.inl hwaits), hpoints, reports_snoc, hroom hlen']
  | @terminated g extra hcut hdone hanswers hpoints =>
    by_cases hc : call.Collects
    · have hfresh : ∀ p ∈ e, ∀ q ∈ reports fp ca g, q.key ≠ p.key := by
        intro p hp q hq
        obtain ⟨j, hj, hq⟩ := List.mem_flatMap.mp hq
        have hj' : j ∈ s := by
          obtain ⟨k', g', rfl, -⟩ := hcut.split
          exact List.mem_append_left _ hj
        exact hfair.settled ⟨call, hline, hc, hdone⟩ p (he p hp) j hj' (hcut.gathers j hj) q hq
      refine .terminated (hcut.snoc hfresh) hdone (fun answer hstage => ?_) ?_
      · obtain (hc | hc) | hc := hc <;> cases hc.symm.trans hstage
      · rw [happ hc, hpoints, List.append_assoc]
    · -- the channel is not looked at any more
      have hc' : ¬ InterrogateCall.Collects { call with buffer := call.buffer ++ e } := hc
      have hsame := (gathered_of_not_collects hc').trans (gathered_of_not_collects hc).symm
      refine .terminated (hcut.snoc (e := []) fun p hp => absurd hp List.not_mem_nil) hdone
        (fun answer hstage => ?_) ?_
      · rw [hsame]
        exact hanswers answer hstage
      · rw [List.append_nil, hsame, hpoints]

end

end Phase

/-- **A call on its course.** -/
structure Course (fp : PointArith F32 F64) (n : ℕ) (ca : UInt16) (qoi : Qoi) (s : History F32)
    (st : DaemonState F32) (k? : Option (UInt16 × UInt8)) (call : InterrogateCall F32) :
    Prop where
  has : st.interrogations.Has n k? call
  slot : ∀ k, k? = some k → k = call.key
  key : call.key = (ca, qoi.raw)
  phase : Phase fp n ca qoi s k? call

section Course

variable {call : InterrogateCall F32} {k? : Option (UInt16 × UInt8)}

theorem Course.step (h : Course fp n ca qoi s st k? call) (i : Input)
    (hfair : FairCall fp n ca qoi s (Machine.call (step fp) st i)) :
    ∃ k?' call', Course fp n ca qoi (s ++ [Machine.call (Client.step fp) st i])
      (Client.step fp st i).1 k?' call' := by
  have hstays (hreports : k? = some (ca, qoi.raw) → i.reports fp ca = []) :
      Phase fp n ca qoi (s ++ [Machine.call (Client.step fp) st i]) k? call :=
    h.phase.moves h.has.line (moves_drop call.done) (fun _ => ⟨rfl, rfl⟩) id hreports
  cases i with
  | command m i => exact ⟨k?, call, h.has, h.slot, h.key, hstays fun _ => rfl⟩
  | interrogate m i =>
    obtain ⟨f, hf, hturn⟩ := h.has.turn (D := interrogateDesk st.coa) m i
    -- the call moves by itself or not at all
    have hmoves (d : Oneshot Unit) : call.Moves (f { call with done := d })
        ∧ (f { call with done := d }).done = d := by
      obtain rfl | ⟨rfl, t, actions, hf⟩ := hf
      · exact ⟨moves_drop d, rfl⟩
      · exact moves_next hf d
    obtain ⟨k, hk, htaken, hhas⟩ | ⟨htaken, hhas⟩ := hturn
    · obtain ⟨hm, hd⟩ := hmoves call.done.drop
      refine ⟨none, _, hhas, fun k hk => absurd hk.symm (Option.some_ne_none k),
        hm.key.trans h.key, ?_⟩
      refine h.phase.moves h.has.line hm (fun hgathers => ?_) (fun hdone => ?_) fun _ => rfl
      · have hkey := (h.slot k hk).trans h.key
        exact absurd (htaken.trans (congrArg some hkey)) (hfair.own hgathers)
      · have hdrop : call.done.drop ≠ .pending := by
          cases call.done <;> simp [Oneshot.drop]
        exact fun heq => hdrop (hd.symm.trans heq)
    · obtain ⟨hm, hd⟩ := hmoves call.done
      exact ⟨k?, _, hhas, fun k hk => (h.slot k hk).trans hm.key.symm, hm.key.trans h.key,
        h.phase.moves h.has.line hm (fun _ => ⟨rfl, hd⟩) (fun hdone => hd ▸ hdone) fun _ => rfl⟩
  | asdu a =>
    have hhas := has_processAsdu fp h.has h.slot a
    have hca : call.ca = ca := (Prod.mk.inj h.key).1
    rw [hca] at hhas
    by_cases hhears : k? ≠ none ∧ a.ca.raw = ca
    · rw [if_pos hhears] at hhas
      have hreports : (Input.asdu a).reports fp ca = (observations fp a).map Observation.point :=
        if_pos hhears.2
      cases hterm : isTermination a with
      | true =>
        rw [InterrogateCall.heard, if_pos hterm] at hhas
        exact ⟨k?, _, hhas, h.slot, h.key, h.phase.finish h.has.line rfl hhears.2 hterm hfair⟩
      | false =>
        obtain ⟨e, he, hpushed, hroom⟩ := call.exists_foldl_push (observations fp a)
        rw [InterrogateCall.heard, hterm, if_neg Bool.false_ne_true, hpushed] at hhas
        refine ⟨k?, _, hhas, h.slot, h.key, h.phase.push h.has.line ?_ ?_ hfair⟩
        · exact fun p hp => hreports ▸ he p hp
        · intro hlen
          rw [Machine.call_input, hreports, List.length_map] at hlen
          exact (hroom hlen).trans hreports.symm
    · rw [if_neg hhears] at hhas
      refine ⟨k?, call, hhas, h.slot, h.key, hstays fun hk => if_neg fun heq => ?_⟩
      exact hhears ⟨hk ▸ Option.some_ne_none _, heq⟩

/-- The index of an answer has the last point of every key. -/
theorem built_seen (l : List (Point F32)) : Keyed.Built .last Point.keyed l (seen l) := by
  induction l using List.reverseRecOn with
  | nil => exact Keyed.built_nil
  | append_singleton l p ih =>
    rw [seen, List.foldl_append]
    exact ih.insert rfl (.inl rfl)

theorem mem_points {l : List (Point F32)} {key : UInt8 × UInt32} {p : Point F32}
    (h : Keyed.LastAt Point.keyed key p l) : p ∈ (interrogated l).points := by
  have hlookup := ((built_seen l).last (by decide) key p).mpr h
  refine (List.mem_insertionSort _).mpr (List.mem_map.mpr ⟨⟨key, p⟩, ?_, rfl⟩)
  exact AList.mem_lookup_iff.mp hlookup

end Course

variable {group : Option UInt8} {ca? : Option UInt16}

theorem exists_course (hnew : st.interrogations.line n = none)
    (r : Run (step fp) (step fp st (.interrogate n (.register group ca?))).1 s st')
    (hfair : Throughout (FairCall fp n (ca?.getD st.coa) (group.elim .general .group)) s) :
    ∃ k? call, Course fp n (ca?.getD st.coa) (group.elim .general .group) s st' k? call := by
  induction r with
  | nil =>
    have hhas : (step fp st (.interrogate n (.register group ca?))).1.interrogations.Has n
        (some (ca?.getD st.coa, (group.elim Qoi.general Qoi.group).raw))
        ⟨ca?.getD st.coa, group.elim .general .group, .pending, [], [], .sending, none⟩ := by
      show ((interrogateDesk st.coa).turn st.interrogations n (.register group ca?)).1.Has n _ _
      rw [Desk.turn, hnew]
      exact Board.has_plug hnew
    exact ⟨_, _, hhas, fun k hk => (Option.some.inj hk).symm, rfl,
      .gathering (.inl rfl) rfl rfl (fun j hj => absurd hj List.not_mem_nil) rfl⟩
  | snoc r i ih =>
    obtain ⟨hfair, hcall⟩ := (throughout_snoc _ _).mp hfair
    obtain ⟨k?, call, hcourse⟩ := ih hfair
    exact hcourse.step i hcall

/-- **An interrogation is complete** if its wait ends with the done signal, and nothing
comes in its way. -/
theorem interrogate_complete (hnew : st.interrogations.line n = none)
    (r : Run (step fp) (step fp st (.interrogate n (.register group ca?))).1 s st')
    (hfair : Throughout (FairCall fp n (ca?.getD st.coa) (group.elim .general .group)) s)
    {call : InterrogateCall F32} {answer : Interrogated F32}
    (hcall : st'.interrogations.line n = some call) (hended : call.ended = some .done)
    (hstage : call.stage = .answered (.ok answer)) :
    Complete fp (ca?.getD st.coa) (group.elim .general .group) s answer := by
  obtain ⟨k?, call', hcourse⟩ := exists_course hnew r hfair
  obtain rfl := Option.some.inj (hcourse.has.line.symm.trans hcall)
  cases hcourse.phase with
  | lost h =>
    obtain ⟨-, h⟩ | ⟨message, h | h⟩ := h
    · cases h.symm.trans hended
    · cases h.symm.trans hstage
    · cases h.symm.trans hstage
  | gathering hwaits => obtain h | h := hwaits <;> cases h.symm.trans hstage
  | @terminated g extra hcut _ hanswers hpoints =>
    obtain ⟨k, g', hs, hterm⟩ := hcut.split
    refine ⟨g, k, g', hs, hterm, fun key p hlast => ?_⟩
    rw [hanswers answer hstage, hpoints]
    obtain ⟨before, x, after, heq, hx, hafter⟩ := hlast
    obtain ⟨rfl, rfl⟩ := Prod.mk.inj (Option.some.inj hx)
    refine mem_points ⟨before, x, after ++ extra, by rw [heq, List.append_assoc]; rfl, rfl, ?_⟩
    -- what came after the termination is of other keys
    rintro ⟨q, hq, v, hv⟩
    obtain ⟨hkey, rfl⟩ := Prod.mk.inj (Option.some.inj hv)
    obtain hq | hq := List.mem_append.mp hq
    · exact hafter ⟨q, hq, q, hv⟩
    · have hmem : x ∈ reports fp (ca?.getD st.coa) g :=
        heq ▸ List.mem_append_right _ List.mem_cons_self
      exact hcut.fresh q hq x hmem hkey.symm

/-- The station 1 has ended an interrogation. -/
def terminationOf (qoi : Qoi) : Asdu :=
  ⟨C_IC_NA_1.typeId, ⟨false, 1⟩, .of .activationTermination, ⟨1⟩, [0, 0, 0, qoi.raw]⟩

/-- The station 1 reports a single point. -/
def pointReport : Asdu :=
  ⟨M_SP_NA_1.typeId, ⟨false, 1⟩, .of .interrogatedGeneral, ⟨1⟩, [100, 0, 0, 1]⟩

/-- An interrogation of one point. -/
theorem interrogate_complete_one :
    let e := exec (step Exact.arith)
      (step Exact.arith (.new 1) (.interrogate 0 (.register none none))).1
      [.interrogate 0 (.sent true), .asdu pointReport, .asdu (terminationOf .general),
        .interrogate 0 .wake, .interrogate 0 .recv, .interrogate 0 .drained,
        .interrogate 0 .cleanUp]
    Complete Exact.arith 1 .general e.1 (interrogated [⟨.spNa, 100, .single true, {}⟩]) := by
  intro e
  have hfree : Throughout (fun g k =>
      ((k.before.interrogations.line 0).map InterrogateCall.done = some .pending →
        k.input.icKey? k.before ≠ some (1, 20))
      ∧ (reports Exact.arith 1 (g ++ [k])).length ≤ InterrogateCall.capacity
      ∧ ∀ p ∈ k.input.reports Exact.arith 1, ∀ j ∈ g, ∀ q ∈ j.input.reports Exact.arith 1,
        q.key ≠ p.key) e.1 := by
    decide +kernel
  have hfair : Throughout (FairCall Exact.arith 0 1 .general) e.1 := by
    intro m hm
    obtain ⟨hkey, hlen, hfresh⟩ := hfree m hm
    refine ⟨?_, fun _ a ha hterm _ => ?_, fun _ => hlen, fun _ p hp j hj _ => hfresh p hp j hj⟩
    · rintro ⟨call, hline, -, hdone⟩
      exact hkey (Option.map_eq_some_iff.mpr ⟨call, hline, hdone⟩)
    · have hin : Input.asdu a ∈ e.1.map Call.input :=
        ha ▸ List.mem_map_of_mem (List.getElem_mem hm)
      have hinputs : e.1.map Call.input = [.interrogate 0 (.sent true), .asdu pointReport,
        .asdu (terminationOf .general), .interrogate 0 .wake, .interrogate 0 .recv,
        .interrogate 0 .drained, .interrogate 0 .cleanUp] := rfl
      rw [hinputs] at hin
      obtain rfl | rfl : a = pointReport ∨ a = terminationOf .general := by simpa using hin
      · cases hterm
      · exact ⟨rfl, rfl, ⟨0⟩, by decide +kernel⟩
  have hcall : (e.2.interrogations.line 0).map (fun call => (call.ended, call.stage))
      = some (some .done, .answered (.ok (interrogated [⟨.spNa, 100, .single true, {}⟩]))) := by
    decide +kernel
  obtain ⟨call, hline, hpair⟩ := Option.map_eq_some_iff.mp hcall
  obtain ⟨hended, hstage⟩ := Prod.mk.inj hpair
  exact interrogate_complete rfl (run_exec _ _ _) hfair hline hended hstage

/-- **The termination of another interrogation.** Two clients interrogate the station 1, one
all of it and the other the group 1. When the group is done the first one answers too,
with nothing. -/
theorem interrogate_incomplete_group :
    let st := (step Exact.arith (.new 1) (.interrogate 1 (.register (some 1) none))).1
    let e := exec (step Exact.arith)
      (step Exact.arith st (.interrogate 0 (.register none none))).1
      [.interrogate 0 (.sent true), .asdu (terminationOf (.group 1)), .interrogate 0 .wake,
        .interrogate 0 .drained, .interrogate 0 .cleanUp]
    ((e.2.interrogations.line 0).map fun call => (call.done, call.ended, call.stage))
        = some (.sent (), some .done, .answered (.ok ⟨[], 0⟩))
      ∧ ¬ ∀ (st : DaemonState ExtRat) n group ca? s st' call answer,
        st.interrogations.line n = none →
        Run (step Exact.arith) (step Exact.arith st (.interrogate n (.register group ca?))).1
          s st' →
        st'.interrogations.line n = some call → call.done = .sent () →
        call.ended = some .done → call.stage = .answered (.ok answer) →
          Complete Exact.arith (ca?.getD st.coa) (group.elim .general .group) s answer := by
  intro st e
  have hcall : ((e.2.interrogations.line 0).map fun call => (call.done, call.ended, call.stage))
      = some (.sent (), some .done, .answered (.ok ⟨[], 0⟩)) := by
    decide +kernel
  refine ⟨hcall, fun hall => ?_⟩
  obtain ⟨call, hline, hfields⟩ := Option.map_eq_some_iff.mp hcall
  obtain ⟨hdone, hfields⟩ := Prod.mk.inj hfields
  obtain ⟨hended, hstage⟩ := Prod.mk.inj hfields
  obtain ⟨g, k, g', hsplit, ⟨a, ha, -, -, ioa, hpayload⟩, -⟩ :=
    hall st 0 none none e.1 e.2 call _ rfl (run_exec _ _ _) hline hdone hended hstage
  have hin : Input.asdu a ∈ e.1.map Call.input :=
    ha ▸ List.mem_map_of_mem (hsplit ▸ List.mem_append_right _ List.mem_cons_self)
  have hinputs : e.1.map Call.input = [.interrogate 0 (.sent true),
    .asdu (terminationOf (.group 1)), .interrogate 0 .wake, .interrogate 0 .drained,
    .interrogate 0 .cleanUp] := rfl
  rw [hinputs] at hin
  obtain rfl : a = terminationOf (.group 1) := by simpa using hin
  have hgroup : (terminationOf (.group 1)).decodePayload C_IC_NA_1 .iec104
      = .ok [(⟨0⟩, Qoi.group 1)] := by
    decide +kernel
  cases hgroup.symm.trans hpayload

end Client
