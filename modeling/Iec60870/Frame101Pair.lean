import Iec60870.Duplex
import Iec60870.Frame101Station

/-!
# A master and an outstation over a lossy line

The two stations joined by a channel in each direction that may lose frames
and delay them, but neither reorders nor duplicates nor alters them
(`link`). Both ends may be given any input at any time, with any reading of
the clock.

**Each ASDU is delivered at most once, and in order.** The master repeats a
frame only while no other frame has been sent, and changes the frame count
bit from one ASDU to the next; the outstation drops a confirmed send whose
bit is the last one it has seen. What carries the proof is a statement about
the future rather than the past (`InOrder`): whichever of the frames in
flight arrive, and even if the pending frame is sent once more, what has
been delivered by then, followed by what is still queued, is a sublist of
what was submitted.

**Which ASDU it was.** Two submitted ASDUs may be equal, and a sublist does
not tell them apart. The machine, however, never looks at an ASDU, so every
run is what is left, after erasing the numbers, of a run in which every ASDU
carries the number of its submission (`numbering`).
-/

namespace Frame101

open Machine Connection Net

variable {α : Type}

/-! ## What a list of frames delivers -/

/-- The ASDUs an outstation delivers when frames arrive. -/
def deliveries (address : LinkAddress) : Option Bool → List (Frame α) → List α
  | _, [] => []
  | last, f :: fs =>
    (react address last f).asdus ++ deliveries address (react address last f).last fs

/-- The frame count bit an outstation has seen last after frames have
arrived. -/
def lastAfter (address : LinkAddress) : Option Bool → List (Frame α) → Option Bool
  | last, [] => last
  | last, f :: fs => lastAfter address (react address last f).last fs

theorem deliveries_append (address : LinkAddress) (last : Option Bool)
    (fs gs : List (Frame α)) : deliveries address last (fs ++ gs) = deliveries address last fs
        ++ deliveries address (lastAfter address last fs) gs := by
  induction fs generalizing last with
  | nil => rfl
  | cons f fs ih =>
    show _ ++ deliveries address _ (fs ++ gs) = _
    rw [ih, ← List.append_assoc]
    rfl

/-- A frame is **repeatable** if its second copy in a row delivers nothing. -/
def Repeatable (f : Frame α) : Prop :=
  ∀ address last, (react address (react address last f).last f).asdus = []

/-- A control frame delivers nothing. -/
theorem asdus_fixedLength (address : LinkAddress) (last : Option Bool)
    (control : UInt8) (a : LinkAddress) :
    (react address last (.fixedLength control a : Frame α)).asdus = [] := by
  rw [react]
  split
  · rfl
  · split
    · unfold reactFixed
      split <;> rfl
    · rfl

theorem repeatable_fixedLength (control : UInt8) (a : LinkAddress) :
    Repeatable (.fixedLength control a : Frame α) :=
  fun address _ => asdus_fixedLength address _ control a

/-- The reaction to a confirmed send at this address. -/
theorem react_userDataFrame (address : LinkAddress) (last : Option Bool) (fcb : Bool) (asdu : α) :
    react address last (Connection.userDataFrame address fcb asdu)
      = ⟨some fcb, if last = some fcb then [] else [asdu], true⟩ := by
  simp [react, Connection.userDataFrame, reactVariable]

/-- A confirmed send to another address is ignored. -/
theorem react_userDataFrame_of_ne {address a : LinkAddress} (ha : a ≠ address)
    (last : Option Bool) (fcb : Bool) (asdu : α) :
    react address last (Connection.userDataFrame a fcb asdu) = .none last := by
  rw [Connection.userDataFrame, react, if_pos ha]

/-- **The frame count bit does its work**: a repeated confirmed send is not
delivered again. -/
theorem repeatable_userDataFrame (a : LinkAddress) (fcb : Bool) (asdu : α) :
    Repeatable (Connection.userDataFrame a fcb asdu) := by
  intro address last
  by_cases ha : a = address
  · subst ha
    rw [react_userDataFrame, react_userDataFrame, if_pos rfl]
  · rw [react_userDataFrame_of_ne ha]
    rfl

/-- A confirmed send delivers its ASDU or nothing. -/
theorem asdus_userDataFrame (address a : LinkAddress) (last : Option Bool) (fcb : Bool) (asdu : α) :
    List.Sublist (react address last (Connection.userDataFrame a fcb asdu)).asdus [asdu] := by
  by_cases ha : a = address
  · subst ha
    rw [react_userDataFrame]
    show List.Sublist (if last = some fcb then [] else [asdu]) [asdu]
    split
    · exact List.nil_sublist _
    · exact List.Sublist.refl _
  · rw [react_userDataFrame_of_ne ha]
    exact List.nil_sublist _

/-- Of two copies in a row of a repeatable frame, one might as well not
arrive. -/
theorem exists_of_copies {f : Frame α} (hf : Repeatable f) {fs : List (Frame α)}
    (hfs : List.Sublist fs [f, f]) : ∃ gs, List.Sublist gs [f]
      ∧ ∀ address last, deliveries address last fs = deliveries address last gs := by
  have htwo (address : LinkAddress) (last : Option Bool) :
      deliveries address last [f, f] = deliveries address last [f] := by
    show _ ++ ((react address (react address last f).last f).asdus ++ []) = _
    rw [hf]
    rfl
  obtain ⟨n, hn, rfl⟩ := (List.sublist_replicate_iff (m := 2) (a := f)).1 hfs
  match n, hn with
  | 0, _ => exact ⟨[], List.nil_sublist _, fun _ _ => rfl⟩
  | 1, _ => exact ⟨[f], List.Sublist.refl _, fun _ _ => rfl⟩
  | 2, _ => exact ⟨[f], List.Sublist.refl _, htwo⟩

/-- What copies of a repeatable frame deliver, one copy delivers or
nothing. -/
theorem deliveries_copies {f : Frame α} (hf : Repeatable f) {fs : List (Frame α)}
    (hfs : List.Sublist fs [f, f]) (address : LinkAddress) (last : Option Bool) :
    List.Sublist (deliveries address last fs) (react address last f).asdus := by
  obtain ⟨gs, hgs, heq⟩ := exists_of_copies hf hfs
  rw [heq]
  obtain rfl | rfl := List.sublist_singleton.1 hgs
  · exact List.nil_sublist _
  · rw [deliveries, deliveries, List.append_nil]

/-! ## The order of the deliveries -/

/-- **Whatever arrives, it is delivered in order**: `done` has been
delivered by an outstation whose last frame count bit is `last`, the frames
`line` are on their way to it, and the master is at the view `v` of a call,
`asdus` having been submitted. -/
structure InOrder (address : LinkAddress) (done : List α) (last : Option Bool)
    (line : List (Frame α)) (v : SendView α) (asdus : List α) : Prop where
  /-- The pending frame may be repeated. -/
  repeatable : ∀ f, v.pending = some f → Repeatable f
  /-- Whichever frames arrive, the pending one at most once more. -/
  sublist : ∀ fs, List.Sublist fs (line ++ v.out ++ v.pending.toList) →
    List.Sublist (done ++ deliveries address last fs ++ v.queue) asdus

section InOrder

variable {address a : LinkAddress} {done asdus : List α} {last : Option Bool}
  {line : List (Frame α)} {v w : SendView α}

/-- The frames on their way may be fewer. -/
theorem InOrder.lose (h : InOrder address done last line v asdus)
    {line' : List (Frame α)} (hl : List.Sublist line' line) :
    InOrder address done last line' v asdus := by
  refine ⟨h.repeatable, fun fs hfs => h.sublist fs (hfs.trans ?_)⟩
  exact (hl.append_right _).append_right _

/-- An arrival. -/
theorem InOrder.arrive {f : Frame α} (h : InOrder address done last (f :: line) v asdus) :
    InOrder address (done ++ (react address last f).asdus)
      (react address last f).last line v asdus := by
  refine ⟨h.repeatable, fun fs hfs => ?_⟩
  have hs := h.sublist (f :: fs) (hfs.cons_cons f)
  rw [deliveries, ← List.append_assoc] at hs
  exact hs

section

variable (h : InOrder address done last line v asdus)

include h

/-- A submission. -/
theorem InOrder.submit (more : List α) :
    InOrder address done last line { v with queue := v.queue ++ more }
      (asdus ++ more) := by
  refine ⟨h.repeatable, fun fs hfs => ?_⟩
  show List.Sublist (_ ++ (v.queue ++ more)) _
  rw [← List.append_assoc]
  exact (h.sublist fs hfs).append_right more

/-- **A new frame on the line**: if it delivers no more than the queue loses,
the order is kept. -/
theorem InOrder.send {f : Frame α} {queue : List α} {fcb : Bool} (hf : Repeatable f)
    (hq : ∀ l, List.Sublist ((react address l f).asdus ++ queue) v.queue) :
    InOrder address done last line ⟨some f, queue, fcb, v.out ++ [f]⟩ asdus := by
  refine ⟨fun g hg => Option.some.inj hg ▸ hf, fun fs hfs => ?_⟩
  rw [← List.append_assoc, List.append_assoc] at hfs
  obtain ⟨fs₁, fs₂, rfl, h₁, h₂⟩ := List.sublist_append_iff.1 hfs
  rw [deliveries_append]
  have hcopies := deliveries_copies hf h₂ address (lastAfter address last fs₁)
  have hold := h.sublist fs₁ (h₁.trans (List.sublist_append_left _ _))
  calc List.Sublist (done ++ (deliveries address last fs₁
          ++ deliveries address (lastAfter address last fs₁) fs₂) ++ queue)
        (done ++ deliveries address last fs₁ ++ v.queue) := by
        rw [← List.append_assoc, List.append_assoc _ _ queue]
        exact ((hcopies.append_right queue).trans (hq _)).append_left _
    List.Sublist _ asdus := hold

/-- When a call ends, its frames are on the line. -/
theorem InOrder.release : InOrder address done last (line ++ v.out) { v with out := [] } asdus := by
  refine ⟨h.repeatable, fun fs hfs => h.sublist fs ?_⟩
  rw [List.append_nil] at hfs
  exact hfs

/-- **A deed keeps the order.** -/
theorem InOrder.deed (hd : Deed a v w) : InOrder address done last line w asdus := by
  cases hd with
  | clear =>
    refine ⟨fun f hf => (nomatch hf), fun fs hfs => h.sublist fs ?_⟩
    exact hfs.trans (List.Sublist.append_left (List.nil_sublist _) _)
  | start asdu rest hp hq =>
    refine h.send (repeatable_userDataFrame a v.fcb asdu) fun l => ?_
    rw [hq]
    exact (asdus_userDataFrame address a l v.fcb asdu).append_right rest
  | ask control =>
    refine h.send (repeatable_fixedLength control a) fun l => ?_
    rw [asdus_fixedLength]
    exact List.Sublist.refl _
  | @again f hp =>
    refine ⟨h.repeatable, fun fs hfs => ?_⟩
    -- of the pending frame and its new copy on the line, one is enough
    have hfs' : List.Sublist fs (line ++ v.out ++ [f, f]) := by
      rw [hp, ← List.append_assoc, List.append_assoc] at hfs
      exact hfs
    obtain ⟨fs₁, fs₂, rfl, h₁, h₂⟩ := List.sublist_append_iff.1 hfs'
    obtain ⟨gs, hgs, heq⟩ := exists_of_copies (h.repeatable f hp) h₂
    have hold := h.sublist (fs₁ ++ gs) (by rw [hp]; exact h₁.append hgs)
    rw [deliveries_append, heq, ← deliveries_append]
    exact hold

/-- **A call of the master keeps the order.** -/
theorem InOrder.deeds (hd : Deeds a v w) : InOrder address done last line w asdus := by
  induction hd with
  | refl => exact h
  | tail _ hd ih => exact ih.deed hd

end

end InOrder

/-! ## The line -/

/-- **A master at `left` and an outstation at `right`**, both driven by
inputs that meet `P`, over a lossy line. -/
def link (P : Side → List (Call α) → Input α × Instant → Prop) :
    Net (Connection α) (Input α × Instant) (Action α) (Frame α) where
  step := Connection.handle
  offers x h i := i.1.frame? = none ∧ P x h i
  receives m i := i.1 = .frameReceived m
  ignores _ := False
  message := Action.frame?
  halts _ := false
  lossy := True

section Decidable

variable [DecidableEq α] {P : Side → List (Call α) → Input α × Instant → Prop}

instance [∀ x h i, Decidable (P x h i)] (x : Side) (h : List (Call α))
    (i : Input α × Instant) : Decidable ((link P).offers x h i) :=
  inferInstanceAs (Decidable (_ ∧ _))

instance (m : Frame α) (i : Input α × Instant) :
    Decidable ((link P).receives m i) :=
  inferInstanceAs (Decidable (_ = _))

instance : Decidable (link P).lossy := inferInstanceAs (Decidable True)

end Decidable

/-- A state of the line. -/
abbrev Line (α : Type) :=
  Net.State (Connection α) (Input α × Instant) (Action α) (Frame α)

/-- The line before anything has happened. -/
def lineInit (config : Side → Config) : Line α :=
  Net.State.init fun x =>
    match x with
    | .left => .unbalanced .master (config .left)
    | .right => .unbalanced .outstation (config .right)

section Order

variable {P : Side → List (Call α) → Input α × Instant → Prop}
  {config : Side → Config} {s t : Line α}

/-- The invariant of the line. -/
def LineInOrder (config : Side → Config) (s : Line α) : Prop :=
  InOrder (config .right).linkAddress (delivered (s.past .right))
    (s.node .right).lastFcbSeen (s.inbox .right)
    (Connection.exitView (s.node .left, [])) (submitted (s.past .left))

/-- The master's part of a state reached. -/
theorem master_of_reachable (hs : (link P).Reachable (lineInit config) s) :
    (s.node .left).role = .master
      ∧ (s.node .left).config = config .left ∧ (s.node .left).actions = [] :=
  kept_of_run (run_of_reachable hs .left)

/-- The outstation's part of a state reached. -/
theorem outstation_of_reachable (hs : (link P).Reachable (lineInit config) s) :
    (s.node .right).role = .outstation
      ∧ (s.node .right).config = config .right ∧ (s.node .right).actions = []
      ∧ (s.node .right).pending = none := by
  have hrun := run_of_reachable hs .right
  obtain ⟨hr, hcfg, hc⟩ := kept_of_run hrun
  exact ⟨hr, hcfg, hc, pending_of_run hrun⟩

/-- A call of the master. -/
theorem LineInOrder.master (h : LineInOrder config s)
    (hr : (s.node .left).role = .master) (hc : (s.node .left).actions = [])
    (i : Input α × Instant) : LineInOrder config ((link P).perform s .left i) := by
  have hcall := (InOrder.submit h i.1.asdu?.toList).deeds (deeds_handle hr hc i)
  have hsub : submitted (((link P).perform s .left i).past .left)
      = submitted (s.past .left) ++ i.1.asdu?.toList := by
    rw [perform_past_self]
    exact submitted_snoc _ _ i
  unfold LineInOrder
  rw [hsub, perform_node_self]
  exact hcall.release

/-- A call of the outstation, on a frame that has left the line or on an
input that is none. -/
theorem LineInOrder.outstation {i : Input α × Instant} (hr : (s.node .right).role = .outstation)
    (hcfg : (s.node .right).config = config .right)
    (hc : (s.node .right).actions = []) (hp : (s.node .right).pending = none)
    (h : InOrder (config .right).linkAddress
      (delivered (s.past .right) ++ (reactTo (config .right).linkAddress
        (s.node .right).lastFcbSeen i.1).asdus)
      (reactTo (config .right).linkAddress (s.node .right).lastFcbSeen i.1).last
      (s.inbox .right) (Connection.exitView (s.node .left, []))
      (submitted (s.past .left))) :
    LineInOrder config ((link P).perform s .right i) := by
  obtain ⟨hlast, hasdus, -, -⟩ := reacts_handle hr hp hc i
  rw [hcfg] at hlast hasdus
  have hdel : delivered (((link P).perform s .right i).past .right)
      = delivered (s.past .right) ++ (reactTo (config .right).linkAddress
        (s.node .right).lastFcbSeen i.1).asdus := by
    rw [perform_past_self, ← hasdus]
    exact delivered_snoc _ _ i
  unfold LineInOrder
  rw [hdel, perform_node_self, perform_inbox_self]
  show InOrder _ _ ((s.node .right).handle i).1.lastFcbSeen _ _ _
  rw [hlast]
  exact h

/-- An input that is no frame makes an outstation do nothing. -/
theorem reactTo_of_frame? {address : LinkAddress} {last : Option Bool}
    {input : Input α} (hf : input.frame? = none) :
    reactTo address last input = .none last := by
  cases input with
  | frameReceived frame => exact absurd hf (by simp [Input.frame?])
  | _ => rfl

section

variable (hs : (link P).Reachable (lineInit config) s)

include hs

/-- **Every step of the line keeps the order.** -/
theorem LineInOrder.step
    (h : LineInOrder config s) (st : (link P).Step s t) : LineInOrder config t := by
  obtain ⟨hrl, -, hcl⟩ := master_of_reachable hs
  obtain ⟨hrr, hcfg, hcr, hpr⟩ := outstation_of_reachable hs
  cases st with
  | offer x i live ho =>
    cases x with
    | left => exact h.master hrl hcl i
    | right =>
      refine LineInOrder.outstation hrr hcfg hcr hpr ?_
      rw [reactTo_of_frame? ho.1]
      show InOrder _ (_ ++ []) _ _ _ _
      rw [List.append_nil]
      exact h
  | take x m rest i live hin hrec =>
    cases x with
    | left => exact LineInOrder.master (s := s.pop .left m rest) h hrl hcl i
    | right =>
      unfold LineInOrder at h
      rw [hin] at h
      refine LineInOrder.outstation (s := s.pop .right m rest) hrr hcfg hcr hpr ?_
      rw [show i.1 = .frameReceived m from hrec, pop_inbox_self]
      exact h.arrive
  | ignore x m rest live hin hi => exact absurd hi id
  | lose x l m r hl hin =>
    cases x with
    | left => exact h
    | right =>
      unfold LineInOrder at h ⊢
      rw [hin] at h
      rw [shrink_inbox_self]
      exact h.lose ((List.sublist_cons_self m r).append_left l)

/-- **The order is kept in every run.** -/
theorem lineInOrder_of_reachable : LineInOrder config s := by
  refine Net.Reachable.invariant ?_ (fun _ _ hs h st => LineInOrder.step hs h st) hs
  refine ⟨fun f hf => (nomatch hf), fun fs hfs => ?_⟩
  rw [List.sublist_nil.1 hfs]
  exact List.Sublist.refl _

/-- **What has been delivered is a sublist of what was submitted**, in every
run of the line and for every type of ASDUs. -/
theorem delivered_sublist_submitted :
    List.Sublist (delivered (s.past .right)) (submitted (s.past .left)) := by
  have h := (lineInOrder_of_reachable hs).sublist [] (List.nil_sublist _)
  rw [deliveries, List.append_nil] at h
  exact (List.sublist_append_left _ _).trans h

end

end Order

/-! ## The number of a submission -/

/-- The line with arbitrary inputs at both ends. -/
abbrev freeLine (α : Type) :
    Net (Connection α) (Input α × Instant) (Action α) (Frame α) :=
  link (fun _ _ _ => True)

/-- The line with numbered ASDUs: each carries the number of the submissions
before it. -/
abbrev numberedLine (α : Type) :
    Net (Connection (α × ℕ)) (Input (α × ℕ) × Instant) (Action (α × ℕ)) (Frame (α × ℕ)) :=
  link (fun _ h i => ∀ a ∈ i.1.asdu?, a.2 = (submitted h).length)

/-- An input with its ASDU numbered. -/
def Input.number (n : ℕ) (input : Input α) : Input (α × ℕ) := input.map (·, n)

theorem Input.map_number (n : ℕ) (input : Input α) : (input.number n).map Prod.fst = input := by
  cases input with
  | frameReceived frame => cases frame <;> rfl
  | _ => rfl

theorem Input.frame?_number {n : ℕ} {input : Input α} (hf : input.frame? = none) :
    (input.number n).frame? = none := by
  cases input with
  | frameReceived frame => exact absurd hf (by simp [Input.frame?])
  | _ => rfl

theorem Input.asdu?_number {n : ℕ} {input : Input α} {a : α × ℕ}
    (ha : a ∈ (input.number n).asdu?) : a.2 = n := by
  cases input with
  | sendUserData asdu =>
    rw [← Option.some.inj ha]
  | _ => exact absurd ha (by simp [Input.number, Input.map, Input.asdu?])

/-- **The numbers can be erased**, and every run can be numbered. -/
def numbering (α : Type) : Net.Erasure (numberedLine α) (freeLine α) where
  node := Connection.map Prod.fst
  input i := (i.1.map Prod.fst, i.2)
  action := Action.map Prod.fst
  msg := Frame.map Prod.fst
  step c i := handle_map Prod.fst c i
  message a := by cases a <;> rfl
  halts _ := rfl
  offers x h i ho := by
    refine ⟨(i.1.number (submitted h).length, i.2), ?_, ?_, fun a ha => ?_⟩
    · rw [Input.map_number]
    · exact Input.frame?_number ho.1
    · exact Input.asdu?_number ha
  receives m i hr := ⟨(.frameReceived m, i.2), Prod.ext hr.symm rfl, rfl⟩
  ignores _ h := h
  lossy h := h

section Numbers

variable {config : Side → Config} {s : Line (α × ℕ)}

/-- The ASDUs of erased calls are the erased ASDUs. -/
theorem submitted_map (h : List (Call (α × ℕ))) :
    submitted (h.map (numbering α).call) = (submitted h).map Prod.fst := by
  unfold submitted
  rw [List.filterMap_map, List.map_filterMap]
  refine List.filterMap_congr (fun k _ => ?_)
  show (k.input.1.map Prod.fst).asdu? = _
  cases k.input.1 <;> rfl

/-- A list is numbered if its elements carry their positions. -/
def IsNumbered (l : List (α × ℕ)) : Prop := l = (l.map Prod.fst).zipIdx

/-- One more element with its position. -/
theorem IsNumbered.snoc {l : List (α × ℕ)} (hl : IsNumbered l)
    {o : Option (α × ℕ)} (ho : ∀ a ∈ o, a.2 = l.length) :
    IsNumbered (l ++ o.toList) := by
  cases o with
  | none =>
    rw [Option.toList_none, List.append_nil]
    exact hl
  | some a =>
    have ha : a = (a.1, l.length) := Prod.ext rfl (ho a rfl)
    unfold IsNumbered
    rw [List.map_append, List.zipIdx_append, ← hl, List.length_map, Nat.zero_add]
    exact congrArg (l ++ [·]) ha

/-- **The submissions of a numbered line are numbered.** -/
theorem isNumbered_submitted (hs : (numberedLine α).Reachable (lineInit config) s) :
    ∀ x, IsNumbered (submitted (s.past x)) := by
  induction hs with
  | refl => exact fun _ => rfl
  | tail _ st ih =>
    intro x
    cases st with
    | offer y i live ho =>
      obtain rfl | rfl := Side.eq_or_eq_other y x
      · rw [perform_past_self]
        exact (submitted_snoc _ _ i).symm ▸ (ih x).snoc ho.2
      · rw [perform_past_other]
        exact ih _
    | take y m rest i live hin hr =>
      obtain rfl | rfl := Side.eq_or_eq_other y x
      · rw [perform_past_self]
        refine (submitted_snoc _ _ i).symm ▸ (ih x).snoc (fun a ha => ?_)
        rw [show i.1 = .frameReceived m from hr] at ha
        exact absurd ha (by simp [Input.asdu?])
      · rw [perform_past_other]
        exact ih _
    | ignore y m rest live hin hi => exact absurd hi id
    | lose y l m r hl hin => exact ih x

end Numbers

/-- **At most once, and in order.** In every run of the line, with losses,
delays and retransmissions, the ASDUs the outstation delivers are a sublist
of those submitted to the master, by the number of the submission: the run
is what is left of a run with numbered ASDUs, in which the sublist is one of
pairwise different ASDUs. -/
theorem delivered_in_order {config : Side → Config} {s : Line α}
    (hs : (freeLine α).Reachable (lineInit config) s) :
    ∃ t : Line (α × ℕ), (numberedLine α).Reachable (lineInit config) t
      ∧ (numbering α).state t = s
      ∧ submitted (t.past .left) = (submitted (s.past .left)).zipIdx
      ∧ List.Sublist (delivered (t.past .right)) (submitted (t.past .left)) := by
  have hinit : (numbering α).state (lineInit config) = lineInit config := by
    unfold Net.Erasure.state lineInit Net.State.init
    congr 1
    funext x
    cases x <;> rfl
  obtain ⟨t, ht, rfl⟩ := (numbering α).exists_reachable (hinit.symm ▸ hs)
  refine ⟨t, ht, rfl, ?_, delivered_sublist_submitted ht⟩
  rw [isNumbered_submitted ht .left]
  exact congrArg List.zipIdx (submitted_map (t.past .left)).symm

/-- Both ends at address 1, with the default timeout and retries. -/
def stationOne : Side → Config := fun _ => { Config.default with linkAddress := ⟨1⟩ }

/-- The same ASDU is submitted twice, and its first frame is repeated before
it is acknowledged. -/
def repeatedAsdu : List (Net.Move (Input Bytes × Instant)) :=
  let frame fcb : Frame Bytes := Connection.userDataFrame ⟨1⟩ fcb [7]
  let ack : Frame Bytes := .fixedLength 0x00 ⟨1⟩
  [.offer .left (.sendUserData [7], 0), .offer .left (.sendUserData [7], 0),
   .offer .left (.tick, 1),
   .take .right (.frameReceived (frame false), 1),
   .take .right (.frameReceived (frame false), 1),
   .lose .left 0,
   .take .left (.frameReceived ack, 2),
   .take .right (.frameReceived (frame true), 2)]

/-- Three frames arrive, two ASDUs are delivered, and these are the two that
were submitted. -/
theorem delivered_in_order_repeatedAsdu :
    ∃ s : Line Bytes, (freeLine Bytes).Reachable (lineInit stationOne) s
      ∧ delivered (s.past .right) = [[7], [7]]
      ∧ ∃ t : Line (Bytes × ℕ), (numbering Bytes).state t = s
        ∧ List.Sublist (delivered (t.past .right)) [([7], 0), ([7], 1)] := by
  obtain ⟨s, hs, hdel, hsub⟩ := Net.exists_reachable_of_play
    (N := freeLine Bytes) (s := lineInit stationOne) repeatedAsdu
    (P := fun s => delivered (s.past .right) = [[7], [7]]
      ∧ submitted (s.past .left) = [[7], [7]]) (by decide +kernel)
  obtain ⟨t, -, hst, hnum, hord⟩ := delivered_in_order hs
  rw [hnum, hsub] at hord
  exact ⟨s, hs, hdel, t, hst, hord⟩

end Frame101
