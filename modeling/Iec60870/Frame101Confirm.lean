import Iec60870.Frame101Pair

/-!
# What an acknowledgement confirms

An acknowledgement of the link layer is anonymous: it does not say which
frame it answers, and the master takes the first one that arrives for the
answer to the frame it is waiting with. That inference can fail in two ways.
A frame sent twice is acknowledged twice, and the second acknowledgement may
end the next exchange before its frame has arrived at all
(`ack_unconfirmed`). And an outstation that has missed a whole exchange
takes the frame count bit of the one after it for that of a repeated frame,
acknowledges it and drops it.

Both need something left over from before the exchange. On a line that is
*settled* for an exchange – no acknowledgement is on its way to the master,
nothing but the frame of the exchange is on its way to the outstation that
would be acknowledged, and the frame count bit is not the last one the
outstation has seen – neither can happen: when an acknowledgement ends the
exchange, its ASDU has been delivered (`delivered_of_settled`). From then on
the line may lose, delay and repeat as it likes.
-/

namespace Frame101

open Machine Connection Net

variable {α : Type} {c : Connection α} {address : LinkAddress} {last : Option Bool}
  {input : Input α}

/-- The ASDU of a frame. -/
def Frame.asdu? : Frame α → Option α
  | .variableLength _ _ asdu => some asdu
  | _ => none

/-- The frame the master waits with. -/
def waitsWith (s : Line α) : Option (Frame α) :=
  (s.node .left).pending.map PendingSend.frame

/-- **The master takes an ASDU for confirmed**: it waits with a confirmed
send of the ASDU, and the next frame it takes is an acknowledgement, which
ends the exchange (`masterOnFrame_of_isAck`). -/
def TakesForConfirmed (s : Line α) (asdu : α) : Prop :=
  (∃ address fcb, waitsWith s = some (Connection.userDataFrame address fcb asdu))
    ∧ ∃ f rest, s.inbox .left = f :: rest ∧ f.isAck = true

/-- An acknowledgement ends the exchange in progress, and the next one
begins. -/
theorem masterOnFrame_of_isAck {f : Frame α}
    (hf : f.isAck = true) (hp : c.pending.isSome) (now : Instant) :
    ∃ d : Connection α, d.pending = none ∧ d.sendQueue = c.sendQueue
      ∧ c.masterOnFrame f now = d.maybeFlushQueue now := by
  rw [← Frame.isAck_reply] at hf
  rw [masterOnFrame_eq]
  cases hreply : f.reply with
  | char => exact ⟨{ c with pending := none }, rfl, rfl, if_pos hp⟩
  | ack =>
    have hview := sendView_makeReady (c := { c with pending := none })
    exact ⟨_, Option.map_eq_none_iff.1 (congrArg SendView.pending hview),
      congrArg SendView.queue hview, if_pos hp⟩
  | _ =>
    rw [hreply] at hf
    exact absurd hf Bool.false_ne_true

/-- Whether a control frame is acknowledged. -/
def ControlField.isReset : ControlField → Bool
  | .primary _ _ .resetRemoteLink => true
  | _ => false

/-- Whether a frame with an ASDU is acknowledged. -/
def ControlField.isConfirmed : ControlField → Bool
  | .primary _ _ .userDataConfirmed => true
  | _ => false

/-- Whether an outstation at an address acknowledges a frame: a reset of the
link or a confirmed send, addressed to it. -/
def Frame.elicitsAck (address : LinkAddress) : Frame α → Bool
  | .single _ => false
  | .fixedLength control a =>
    a == address && (ControlField.decode control .primary).any ControlField.isReset
  | .variableLength control a _ =>
    a == address && (ControlField.decode control .primary).any ControlField.isConfirmed

theorem reactFixed_acks (last : Option Bool) (cf : ControlField) :
    (reactFixed last cf : Reaction α).acks = cf.isReset
      ∧ (cf.isReset = false → (reactFixed last cf : Reaction α).last = last) := by
  cases cf with
  | secondary acd dfc func => exact ⟨rfl, fun _ => rfl⟩
  | primary fcb fcv func =>
    cases func with
    | resetRemoteLink => exact ⟨rfl, fun h => absurd h.symm Bool.false_ne_true⟩
    | _ => exact ⟨rfl, fun _ => rfl⟩

theorem reactVariable_acks (last : Option Bool) (asdu : α) (cf : ControlField) :
    (reactVariable last asdu cf).acks = cf.isConfirmed
      ∧ (cf.isConfirmed = false → (reactVariable last asdu cf).last = last) := by
  cases cf with
  | secondary acd dfc func => exact ⟨rfl, fun _ => rfl⟩
  | primary fcb fcv func =>
    cases func with
    | userDataConfirmed => exact ⟨rfl, fun h => absurd h.symm Bool.false_ne_true⟩
    | _ => exact ⟨rfl, fun _ => rfl⟩

/-- **What the outstation acknowledges**; whatever else it receives leaves
its frame count bit alone. -/
theorem react_acks (address : LinkAddress) (last : Option Bool) (f : Frame α) :
    (react address last f).acks = f.elicitsAck address
      ∧ (f.elicitsAck address = false → (react address last f).last = last) := by
  cases f with
  | single char => exact ⟨rfl, fun _ => rfl⟩
  | fixedLength control a =>
    rw [react, Frame.elicitsAck]
    by_cases ha : a = address
    · rw [if_neg (not_not_intro ha), beq_iff_eq.mpr ha, Bool.true_and]
      cases ControlField.decode control .primary with
      | none => exact ⟨rfl, fun _ => rfl⟩
      | some cf => exact reactFixed_acks last cf
    · rw [if_pos ha, beq_eq_false_iff_ne.mpr ha]
      exact ⟨rfl, fun _ => rfl⟩
  | variableLength control a asdu =>
    rw [react, Frame.elicitsAck]
    by_cases ha : a = address
    · rw [if_neg (not_not_intro ha), beq_iff_eq.mpr ha, Bool.true_and]
      cases ControlField.decode control .primary with
      | none => exact ⟨rfl, fun _ => rfl⟩
      | some cf => exact reactVariable_acks last asdu cf
    · rw [if_pos ha, beq_eq_false_iff_ne.mpr ha]
      exact ⟨rfl, fun _ => rfl⟩

/-- An input the outstation does not acknowledge leaves its frame count bit
alone. -/
theorem reactTo_last (h : (reactTo address last input).acks = false) :
    (reactTo address last input).last = last := by
  cases input with
  | frameReceived f => exact (react_acks address last f).2 ((react_acks _ _ f).1 ▸ h)
  | _ => rfl

/-- An input the outstation acknowledges is a frame it acknowledges. -/
theorem exists_of_reactTo_acks (h : (reactTo address last input).acks = true) :
    ∃ f, input = .frameReceived f ∧ f.elicitsAck address = true := by
  cases input with
  | frameReceived f => exact ⟨f, rfl, (react_acks address last f).1 ▸ h⟩
  | _ => exact absurd h Bool.false_ne_true

/-- A confirmed send that is acknowledged and not taken for a repeated one is
delivered. -/
theorem asdus_of_acks {address a : LinkAddress} {fcb : Bool}
    {asdu : α} (hfresh : last ≠ some fcb)
    (hack : (Connection.userDataFrame a fcb asdu).elicitsAck address = true) :
    (react address last (Connection.userDataFrame a fcb asdu)).asdus = [asdu] := by
  by_cases ha : a = address
  · subst ha
    rw [react_userDataFrame, if_neg hfresh]
  · rw [← (react_acks address last _).1, react_userDataFrame_of_ne ha] at hack
    exact absurd hack Bool.false_ne_true

/-- **The line is settled** for an exchange with this frame and this frame
count bit. -/
structure Settled (s : Line α) (f : Frame α) (fcb : Bool) : Prop where
  /-- No acknowledgement is on its way to the master. -/
  quiet : ∀ g ∈ s.inbox .left, g.isAck = false
  /-- Only the frame itself is on its way to be acknowledged. -/
  alone : ∀ g ∈ s.inbox .right, g.elicitsAck (s.node .right).config.linkAddress = true → g = f
  /-- The outstation does not take it for a repeated one. -/
  fresh : (s.node .right).lastFcbSeen ≠ some fcb

/-! ## An exchange happens once -/

section Once

variable {asdu : α} {f : Frame α} {a : LinkAddress} {v w : SendView α}

/-- The ASDUs the master still holds: the pending one, then the queue. -/
def SendView.held (v : SendView α) : List α :=
  (v.pending.bind Frame.asdu?).toList ++ v.queue

/-- A deed takes ASDUs off the ones held, and puts none there. -/
theorem Deed.held (h : Deed a v w) : List.Sublist w.held v.held := by
  cases h with
  | clear | ask => exact List.sublist_append_right _ _
  | start asdu rest hp hq =>
    unfold SendView.held
    rw [hp, hq]
    exact List.Sublist.refl _
  | again hp => exact List.Sublist.refl _

theorem Deeds.held (h : Deeds a v w) : List.Sublist w.held v.held := by
  induction h with
  | refl => exact List.Sublist.refl _
  | tail _ hd ih => exact hd.held.trans ih

/-- The ASDU is not held any more, or it is the pending one and the call has
sent nothing but its frame. -/
def OnlyOnce (asdu : α) (f : Frame α) (v : SendView α) : Prop :=
  asdu ∉ v.queue ∧ (v.pending.bind Frame.asdu? ≠ some asdu
      ∨ (v.pending = some f ∧ ∀ g ∈ v.out, g = f))

theorem OnlyOnce.deed (h : OnlyOnce asdu f v) (hd : Deed a v w) : OnlyOnce asdu f w := by
  obtain ⟨hq, h⟩ := h
  cases hd with
  | clear | ask => exact ⟨hq, Or.inl (fun he => nomatch he)⟩
  | start b rest hp hb =>
    rw [hb, List.mem_cons, not_or] at hq
    exact ⟨hq.2, Or.inl (fun he => hq.1 (Option.some.inj he).symm)⟩
  | again hp =>
    refine ⟨hq, h.imp_right fun ⟨hf, hout⟩ => ⟨hf, fun g hg => ?_⟩⟩
    obtain hg | hg := List.mem_append.1 hg
    · exact hout g hg
    · rw [List.mem_singleton.1 hg]
      exact Option.some.inj (hp.symm.trans hf)

/-- **An exchange happens once**: in a call the pending frame of an ASDU is
repeated, or the ASDU is gone. -/
theorem OnlyOnce.deeds (h : OnlyOnce asdu f v) (hd : Deeds a v w) : OnlyOnce asdu f w := by
  induction hd with
  | refl => exact h
  | tail _ hd ih => exact ih.deed hd

end Once

/-! ## The exchange on the line -/

/-- **What the master holds has been submitted**, in this order. -/
theorem held_of_run {config : Config} {h : List (Call α)}
    (r : Run Connection.handle (Connection.unbalanced .master config) h c) :
    List.Sublist (Connection.exitView (c, [])).held (submitted h) := by
  induction r with
  | nil => exact List.Sublist.refl _
  | @snoc _ c r i ih =>
    obtain ⟨hr, -, hc⟩ := kept_of_run r
    have hcall := (deeds_handle hr hc i).held
    refine hcall.trans ?_
    rw [submitted_snoc]
    unfold SendView.held Connection.entryView
    rw [← List.append_assoc]
    exact ih.append_right _

/-- Numbered ASDUs are pairwise different. -/
theorem IsNumbered.nodup {l : List (α × ℕ)} (hl : IsNumbered l) : l.Nodup := by
  refine List.Nodup.of_map Prod.snd ?_
  rw [hl, List.zipIdx_map_snd]
  exact List.nodup_range'

section Exchange

variable {address : LinkAddress} {fcb : Bool} {asdu : α} {s t : Line α}
  {P : Side → List (Call α) → Input α × Instant → Prop} {i : Input α × Instant}

/-- **The invariant of an exchange** that was settled at some time: it
happens once, and as long as it lasts it is settled or its ASDU has been
delivered. -/
structure Confirming (address : LinkAddress) (fcb : Bool) (asdu : α)
    (s : Line α) : Prop where
  known : asdu ∈ submitted (s.past .left)
  once : OnlyOnce asdu (Connection.userDataFrame address fcb asdu)
    (Connection.exitView (s.node .left, []))
  settled : waitsWith s = some (Connection.userDataFrame address fcb asdu) →
    asdu ∈ delivered (s.past .right) ∨ Settled s (Connection.userDataFrame address fcb asdu) fcb

/-- Frames disappear from the line. -/
theorem Confirming.mono (h : Confirming address fcb asdu s)
    (hnode : t.node = s.node) (hpast : t.past = s.past)
    (hinbox : ∀ x, ∀ g ∈ t.inbox x, g ∈ s.inbox x) :
    Confirming address fcb asdu t := by
  refine ⟨hpast ▸ h.known, hnode ▸ h.once, fun hw => ?_⟩
  have hw' : waitsWith s = some (Connection.userDataFrame address fcb asdu) := by
    unfold waitsWith at hw ⊢
    rwa [hnode] at hw
  refine (h.settled hw').imp (fun hd => hpast ▸ hd) fun hset => ?_
  refine ⟨fun g hg => hset.quiet g (hinbox _ g hg), fun g hg hack => ?_, ?_⟩
  · rw [hnode] at hack
    exact hset.alone g (hinbox _ g hg) hack
  · rw [hnode]
    exact hset.fresh

/-- A call of the master. -/
theorem Confirming.master (h : Confirming address fcb asdu s)
    (hr : (s.node .left).role = .master) (hc : (s.node .left).actions = [])
    (hnd : (submitted (((link P).perform s .left i).past .left)).Nodup) :
    Confirming address fcb asdu ((link P).perform s .left i) := by
  have hdeeds := deeds_handle hr hc i
  have hsub : submitted (((link P).perform s .left i).past .left)
      = submitted (s.past .left) ++ i.1.asdu?.toList := by
    rw [perform_past_self]
    exact submitted_snoc _ _ i
  have hnew : asdu ∉ i.1.asdu?.toList := by
    rw [hsub] at hnd
    exact fun ha => (List.nodup_append.1 hnd).2.2 _ h.known _ ha rfl
  have hqueue : asdu ∉ (s.node .left).sendQueue ++ i.1.asdu?.toList := by
    rw [List.mem_append, not_or]
    exact ⟨h.once.1, hnew⟩
  have hentry : OnlyOnce asdu (Connection.userDataFrame address fcb asdu)
      ((s.node .left).entryView i.1) := ⟨hqueue, h.once.2⟩
  have hexit := hentry.deeds hdeeds
  refine ⟨?_, ?_, fun hw => ?_⟩
  · rw [hsub]
    exact List.mem_append_left _ h.known
  · rw [perform_node_self]
    exact ⟨hexit.1, hexit.2.imp_right fun hp => ⟨hp.1, fun g hg => (nomatch hg)⟩⟩
  · have hpend : (Connection.exitView ((s.node .left).handle i)).pending
        = some (Connection.userDataFrame address fcb asdu) := by
      unfold waitsWith at hw
      rwa [perform_node_self] at hw
    have hasdu : (Connection.exitView ((s.node .left).handle i)).pending.bind
        Frame.asdu? = some asdu := by
      rw [hpend]
      rfl
    obtain ⟨-, hout⟩ := hexit.2.resolve_left (not_not_intro hasdu)
    -- the ASDU is held at the end of the call, so it was at its beginning
    have hheld : asdu ∈ ((s.node .left).entryView i.1).held := by
      refine hdeeds.held.subset (List.mem_append_left _ ?_)
      rw [hasdu]
      exact List.mem_singleton_self asdu
    have hbefore : ((s.node .left).entryView i.1).pending.bind Frame.asdu? = some asdu :=
      Option.mem_toList.1 ((List.mem_append.1 hheld).resolve_right hqueue)
    have hold := (h.once.2.resolve_left (not_not_intro hbefore)).1
    refine (h.settled hold).imp id fun hset => ⟨?_, fun g hg hack => ?_, hset.fresh⟩
    · rw [perform_inbox_self]
      exact hset.quiet
    · obtain hg | hg := List.mem_append.1 hg
      · exact hset.alone g hg hack
      · exact hout g hg

/-- A call of the outstation, on an input it acknowledges only if it is the
frame of the exchange. -/
theorem Confirming.outstation (h : Confirming address fcb asdu s)
    (hr : (s.node .right).role = .outstation)
    (hc : (s.node .right).actions = []) (hp : (s.node .right).pending = none)
    (hi : waitsWith s = some (Connection.userDataFrame address fcb asdu) →
      asdu ∈ delivered (s.past .right) ∨ ∀ g, i.1 = .frameReceived g →
          g.elicitsAck (s.node .right).config.linkAddress = true →
          g = Connection.userDataFrame address fcb asdu) :
    Confirming address fcb asdu ((link P).perform s .right i) := by
  obtain ⟨hlast, hasdus, hacks, -⟩ := reacts_handle hr hp hc i
  refine ⟨h.known, h.once, fun hw => ?_⟩
  have hdel : delivered (((link P).perform s .right i).past .right) = delivered (s.past .right)
        ++ ((s.node .right).handle i).2.filterMap Action.asdu? := by
    rw [perform_past_self]
    exact delivered_snoc _ _ i
  have hkeep (hd : asdu ∈ delivered (s.past .right)) :
      asdu ∈ delivered (((link P).perform s .right i).past .right) := by
    rw [hdel]
    exact List.mem_append_left _ hd
  obtain hd | hset := h.settled hw
  · exact Or.inl (hkeep hd)
  obtain hd | hown := hi hw
  · exact Or.inl (hkeep hd)
  cases hack : (reactTo (s.node .right).config.linkAddress
      (s.node .right).lastFcbSeen i.1).acks with
  | true =>
    -- It acknowledges the frame of the exchange, with a bit it has not seen: it
    -- delivers the ASDU in the same call.
    left
    obtain ⟨g, hg, hel⟩ := exists_of_reactTo_acks hack
    obtain rfl := hown g hg hel
    rw [hdel, hasdus, hg]
    refine List.mem_append_right _ ?_
    rw [reactTo, asdus_of_acks hset.fresh hel]
    exact List.mem_singleton_self asdu
  | false =>
    right
    refine ⟨fun g hg => ?_, fun g hg hel => ?_, ?_⟩
    · obtain hg | hg := List.mem_append.1 hg
      · exact hset.quiet g hg
      · rw [hack] at hacks
        exact Bool.eq_false_iff.2 (List.any_eq_false.1 hacks g hg)
    · rw [perform_inbox_self] at hg
      have hcfg : (((link P).perform s .right i).node .right).config = (s.node .right).config := by
        rw [perform_node_self]
        exact congrArg Prod.snd (ident_handle (c := s.node .right) i)
      rw [hcfg] at hel
      exact hset.alone g hg hel
    · rw [perform_node_self]
      show ((s.node .right).handle i).1.lastFcbSeen ≠ some fcb
      rw [hlast, reactTo_last hack]
      exact hset.fresh

end Exchange

section Confirmed

variable {config : Side → Config} {address : LinkAddress} {fcb : Bool}
  {asdu : α × ℕ} {s t : Line (α × ℕ)}

section

variable (hs : (numberedLine α).Reachable (lineInit config) s)

include hs

/-- **Every step of the line keeps the invariant of an exchange.** -/
theorem Confirming.step (h : Confirming address fcb asdu s) (st : (numberedLine α).Step s t) :
    Confirming address fcb asdu t := by
  obtain ⟨hrl, -, hcl⟩ := master_of_reachable hs
  obtain ⟨hrr, -, hcr, hpr⟩ := outstation_of_reachable hs
  have hnd := (isNumbered_submitted (hs.tail st) .left).nodup
  cases st with
  | offer x i live ho =>
    cases x with
    | left => exact h.master hrl hcl hnd
    | right =>
      refine h.outstation hrr hcr hpr fun _ => Or.inr fun g hg => ?_
      exact absurd (hg ▸ ho.1) (by simp [Input.frame?])
  | take x m rest i live hin hrec =>
    have hpop : Confirming address fcb asdu (s.pop x m rest) := by
      refine h.mono rfl rfl fun y g hg => ?_
      obtain rfl | rfl := Side.eq_or_eq_other x y
      · rw [pop_inbox_self] at hg
        rw [hin]
        exact List.mem_cons_of_mem _ hg
      · rwa [pop_inbox_other] at hg
    cases x with
    | left => exact hpop.master hrl hcl hnd
    | right =>
      refine hpop.outstation hrr hcr hpr fun hw => ?_
      refine (h.settled hw).imp_right fun hset g hg hel => hset.alone g ?_ hel
      rw [hin, ← Input.frameReceived.inj (hrec.symm.trans hg)]
      exact List.mem_cons_self
  | ignore x m rest live hin hi => exact absurd hi id
  | lose x l m r hl hin =>
    refine h.mono rfl rfl fun y g hg => ?_
    obtain rfl | rfl := Side.eq_or_eq_other x y
    · rw [shrink_inbox_self] at hg
      rw [hin]
      exact ((List.sublist_cons_self m r).append_left l).subset hg
    · rwa [shrink_inbox_other] at hg

/-- **A run keeps the invariant of an exchange.** -/
theorem Confirming.run (h : Confirming address fcb asdu s) (ht : (numberedLine α).Reachable s t) :
    Confirming address fcb asdu t := by
  induction ht with
  | refl => exact h
  | tail hst st ih => exact ih.step (hs.trans hst) st

/-- An exchange on a settled line: its ASDU is not queued as well, since no
two numbered ASDUs are equal. -/
theorem confirming_of_settled (hw : waitsWith s = some (Connection.userDataFrame address fcb asdu))
    (hset : Settled s (Connection.userDataFrame address fcb asdu) fcb) :
    Confirming address fcb asdu s := by
  have hheld : List.Sublist (asdu :: (s.node .left).sendQueue) (submitted (s.past .left)) := by
    have hrun := held_of_run (run_of_reachable hs .left)
    unfold SendView.held at hrun
    rw [show (Connection.exitView (s.node .left, [])).pending = waitsWith s from rfl, hw] at hrun
    exact hrun
  have hnd := (isNumbered_submitted hs .left).nodup.sublist hheld
  exact ⟨hheld.subset List.mem_cons_self,
    ⟨(List.nodup_cons.1 hnd).1, Or.inr ⟨hw, fun g hg => (nomatch hg)⟩⟩,
    fun _ => Or.inr hset⟩

end

/-- **An acknowledgement on a settled line confirms its exchange.** In every
run of the line, if at some time during the exchange of an ASDU the line is
settled for it – when the exchange begins, for instance – then the master
does not take the ASDU for confirmed, at any time later, before the
outstation has delivered it. -/
theorem delivered_of_settled (hs : (numberedLine α).Reachable (lineInit config) s)
    (hw : waitsWith s = some (Connection.userDataFrame address fcb asdu))
    (hset : Settled s (Connection.userDataFrame address fcb asdu) fcb)
    (ht : (numberedLine α).Reachable s t) (hc : TakesForConfirmed t asdu) :
    asdu ∈ delivered (t.past .right) := by
  have hinv := (confirming_of_settled hs hw hset).run hs ht
  obtain ⟨⟨a, b, hpend⟩, g, rest, hin, hack⟩ := hc
  have hasdu : (waitsWith t).bind Frame.asdu? = some asdu := by
    rw [hpend]
    rfl
  obtain ⟨hw', -⟩ := hinv.once.2.resolve_left (not_not_intro hasdu)
  refine (hinv.settled hw').resolve_right fun hset' => ?_
  have hquiet := hset'.quiet g (hin ▸ List.mem_cons_self)
  exact Bool.false_ne_true (hquiet.symm.trans hack)

end Confirmed

/-! ## Acknowledgements that confirm nothing -/

/-- The acknowledgement of the outstation at address 1. -/
def ackOne : Frame (Bytes × ℕ) := .fixedLength 0x00 ⟨1⟩

/-- A confirmed send to the outstation at address 1. -/
def sendOne (fcb : Bool) (asdu : Bytes × ℕ) : Frame (Bytes × ℕ) :=
  Connection.userDataFrame ⟨1⟩ fcb asdu

/-- One submission; its frame is lost and repeated, and acknowledged. -/
def lostAndRepeated : List (Net.Move (Input (Bytes × ℕ) × Instant)) :=
  [.lose .right 0, .offer .left (.tick, 1),
   .take .right (.frameReceived (sendOne false ([1], 0)), 1)]

/-- The line is settled when the first exchange begins, and its frame has
been delivered when the acknowledgement arrives. -/
theorem delivered_of_settled_lostAndRepeated : ∃ s t : Line (Bytes × ℕ),
      (numberedLine Bytes).Reachable (lineInit stationOne) s
        ∧ Settled s (sendOne false ([1], 0)) false
        ∧ (numberedLine Bytes).Reachable s t ∧ TakesForConfirmed t ([1], 0)
        ∧ ([1], 0) ∈ delivered (t.past .right) := by
  obtain ⟨s, hs, hw, hleft, hright, hlast, hplay⟩ := Net.exists_reachable_of_play
    (N := numberedLine Bytes) (s := lineInit stationOne)
    [.offer .left (.sendUserData ([1], 0), 0)]
    (P := fun s => waitsWith s = some (sendOne false ([1], 0))
      ∧ s.inbox .left = [] ∧ s.inbox .right = [sendOne false ([1], 0)]
      ∧ (s.node .right).lastFcbSeen = none
      ∧ ((numberedLine Bytes).play s lostAndRepeated).any (fun t =>
          decide (waitsWith t = some (sendOne false ([1], 0))
            ∧ t.inbox .left = [ackOne])) = true) (by decide +kernel)
  obtain ⟨t, ht, hwt, hack⟩ := Net.exists_reachable_of_play lostAndRepeated
    (P := fun t => waitsWith t = some (sendOne false ([1], 0))
      ∧ t.inbox .left = [ackOne]) hplay
  have hset : Settled s (sendOne false ([1], 0)) false := by
    refine ⟨fun g hg => ?_, fun g hg _ => ?_, ?_⟩
    · rw [hleft] at hg
      exact absurd hg List.not_mem_nil
    · rw [hright] at hg
      exact List.mem_singleton.1 hg
    · rw [hlast]
      exact (Option.some_ne_none false).symm
  have hc : TakesForConfirmed t ([1], 0) :=
    ⟨⟨⟨1⟩, false, hwt⟩, ackOne, [], hack, by decide⟩
  exact ⟨s, t, hs, hset, ht, hc, delivered_of_settled hs hw hset ht hc⟩

/-- Two submissions; the frame of the first is sent twice and arrives
twice, and its first acknowledgement begins the second exchange. -/
def acknowledgedTwice : List (Net.Move (Input (Bytes × ℕ) × Instant)) :=
  [.offer .left (.sendUserData ([1], 0), 0), .offer .left (.sendUserData ([2], 1), 0),
   .offer .left (.tick, 1),
   .take .right (.frameReceived (sendOne false ([1], 0)), 1),
   .take .right (.frameReceived (sendOne false ([1], 0)), 1),
   .take .left (.frameReceived ackOne, 1)]

/-- Three submissions, one after the other; the second exchange is lost
altogether and given up. -/
def missedExchange : List (Net.Move (Input (Bytes × ℕ) × Instant)) :=
  [.offer .left (.sendUserData ([1], 0), 0),
   .take .right (.frameReceived (sendOne false ([1], 0)), 0),
   .take .left (.frameReceived ackOne, 0),
   .offer .left (.sendUserData ([2], 1), 0),
   .lose .right 0,
   .offer .left (.tick, 1),
   .lose .right 0,
   .offer .left (.tick, 2),
   .lose .right 0,
   .offer .left (.tick, 3),
   .lose .right 0,
   .offer .left (.tick, 4),
   .offer .left (.sendUserData ([3], 2), 4),
   .take .right (.frameReceived (sendOne false ([3], 2)), 4)]

/-- **Off a settled line an acknowledgement may confirm nothing**: a stale one
ends the exchange of an ASDU that has not arrived, and after a missed
exchange an ASDU is acknowledged and dropped. -/
theorem ack_unconfirmed : (∃ s : Line (Bytes × ℕ),
      (numberedLine Bytes).Reachable (lineInit stationOne) s
        ∧ TakesForConfirmed s ([2], 1) ∧ ([2], 1) ∉ delivered (s.past .right))
      ∧ ∃ s : Line (Bytes × ℕ), (numberedLine Bytes).Reachable (lineInit stationOne) s
          ∧ TakesForConfirmed s ([3], 2) ∧ ([3], 2) ∉ delivered (s.past .right) := by
  constructor
  · obtain ⟨s, hs, hw, hack, hdel⟩ := Net.exists_reachable_of_play
      (N := numberedLine Bytes) (s := lineInit stationOne) acknowledgedTwice
      (P := fun s => waitsWith s = some (sendOne true ([2], 1))
        ∧ s.inbox .left = [ackOne] ∧ ([2], 1) ∉ delivered (s.past .right))
      (by decide +kernel)
    exact ⟨s, hs, ⟨⟨⟨1⟩, true, hw⟩, ackOne, [], hack, by decide⟩, hdel⟩
  · obtain ⟨s, hs, hw, hack, hdel⟩ := Net.exists_reachable_of_play
      (N := numberedLine Bytes) (s := lineInit stationOne) missedExchange
      (P := fun s => waitsWith s = some (sendOne false ([3], 2))
        ∧ s.inbox .left = [ackOne] ∧ ([3], 2) ∉ delivered (s.past .right))
      (by decide +kernel)
    exact ⟨s, hs, ⟨⟨⟨1⟩, false, hw⟩, ackOne, [], hack, by decide⟩, hdel⟩

end Frame101
