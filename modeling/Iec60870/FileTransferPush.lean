import Iec60870.Duplex
import Iec60870.FileTransferThread

/-!
# Pushing a file, end to end

A push is a transfer that the sender starts: the service opens a sending
session, whose first step announces the file to the peer. What the peer makes
of it is the question here. Its service opens a receiving session for an
announced file, and hands it the announcement; but the session has not been
started, and a session that is not waiting for an announcement takes one for
a violation of the protocol. So the writer that was opened for the file is
closed again, unsuccessful and without an octet, nothing is sent back, and
the sender waits for a selection that does not come.

`pushNet` joins two services by the wire, with the ASDU codec in between. Of
each service any number of other transfers may be under way. There is only
one way for a push to go, up to the order of idle turns: `PushStage` lists
where it can stand, and `push_never_delivers` reads the result off the last
stage.
-/

namespace FileTransfer

open Iec60870 Machine

variable {π ρ ω : Type} {s : Service π ρ ω} {key : Key} {length : UInt32}

/-! ## The announcement -/

/-- What the sender announces. -/
def announcement (key : Key) (length : UInt32) : F_FR_NA_1 :=
  ⟨⟨0⟩, key.2, ⟨length⟩, Frq.ready⟩

/-- The announcement on the wire. -/
def announcementOctets (key : Key) (length : UInt32) : Bytes :=
  send F_FR_NA_1.payload key.1 (announcement key length)

/-- The announcement as it arrives, with the length cut to three octets. -/
def announcementAsdu (key : Key) (length : UInt32) : Asdu :=
  Asdu.fromPayload F_FR_NA_1.payload (Cot.of Cause.fileTransfer) key.1 (Vsq.single 1)
    (announcement key (cut24 length)) AsduAddressing.iec104

section Announcement

variable (key : Key) (length : UInt32)

/-- The announcement arrives. -/
theorem decode_announcementOctets :
    (Asdu.decode AsduAddressing.iec104).run (announcementOctets key length)
      = .ok (announcementAsdu key length, []) := by
  have hlof : LengthOfFile.codec.encode ⟨length⟩
      = LengthOfFile.codec.encode ⟨cut24 length⟩ := encode_length_cut24 length
  have hobject : F_FR_NA_1.encode AsduAddressing.iec104 (announcement key length)
      = F_FR_NA_1.encode AsduAddressing.iec104 (announcement key (cut24 length)) := by
    rw [F_FR_NA_1.encode, F_FR_NA_1.encode, announcement, hlof]
    rfl
  have hsend : announcementOctets key length
      = (announcementAsdu key length).encode AsduAddressing.iec104 :=
    congrArg (fun octets => Asdu.encode ⟨120, Vsq.single 1,
      Cot.of Cause.fileTransfer, key.1, octets⟩ AsduAddressing.iec104) hobject
  have hvsq : (Vsq.single 1).Fits := by decide
  have hcot : (Cot.of Cause.fileTransfer).Fits .two := by decide
  rw [hsend]
  exact Asdu.run_decode_encode _ _ hvsq hcot key.1.raw.toNat_lt

/-- It is about the file. -/
theorem peekNof_announcementAsdu : peekNof (announcementAsdu key length) = some key.2 := by
  show some (NameOfFile.mk (UInt16.ofNat (Wire.ofLe (Wire.putLe 2 key.2.raw.toNat)))) = some key.2
  rw [Wire.ofLe_putLe, show 256 ^ 2 = 2 ^ 16 from rfl,
    Nat.mod_eq_of_lt key.2.raw.toNat_lt, UInt16.ofNat_toNat]

theorem decodePayload_announcementAsdu :
    (announcementAsdu key length).decodePayload F_FR_NA_1.payload
        AsduAddressing.iec104 = .ok (announcement key (cut24 length)) := by
  have hioa : (⟨0⟩ : Ioa).Fits AsduAddressing.iec104.ioaSize := by decide
  have hfrq : Frq.codec.Fits Frq.ready := (by decide : (0 : UInt8) ≤ 127)
  exact Asdu.decodePayload_fromPayload _ _ _ _ _ _ ⟨hioa, cut24_lt length, hfrq⟩

theorem decodeFtAsdu_announcementAsdu : decodeFtAsdu (announcementAsdu key length)
      = some (.fileReady (announcement key (cut24 length))) := by
  show ((announcementAsdu key length).decodePayload F_FR_NA_1.payload
    AsduAddressing.iec104).toOption.map _ = _
  rw [decodePayload_announcementAsdu]
  rfl

end Announcement

/-! ## The two services -/

/-- **The service has nothing to do.** -/
structure Service.Rest (s : Service π ρ ω) : Prop where
  work : s.work = none
  intents : s.intents = []
  asdus : s.asdus = []

/-- A service with nothing to do does nothing. -/
theorem Service.Rest.step (h : s.Rest) (now : Instant) : s.step (.run none, now) = (s, []) := by
  unfold Service.step
  dsimp only
  rw [h.work, h.intents, h.asdus]

/-- **The service is about to push a file** of a length: it has been asked to
and has nothing else to do, it has no session for the file and room for one,
and its provider has the file. -/
structure Service.Pushes (s : Service π ρ ω) (key : Key) (length : UInt32) :
    Prop where
  work : s.work = none
  intents : ∃ caller, s.intents = [.push key.1 key.2 caller]
  asdus : s.asdus = []
  free : s.refusal key = none
  found : (s.provider.lookup key.2 s.world).1 = .ok (some ⟨length⟩)
  readable : ∃ reader,
    (s.provider.openRead key.2 (s.provider.lookup key.2 s.world).2).1 = .ok reader

/-- **The service takes a file** that is announced with a length: it has
nothing to do, no session for the file and room for one, the length that
arrives is within its limit, and its provider lets it write the file. -/
structure Service.Accepts (s : Service π ρ ω) (key : Key) (length : UInt32) :
    Prop where
  rest : s.Rest
  absent : key ∉ s.sessions
  room : s.isFull = false
  small : cut24 length ≤ s.config.maxInboundFileBytes
  writable : ∃ writer, (s.provider.openWrite key.2 0 s.world).1 = .ok writer

/-- The sender has opened its session and is about to announce the file. -/
structure Service.Opened (s : Service π ρ ω) (key : Key) (length : UInt32) :
    Prop where
  work : ∃ now, s.work = some ⟨key, [.sendFileReady (announcement key length)], [], now⟩
  intents : s.intents = []
  asdus : s.asdus = []

/-- The receiver has opened its session, which has failed. -/
structure Service.Refused (s : Service π ρ ω) (key : Key) : Prop where
  work : ∃ now, s.work = some ⟨key, [.failed .protocolViolation], [], now⟩
  session : ∃ session writer, s.sessions.lookup key = some ⟨session, none, some writer, none⟩
  intents : s.intents = []
  asdus : s.asdus = []

/-- A session that has not been started takes an announcement for a violation
of the protocol. -/
theorem step_fileReady_of_new (nof : NameOfFile) (config : SessionConfig)
    (asdu : F_FR_NA_1) (now : Instant) :
    (Session.new .receiver nof config).step (.fileReady asdu, now)
      = ({ Session.new .receiver nof config with state := .failed },
        [.failed .protocolViolation]) := rfl

/-- The first turn of a push opens the session. -/
theorem Service.Pushes.step (h : s.Pushes key length) (now : Instant) :
    (s.step (.run none, now)).1.Opened key length
      ∧ (s.step (.run none, now)).2 = [(key, .started .sender)] := by
  obtain ⟨caller, hintents⟩ := h.intents
  obtain ⟨reader, hreader⟩ := h.readable
  have hstep : s.step (.run none, now) = { s with intents := [] }.onPush key caller now := by
    unfold Service.step
    dsimp only
    rw [h.work, hintents]
  rw [hstep]
  unfold Service.onPush
  rw [show Service.refusal { s with intents := [] } key = none from h.free]
  dsimp only
  rw [h.found]
  dsimp only
  rw [hreader]
  exact ⟨⟨⟨now, rfl⟩, rfl, h.asdus⟩, rfl⟩

/-- The second one sends the announcement. -/
theorem Service.Opened.step (h : s.Opened key length) (now : Instant) :
    (s.step (.run none, now)).1.Rest ∧ (s.step (.run none, now)).2
        = [(key, .command (announcementOctets key length))] := by
  obtain ⟨t, hwork⟩ := h.work
  rw [step_of_work s hwork]
  exact ⟨⟨rfl, h.intents, h.asdus⟩, rfl⟩

/-- The announcement arrives. -/
def Service.announcedTo (s : Service π ρ ω) (key : Key) (length : UInt32) :
    Service π ρ ω :=
  { s with asdus := [(key.1, announcementAsdu key length)] }

/-- **The receiver fails at once.** -/
theorem Service.Accepts.step (h : s.Accepts key length) (now : Instant) :
    ((s.announcedTo key length).step (.run none, now)).1.Refused key
      ∧ ((s.announcedTo key length).step (.run none, now)).2 = [(key, .started .receiver)] := by
  obtain ⟨writer, hwriter⟩ := h.writable
  have hstep : (s.announcedTo key length).step (.run none, now)
      = s.onIncoming key.1 (announcementAsdu key length) now := by
    obtain ⟨hwork, hintents, hasdus⟩ := h.rest
    obtain ⟨provider, world, config, sessions, intents, asdus, work⟩ := s
    cases hwork
    cases hintents
    cases hasdus
    rfl
  rw [hstep]
  unfold Service.onIncoming
  rw [peekNof_announcementAsdu]
  dsimp only
  rw [if_neg h.absent, h.room, if_neg (by decide)]
  show (s.onFileReady key _ now).1.Refused key ∧ (s.onFileReady key _ now).2 = _
  unfold Service.onFileReady
  rw [decodePayload_announcementAsdu]
  dsimp only
  have hsmall : ¬ (announcement key (cut24 length)).lof.raw
      > s.config.maxInboundFileBytes := UInt32.not_lt.mpr h.small
  rw [if_neg hsmall, hwriter]
  dsimp only
  unfold Service.dispatch
  rw [decodeFtAsdu_announcementAsdu]
  dsimp only
  unfold Service.stepSession
  rw [lookup_put_self]
  dsimp only
  unfold Service.newSession
  rw [step_fileReady_of_new]
  refine ⟨⟨⟨now, rfl⟩, ⟨_, writer, AList.lookup_insert _⟩, ?_, ?_⟩, rfl⟩
  · exact h.rest.intents
  · exact h.rest.asdus

/-- What the receiver says then: its writer is closed, unsuccessful. -/
def failedPush (key : Key) (result : Except FileTransferError Unit) :
    List (Key × Effect) :=
  [(key, .finalized false result), (key, .finished (.failed .protocolViolation))]

theorem Service.Refused.step (h : s.Refused key) (now : Instant) : (s.step (.run none, now)).1.Rest
      ∧ ∃ result, (s.step (.run none, now)).2 = failedPush key result := by
  obtain ⟨t, hwork⟩ := h.work
  obtain ⟨session, writer, hsession⟩ := h.session
  rw [step_of_work s hwork]
  unfold Service.onWork
  dsimp only
  rw [hsession]
  exact ⟨⟨rfl, h.intents, h.asdus⟩, _, rfl⟩

/-! ## The net -/

/-- The wire between the services: a command of the one is an ASDU that is
routed to the other, with the common address it carries. The timers do not
fire, and no one else uses the services. -/
def pushNet (π ρ ω : Type) :
    Net (Service π ρ ω) (ServiceInput × Instant) (Key × Effect) Bytes where
  step := Service.step
  offers _ _ i := i.1 = .run none
  receives m i := ∃ asdu rest, (Asdu.decode AsduAddressing.iec104).run m = .ok (asdu, rest)
      ∧ i.1 = .route asdu.ca asdu
  ignores m := ∃ e, (Asdu.decode AsduAddressing.iec104).run m = .error e
  message e := match e.2 with
    | .command asdu => some asdu
    | _ => none
  halts _ := false
  lossy := False

/-- A state of the net. -/
abbrev PushState (π ρ ω : Type) :=
  Net.State (Service π ρ ω) (ServiceInput × Instant) (Key × Effect) Bytes

/-- The sender at the left, the receiver at the right. -/
def pushInit (A B : Service π ρ ω) : PushState π ρ ω :=
  .init fun
    | .left => A
    | .right => B

/-- **The exchange is over**: neither service has anything to do, and nothing
is in flight. -/
def PushOver (s : PushState π ρ ω) : Prop :=
  ∀ x, (s.node x).Rest ∧ s.inbox x = []

/-- What has been written for a key. -/
def writtenAt (key : Key) (es : List (Key × Effect)) : Bytes :=
  (effectsAt key es).flatMap fun
    | .wrote data _ => data
    | _ => []

/-- **A push delivers a file**: in no interleaving does one of the sessions
fail, and when the exchange is over the receiver's writer has been closed as
successful, after exactly the octets of the file. -/
def PushDelivers (A B : Service π ρ ω) (key : Key) (content : Bytes) : Prop :=
  ∀ s, (pushNet π ρ ω).Reachable (pushInit A B) s →
    (∀ x reason, (key, .finished (.failed reason)) ∉ effects (s.past x)) ∧ (PushOver s →
        (∃ result, (key, .finalized true result) ∈ effects (s.past .right))
          ∧ writtenAt key (effects (s.past .right)) = content)

/-! ## Where a push can stand -/

/-- The stages of a push. -/
inductive PushStage where
  /-- The sender has been asked to push the file. -/
  | asked
  /-- It has opened its session. -/
  | opened
  /-- The announcement is in flight. -/
  | announced
  /-- It has arrived. -/
  | arrived
  /-- The receiver has opened its session, and the session has failed. -/
  | refused
  /-- The receiver has closed it. -/
  | finished

section Stages

variable {A B : Service π ρ ω} {key : Key} {length : UInt32} {s : PushState π ρ ω}
  {stage : PushStage} {i : ServiceInput × Instant} (hA : A.Pushes key length)
  (hB : B.Accepts key length)

/-- **Where a push stands**: the two services, the messages to the receiver,
and what the receiver has done. -/
def PushStage.Holds (A B : Service π ρ ω) (key : Key) (length : UInt32)
    (a b : Service π ρ ω) (inbox : List Bytes) (es : List (Key × Effect)) :
    PushStage → Prop
  | .asked => a = A ∧ b = B ∧ inbox = [] ∧ es = []
  | .opened => a.Opened key length ∧ b = B ∧ inbox = [] ∧ es = []
  | .announced =>
    a.Rest ∧ b = B ∧ inbox = [announcementOctets key length] ∧ es = []
  | .arrived => a.Rest ∧ b = B.announcedTo key length ∧ inbox = [] ∧ es = []
  | .refused => a.Rest ∧ b.Refused key ∧ inbox = [] ∧ es = [(key, .started .receiver)]
  | .finished => a.Rest ∧ b.Rest ∧ inbox = []
      ∧ ∃ result, es = (key, .started .receiver) :: failedPush key result

/-- Nothing comes back, and no one halts. -/
structure PushQuiet (s : PushState π ρ ω) : Prop where
  back : s.inbox .left = []
  live : ∀ x, s.halted x = false

/-- **A state of the net is at a stage.** -/
structure PushAt (A B : Service π ρ ω) (key : Key) (length : UInt32)
    (stage : PushStage) (s : PushState π ρ ω) : Prop where
  holds : stage.Holds A B key length (s.node .left) (s.node .right)
    (s.inbox .right) (effects (s.past .right))
  quiet : PushQuiet s

theorem any_halts (es : List (Key × Effect)) : es.any (pushNet π ρ ω).halts = false :=
  List.any_eq_false.mpr fun _ _ => Bool.false_ne_true

/-- No move halts a service. -/
theorem PushQuiet.live_perform (h : PushQuiet s) (x y : Side) (i : ServiceInput × Instant) :
    ((pushNet π ρ ω).perform s x i).halted y = false := by
  obtain rfl | rfl := Side.eq_or_eq_other x y
  · rw [Net.perform_halted_self, h.live, any_halts, Bool.or_self]
  · rw [Net.perform_halted_other, h.live]

/-- The sender moves. -/
theorem PushQuiet.left (h : PushQuiet s)
    (hs : stage.Holds A B key length ((s.node .left).step i).1 (s.node .right)
      (s.inbox .right ++ ((s.node .left).step i).2.filterMap (pushNet π ρ ω).message)
      (effects (s.past .right))) :
    PushAt A B key length stage ((pushNet π ρ ω).perform s .left i) where
  holds := hs
  quiet := ⟨h.back, fun x => h.live_perform .left x i⟩

/-- The receiver moves, and sends nothing. -/
theorem PushQuiet.right (h : PushQuiet s)
    (hq : ((s.node .right).step i).2.filterMap (pushNet π ρ ω).message = [])
    (hs : stage.Holds A B key length (s.node .left) ((s.node .right).step i).1
      (s.inbox .right) (effects (s.past .right) ++ ((s.node .right).step i).2)) :
    PushAt A B key length stage ((pushNet π ρ ω).perform s .right i) where
  holds := by
    rw [← effects_snoc] at hs
    exact hs
  quiet := by
    refine ⟨?_, fun x => h.live_perform .right x i⟩
    show s.inbox .left ++ ((s.node .right).step i).2.filterMap _ = []
    rw [h.back, hq]
    rfl

/-- A service that has nothing to do stays where it is. -/
theorem PushAt.idle_left (h : PushAt A B key length stage s) (hrest : (s.node .left).Rest)
    (now : Instant) : PushAt A B key length stage
      ((pushNet π ρ ω).perform s .left (.run none, now)) := by
  refine h.quiet.left ?_
  rw [hrest.step, List.filterMap_nil, List.append_nil]
  exact h.holds

theorem PushAt.idle_right (h : PushAt A B key length stage s) (hrest : (s.node .right).Rest)
    (now : Instant) : PushAt A B key length stage
      ((pushNet π ρ ω).perform s .right (.run none, now)) := by
  refine h.quiet.right ?_ ?_
  · rw [hrest.step, List.filterMap_nil]
  · rw [hrest.step, List.append_nil]
    exact h.holds

/-! The five moves that lead from a stage to the next: -/

include hA in
theorem PushAt.opens (h : PushAt A B key length .asked s) (now : Instant) :
    PushAt A B key length .opened ((pushNet π ρ ω).perform s .left (.run none, now)) := by
  obtain ⟨ha, hb, hin, hes⟩ := h.holds
  obtain ⟨hopened, hstep⟩ := hA.step now
  refine h.quiet.left ?_
  rw [ha, hstep]
  exact ⟨hopened, hb, by rw [hin]; rfl, hes⟩

theorem PushAt.announces (h : PushAt A B key length .opened s) (now : Instant) :
    PushAt A B key length .announced ((pushNet π ρ ω).perform s .left (.run none, now)) := by
  obtain ⟨ha, hb, hin, hes⟩ := h.holds
  obtain ⟨hrest, hstep⟩ := ha.step now
  refine h.quiet.left ?_
  rw [hstep]
  exact ⟨hrest, hb, by rw [hin]; rfl, hes⟩

include hB in
theorem PushAt.arrives (h : PushAt A B key length .announced s) (now : Instant) :
    PushAt A B key length .arrived
      ((pushNet π ρ ω).perform (s.pop .right (announcementOctets key length) [])
        .right (.route key.1 (announcementAsdu key length), now)) := by
  obtain ⟨ha, hb, hin, hes⟩ := h.holds
  have hquiet : PushQuiet (s.pop .right (announcementOctets key length) []) :=
    ⟨h.quiet.back, h.quiet.live⟩
  refine hquiet.right rfl ⟨ha, ?_, rfl, hes.symm ▸ rfl⟩
  rw [Net.pop_node, hb, Service.announcedTo]
  show { B with asdus := B.asdus ++ _ } = _
  rw [hB.rest.asdus]
  rfl

include hB in
theorem PushAt.refuses (h : PushAt A B key length .arrived s) (now : Instant) :
    PushAt A B key length .refused ((pushNet π ρ ω).perform s .right (.run none, now)) := by
  obtain ⟨ha, hb, hin, hes⟩ := h.holds
  obtain ⟨hrefused, hstep⟩ := hB.step now
  refine h.quiet.right ?_ ?_
  · rw [hb, hstep]
    rfl
  · rw [hb, hstep, hes]
    exact ⟨ha, hrefused, hin, rfl⟩

theorem PushAt.ends (h : PushAt A B key length .refused s) (now : Instant) :
    PushAt A B key length .finished ((pushNet π ρ ω).perform s .right (.run none, now)) := by
  obtain ⟨ha, hb, hin, hes⟩ := h.holds
  obtain ⟨hrest, result, hstep⟩ := hb.step now
  refine h.quiet.right ?_ ?_
  · rw [hstep]
    rfl
  · rw [hstep, hes]
    exact ⟨ha, hrest, hin, result, rfl⟩

section

variable (h : PushAt A B key length stage s)

include h

/-- The sender's turn. -/
theorem PushAt.turn_left
    (hA : A.Pushes key length) (now : Instant) : ∃ stage, PushAt A B key length stage
      ((pushNet π ρ ω).perform s .left (.run none, now)) := by
  cases stage with
  | asked => exact ⟨_, h.opens hA now⟩
  | opened => exact ⟨_, h.announces now⟩
  | announced | arrived | refused | finished => exact ⟨_, h.idle_left h.holds.1 now⟩

/-- The receiver's turn. -/
theorem PushAt.turn_right
    (hB : B.Accepts key length) (now : Instant) : ∃ stage, PushAt A B key length stage
      ((pushNet π ρ ω).perform s .right (.run none, now)) := by
  cases stage with
  | asked | opened | announced => exact ⟨_, h.idle_right (h.holds.2.1 ▸ hB.rest) now⟩
  | arrived => exact ⟨_, h.refuses hB now⟩
  | refused => exact ⟨_, h.ends now⟩
  | finished => exact ⟨_, h.idle_right h.holds.2.1 now⟩

/-- Only the announcement is ever in flight. -/
theorem PushAt.in_flight
    {x : Side} {m : Bytes} {rest : List Bytes} (hin : s.inbox x = m :: rest) :
    x = .right ∧ stage = .announced ∧ m = announcementOctets key length ∧ rest = [] := by
  cases x with
  | left =>
    rw [h.quiet.back] at hin
    cases hin
  | right =>
    cases stage with
    | announced =>
      rw [h.holds.2.2.1] at hin
      cases hin
      exact ⟨rfl, rfl, rfl, rfl⟩
    | _ =>
      rw [h.holds.2.2.1] at hin
      cases hin

/-- **Every step of the net leads from a stage to a stage.** -/
theorem PushAt.step (hA : A.Pushes key length) (hB : B.Accepts key length) {t : PushState π ρ ω}
    (hstep : (pushNet π ρ ω).Step s t) : ∃ stage, PushAt A B key length stage t := by
  cases hstep with
  | offer x i live ho =>
    obtain ⟨input, now⟩ := i
    cases ho
    cases x with
    | left => exact h.turn_left hA now
    | right => exact h.turn_right hB now
  | take x m rest i live hin hr =>
    obtain ⟨rfl, rfl, rfl, rfl⟩ := h.in_flight hin
    obtain ⟨asdu, octets, hdecode, hi⟩ := hr
    rw [decode_announcementOctets] at hdecode
    cases hdecode
    obtain ⟨input, now⟩ := i
    cases hi
    exact ⟨_, h.arrives hB now⟩
  | ignore x m rest live hin hi =>
    obtain ⟨rfl, rfl, rfl, rfl⟩ := h.in_flight hin
    obtain ⟨e, he⟩ := hi
    rw [decode_announcementOctets] at he
    cases he
  | lose x l m r hl hin => exact hl.elim

end

theorem PushAt.of_reachable (hA : A.Pushes key length) (hB : B.Accepts key length)
    (h : (pushNet π ρ ω).Reachable (pushInit A B) s) :
    ∃ stage, PushAt A B key length stage s := by
  refine Net.Reachable.invariant (P := fun s => ∃ stage, PushAt A B key length stage s) ?_ ?_ h
  · exact ⟨.asked, ⟨rfl, rfl, rfl, rfl⟩, rfl, fun _ => rfl⟩
  · rintro s t - ⟨stage, hs⟩ hstep
    exact hs.step hA hB hstep

/-- **A push comes to its end**: one run through all stages. -/
theorem exists_over (hA : A.Pushes key length) (hB : B.Accepts key length) :
    ∃ s, (pushNet π ρ ω).Reachable (pushInit A B) s ∧ PushAt A B key length .finished s := by
  have h₀ : PushAt A B key length .asked (pushInit A B) :=
    ⟨⟨rfl, rfl, rfl, rfl⟩, rfl, fun _ => rfl⟩
  have r₀ : (pushNet π ρ ω).Reachable (pushInit A B) (pushInit A B) := .refl
  have hrun {s : PushState π ρ ω} (hs : PushQuiet s) (x : Side) :
      (pushNet π ρ ω).Step s ((pushNet π ρ ω).perform s x (.run none, 0)) :=
    .offer x _ (hs.live x) rfl
  have h₁ := h₀.opens hA 0
  have r₁ := r₀.tail (hrun h₀.quiet .left)
  have h₂ := h₁.announces 0
  have r₂ := r₁.tail (hrun h₁.quiet .left)
  have h₃ := h₂.arrives hB 0
  have r₃ := r₂.tail (.take .right _ _ (.route key.1 _, 0) (h₂.quiet.live _)
    h₂.holds.2.2.1 ⟨_, _, decode_announcementOctets key length, rfl⟩)
  have h₄ := h₃.refuses hB 0
  have r₄ := r₃.tail (hrun h₃.quiet .right)
  have h₅ := h₄.ends 0
  exact ⟨_, r₄.tail (hrun h₄.quiet .right), h₅⟩

/-- Only the last stage is an end. -/
theorem PushAt.over_of_pushOver (h : PushAt A B key length stage s) (hA : A.Pushes key length)
    (hover : PushOver s) : stage = .finished := by
  cases stage with
  | asked =>
    obtain ⟨caller, hintents⟩ := hA.intents
    have hrest := (hover .left).1.intents
    rw [h.holds.1, hintents] at hrest
    cases hrest
  | opened =>
    obtain ⟨now, hwork⟩ := h.holds.1.work
    have hrest := (hover .left).1.work
    rw [hwork] at hrest
    cases hrest
  | announced =>
    have hin := (hover .right).2
    rw [h.holds.2.2.1] at hin
    cases hin
  | arrived =>
    have hrest := (hover .right).1.asdus
    rw [h.holds.2.1] at hrest
    cases hrest
  | refused =>
    obtain ⟨now, hwork⟩ := h.holds.2.1.work
    have hrest := (hover .right).1.work
    rw [hwork] at hrest
    cases hrest
  | finished => rfl

theorem PushAt.pushOver (h : PushAt A B key length .finished s) : PushOver s := by
  intro x
  cases x with
  | left => exact ⟨h.holds.1, h.quiet.back⟩
  | right => exact ⟨h.holds.2.1, h.holds.2.2.1⟩

end Stages

/-! ## What comes of it -/

/-- **The receiver has failed the push**: it has closed the writer as
unsuccessful, has written nothing, and reports a violation of the protocol. -/
structure PushFailed (key : Key) (es : List (Key × Effect)) : Prop where
  finished : (key, .finished (.failed .protocolViolation)) ∈ es
  finalized : ∃ result, (key, .finalized false result) ∈ es
  written : writtenAt key es = []

theorem pushFailed (key : Key) (result : Except FileTransferError Unit) :
    PushFailed key ((key, .started .receiver) :: failedPush key result) where
  finished := by simp [failedPush]
  finalized := ⟨result, by simp [failedPush]⟩
  written := by simp [writtenAt, effectsAt, failedPush]

/-- **A push never delivers a file.** Whenever a service is asked to push a
file that its provider has, and the peer's service would take it – whatever
the file, the providers, the parameters and the other transfers of both – the
push comes to an end, and however the turns of the services are interleaved
the receiver has failed it then, without an octet written. -/
theorem push_never_delivers {A B : Service π ρ ω} {key : Key} {length : UInt32}
    (hA : A.Pushes key length) (hB : B.Accepts key length) (content : Bytes) :
    ¬ PushDelivers A B key content
      ∧ (∃ s, (pushNet π ρ ω).Reachable (pushInit A B) s ∧ PushOver s)
      ∧ ∀ s, (pushNet π ρ ω).Reachable (pushInit A B) s → PushOver s →
        PushFailed key (effects (s.past .right)) := by
  have hfails : ∀ s, (pushNet π ρ ω).Reachable (pushInit A B) s → PushOver s →
      PushFailed key (effects (s.past .right)) := by
    intro s hs hover
    obtain ⟨stage, h⟩ := PushAt.of_reachable hA hB hs
    obtain rfl := h.over_of_pushOver hA hover
    obtain ⟨-, -, -, result, hes⟩ := h.holds
    rw [hes]
    exact pushFailed key result
  obtain ⟨s, hs, hat⟩ := exists_over hA hB
  refine ⟨fun hdelivers => ?_, ⟨s, hs, hat.pushOver⟩, hfails⟩
  exact (hdelivers s hs).1 .right _ (hfails s hs hat.pushOver).finished

/-- A provider with one file of one octet, which it lets read and write. -/
def oneOctet : Provider Unit Unit Unit where
  lookup _ _ := (.ok (some ⟨1⟩), ())
  openRead _ _ := (.ok (), ())
  openWrite _ _ _ := (.ok (), ())
  readSegment _ _ _ := ((.ok (some [42]), ()), ())
  writeSegment _ _ _ := ((.ok (), ()), ())
  finalize _ _ _ := (.ok (), ())

/-- A service that is asked to push it, and one that has never been used. -/
def pusher : Service Unit Unit Unit :=
  { Service.init oneOctet () .default with intents := [.push ⟨1⟩ ⟨7⟩ 0] }

theorem pushes_pusher : pusher.Pushes (⟨1⟩, ⟨7⟩) 1 where
  work := rfl
  intents := ⟨0, rfl⟩
  asdus := rfl
  free := rfl
  found := rfl
  readable := ⟨(), rfl⟩

theorem accepts_init : (Service.init oneOctet () .default).Accepts (⟨1⟩, ⟨7⟩) 1 where
  rest := ⟨rfl, rfl, rfl⟩
  absent := by decide
  room := rfl
  small := by decide
  writable := ⟨(), rfl⟩

/-- The premises can be met. -/
theorem push_never_delivers_oneOctet : pusher.Pushes (⟨1⟩, ⟨7⟩) 1
      ∧ (Service.init oneOctet () .default).Accepts (⟨1⟩, ⟨7⟩) 1
      ∧ ¬ PushDelivers pusher (.init oneOctet () .default) (⟨1⟩, ⟨7⟩) [42] :=
  ⟨pushes_pusher, accepts_init,
    (push_never_delivers pushes_pusher accepts_init [42]).1⟩

/-- **A file of one octet**: the exchange is over when the receiver has closed
its writer, unsuccessful and without the octet. -/
theorem push_fails_oneOctet : ∃ s, (pushNet Unit Unit Unit).Reachable
        (pushInit pusher (.init oneOctet () .default)) s
      ∧ PushOver s ∧ PushFailed (⟨1⟩, ⟨7⟩) (effects (s.past .right)) := by
  obtain ⟨s, hs, hat⟩ := exists_over pushes_pusher accepts_init
  obtain ⟨-, -, -, result, hes⟩ := hat.holds
  refine ⟨s, hs, hat.pushOver, ?_⟩
  rw [hes]
  exact pushFailed _ result

end FileTransfer
