import Iec60870.Frame101Reply

/-!
# Frames that are meant for someone else

On a line with several stations everyone sees every frame. A frame says whom it
concerns in two places: in its link address, and in bit 6 of its control octet,
which is set in what the master sends and clear in what an outstation sends. A
station should pass over a frame with another address, and over one that comes
from its own side of the exchange – a master over what a master has sent, an
outstation over the answer of an outstation, which carries the address of that
outstation and may be its own.

The outstation compares the address and the master does not, and neither looks
at bit 6: `ControlField.decode` is told the direction by its caller. So a frame
that is `Foreign` is passed over only by accident – at an outstation if its
function code is not one that is served, at a master if the reply that is read
into it finds nothing to change (`Unmoved`).
-/

namespace Frame101

variable {α : Type}

namespace Frame

/-- The control octet and the address of a frame, if it has them. -/
def header? : Frame α → Option (UInt8 × LinkAddress)
  | .single _ => none
  | .fixedLength control address => some (control, address)
  | .variableLength control address _ => some (control, address)

/-- The function codes that an outstation serves in a frame, by its kind. -/
def servedCodes : Frame α → List FuncCodePrimary
  | .single _ => []
  | .fixedLength _ _ =>
    [.resetRemoteLink, .requestStatus, .requestUserDataClass1, .requestUserDataClass2]
  | .variableLength _ _ _ => [.userDataConfirmed, .userDataUnconfirmed]

/-- **A frame has a function code that an outstation serves**, whatever bit 6 of
its control octet. -/
def Served (frame : Frame α) : Prop :=
  ∃ control address, frame.header? = some (control, address)
    ∧ ∃ func ∈ frame.servedCodes, control &&& ControlField.funcMask = func.toNibble

end Frame

/-- The direction that bit 6 of a control octet stands for. -/
def ControlField.prm (control : UInt8) : Direction :=
  if control &&& prmBit ≠ 0 then .primary else .secondary

/-- The direction of the frames that are meant for a station. -/
def Role.listensTo : Role → Direction
  | .master => .secondary
  | .outstation => .primary

namespace Connection

variable {c : Connection α} {now : Instant}

/-- **A frame for someone else**: it has another address, or comes from the
wrong side. -/
def Foreign (c : Connection α) (frame : Frame α) : Prop :=
  ∃ control address, frame.header? = some (control, address) ∧ (address ≠ c.config.linkAddress
      ∨ ControlField.prm control ≠ c.role.listensTo)

/-- **A frame has no effect**: it adds no action and leaves everything as it is,
so that the timers do in the rest of the call what they would do anyway. -/
def Ignores (c : Connection α) (frame : Frame α) (now : Instant) : Prop :=
  c.onInput (.frameReceived frame) now = c

/-- **A frame finds nothing to do.** At an outstation it has another address, or
a function code that is not served; at a master no exchange is in progress, and
it acknowledges, reports that there is no data, or reports the status of a link
that has been ready before. -/
def Unmoved (c : Connection α) (frame : Frame α) : Prop :=
  match c.role with
  | .outstation =>
    (∀ control, frame.header? ≠ some (control, c.config.linkAddress)) ∨ ¬ frame.Served
  | .master =>
    c.pending = none ∧ (frame.reply.isAck = true ∨ frame.reply = .noData
      ∨ frame.reply = .status ∧ c.linkState ≠ .notReady)

/-! ## What changes a connection -/

/-- A connection with more actions is another one. -/
theorem ne_of_actions {d : Connection α} (h : c.actions.length < d.actions.length) : d ≠ c := by
  rintro rfl
  exact lt_irrefl _ h

theorem emit_ne {d : Connection α} (a : Action α) (h : d.actions = c.actions := by rfl) :
    d.emit a ≠ c := by
  refine ne_of_actions ?_
  rw [emit, List.length_append, h]
  exact Nat.lt_succ_self _

/-- The end of an exchange shows. -/
theorem pending_ne {d : Connection α} (hd : d.pending = none) (hc : c.pending.isSome) : d ≠ c := by
  rintro rfl
  rw [hd] at hc
  cases hc

/-- The end of an exchange shows, also if the next one begins: the queue gets
shorter. -/
theorem maybeFlushQueue_ne {d : Connection α} (hd : d.pending = none)
    (hc : c.pending.isSome) (hq : d.sendQueue = c.sendQueue) :
    d.maybeFlushQueue now ≠ c := by
  cases hs : d.sendQueue with
  | nil =>
    rw [maybeFlushQueue_nil hs]
    exact pending_ne hd hc
  | cons asdu rest =>
    rw [maybeFlushQueue_cons hd hs]
    intro heq
    have hlen : rest.length = c.sendQueue.length :=
      congrArg (fun c => c.sendQueue.length) heq
    rw [← hq, hs, List.length_cons] at hlen
    omega

/-! ## The master -/

/-- A master that waits for nothing changes nothing on an end of an exchange. -/
theorem clear_eq (hp : c.pending = none) : { c with pending := none } = c := by
  rw [← hp]

/-- What a reply leaves as it is. -/
theorem onReply_eq_self_iff (reply : Reply α) : c.onReply now reply = c
      ↔ c.pending = none ∧ (reply.isAck = true ∨ reply = .noData
        ∨ reply = .status ∧ c.linkState ≠ .notReady) := by
  have hready : { c with pending := none }.makeReady.pending = none := by
    rw [makeReady_eq]
  have hqueue : { c with pending := none }.makeReady.sendQueue = c.sendQueue := by
    rw [makeReady_eq]
  cases hp : c.pending with
  | none =>
    cases reply with
    | char | ack => exact iff_of_true (by rw [onReply, hp]; rfl) ⟨rfl, Or.inl rfl⟩
    | nack | data | invalid => exact iff_of_false (emit_ne _) (by simp [Reply.isAck])
    | status =>
      rw [onReply, clear_eq hp, makeReady]
      by_cases hl : c.linkState = .notReady
      · refine iff_of_false ?_ (by simp [Reply.isAck, hl])
        rw [if_pos hl, transitionLink, if_pos (by rw [hl]; decide)]
        exact emit_ne _
      · exact iff_of_true (if_neg hl) ⟨rfl, Or.inr (Or.inr ⟨rfl, hl⟩)⟩
    | noData => exact iff_of_true (clear_eq hp) ⟨rfl, Or.inr (Or.inl rfl)⟩
  | some p =>
    have hsome : c.pending.isSome := by rw [hp]; rfl
    refine iff_of_false ?_ fun h => Option.some_ne_none p h.1
    cases reply with
    | char => rw [onReply, if_pos hsome]; exact maybeFlushQueue_ne rfl hsome rfl
    | ack => rw [onReply, if_pos hsome]; exact maybeFlushQueue_ne hready hsome hqueue
    | nack | data | invalid => exact emit_ne _
    | status => exact pending_ne hready hsome
    | noData => exact pending_ne rfl hsome

/-! ## The outstation -/

section Outstation

variable {control : UInt8} {fcb fcv : Bool} {func : FuncCodePrimary}

/-- An octet without a function has the number of none. -/
theorem ne_toNibble_of_decode (h : ControlField.decode control .primary = none)
    (func : FuncCodePrimary) : control &&& ControlField.funcMask ≠ func.toNibble := by
  intro heq
  rw [ControlField.decode, heq] at h
  cases func <;> cases h

/-- The number in an octet is the one of the function that is read from it. -/
theorem toNibble_of_decode
    (h : ControlField.decode control .primary = some (.primary fcb fcv func)) :
    control &&& ControlField.funcMask = func.toNibble := by
  have hmask : (control &&& ControlField.funcMask) &&& 0x0F
      = control &&& ControlField.funcMask := by
    show (control &&& 0x0F) &&& 0x0F = control &&& 0x0F
    rw [UInt8.and_assoc, UInt8.and_self]
  obtain ⟨read, hread, hfield⟩ := Option.map_eq_some_iff.mp h
  cases hfield
  rw [← hmask]
  unfold FuncCodePrimary.fromNibble at hread
  split at hread <;> cases hread <;> assumption

theorem toNibble_injective : Function.Injective FuncCodePrimary.toNibble := by
  intro a b h
  cases a <;> cases b <;> first | rfl | cases h

/-- A frame for this outstation does nothing if this is so for the function that
is read from its control octet. -/
theorem eq_self_iff_not_served {frame : Frame α} {d : Connection α} {address : LinkAddress}
    (hheader : frame.header? = some (control, address))
    (hnone : ControlField.decode control .primary = none → d = c)
    (hsome : ∀ fcb fcv func, ControlField.decode control .primary
      = some (.primary fcb fcv func) → (d = c ↔ func ∉ frame.servedCodes)) :
    d = c ↔ ¬ frame.Served := by
  cases hdecode : ControlField.decode control .primary with
  | none =>
    refine iff_of_true (hnone hdecode) ?_
    rintro ⟨octet, address', hheader', func, -, hfunc⟩
    cases hheader.symm.trans hheader'
    exact ne_toNibble_of_decode hdecode func hfunc
  | some cf =>
    cases cf with
    | secondary acd dfc func =>
      obtain ⟨_, _, hfield⟩ := Option.map_eq_some_iff.mp hdecode
      cases hfield
    | primary fcb fcv func =>
      rw [hsome fcb fcv func hdecode]
      refine not_congr ⟨fun hmem => ?_, ?_⟩
      · exact ⟨control, address, hheader, func, hmem, toNibble_of_decode hdecode⟩
      · rintro ⟨octet, address', hheader', func', hmem, hfunc⟩
        cases hheader.symm.trans hheader'
        rw [toNibble_of_decode hdecode] at hfunc
        rw [toNibble_injective hfunc]
        exact hmem

/-- An outstation does something for exactly the served function codes of a
control frame. -/
theorem outstationOnPrimaryFixed_eq_self_iff (address : LinkAddress) :
    c.outstationOnPrimaryFixed (.primary fcb fcv func) = c
      ↔ func ∉ (Frame.fixedLength (α := α) control address).servedCodes := by
  have hpoll (fcb fcv : Bool) :
      c.outstationOnPrimaryFixed (.primary fcb fcv .requestUserDataClass1) ≠ c := by
    unfold outstationOnPrimaryFixed
    dsimp only
    split
    · exact emit_ne _
    · exact emit_ne _
  rw [Frame.servedCodes]
  cases func with
  | resetRemoteLink =>
    refine iff_of_false (ne_of_actions ?_) (by decide)
    rw [outstationOnPrimaryFixed, transitionLink_eq]
    show c.actions.length < ((c.actions ++ [_]) ++ _).length
    rw [List.length_append, List.length_append, List.length_singleton]
    omega
  | requestStatus => exact iff_of_false (emit_ne _) (by decide)
  | requestUserDataClass1 | requestUserDataClass2 => exact iff_of_false (hpoll fcb fcv) (by decide)
  | _ => exact iff_of_true rfl (by decide)

/-- The same for a frame with an ASDU. -/
theorem outstationOnPrimaryVariable_eq_self_iff (address : LinkAddress) (asdu : α) :
    c.outstationOnPrimaryVariable (.primary fcb fcv func) asdu = c
      ↔ func ∉ (Frame.variableLength control address asdu).servedCodes := by
  rw [Frame.servedCodes]
  cases func with
  | userDataConfirmed =>
    refine iff_of_false ?_ (by decide)
    have hacked (d : Connection α) (hd : d.actions = c.actions) (fresh : Bool) :
        (if fresh then d.sendAck.emit (.deliverAsdu asdu) else d.sendAck) ≠ c := by
      refine ne_of_actions ?_
      have hack : d.sendAck.actions.length = c.actions.length + 1 := by
        rw [← hd]
        exact List.length_append
      split
      · rw [emit, List.length_append, hack]
        omega
      · omega
    refine hacked _ ?_ _
    split <;> rfl
  | userDataUnconfirmed => exact iff_of_false (emit_ne _) (by decide)
  | _ => exact iff_of_true rfl (by decide)

/-- An outstation ignores the frames for other addresses, and of its own those
whose function code is not served. -/
theorem outstationOnFrame_eq_self_iff (frame : Frame α) : c.outstationOnFrame frame = c
      ↔ (∀ control, frame.header? ≠ some (control, c.config.linkAddress)) ∨ ¬ frame.Served := by
  have hself (control : UInt8) : ¬ ∀ octet : UInt8,
      some (control, c.config.linkAddress) ≠ some (octet, c.config.linkAddress) :=
    fun h => h control rfl
  have hother {control : UInt8} {address : LinkAddress}
      (ha : address ≠ c.config.linkAddress) (octet : UInt8) :
      some (control, address) ≠ some (octet, c.config.linkAddress) :=
    fun h => ha (congrArg Prod.snd (Option.some.inj h))
  cases frame with
  | single char => exact iff_of_true rfl (Or.inl fun _ h => by cases h)
  | fixedLength control address =>
    rw [outstationOnFrame]
    by_cases ha : address = c.config.linkAddress
    · rw [if_neg (not_not_intro ha), ha, Frame.header?, or_iff_right (hself control)]
      refine eq_self_iff_not_served rfl (fun h => ?_) fun fcb fcv func h => ?_
      · rw [h]
      · rw [h]
        exact outstationOnPrimaryFixed_eq_self_iff _
    · rw [if_pos ha]
      exact iff_of_true rfl (Or.inl (hother ha))
  | variableLength control address asdu =>
    rw [outstationOnFrame]
    by_cases ha : address = c.config.linkAddress
    · rw [if_neg (not_not_intro ha), ha, Frame.header?, or_iff_right (hself control)]
      refine eq_self_iff_not_served rfl (fun h => ?_) fun fcb fcv func h => ?_
      · rw [h]
      · rw [h]
        exact outstationOnPrimaryVariable_eq_self_iff _ asdu
    · rw [if_pos ha]
      exact iff_of_true rfl (Or.inl (hother ha))

end Outstation

/-! ## Both roles -/

/-- **A frame is ignored exactly if it finds nothing to do.** -/
theorem ignores_iff (c : Connection α) (frame : Frame α) (now : Instant) :
    c.Ignores frame now ↔ c.Unmoved frame := by
  rw [Ignores, onInput, onFrame, Unmoved]
  cases c.role with
  | master =>
    dsimp only
    rw [masterOnFrame_eq]
    exact onReply_eq_self_iff frame.reply
  | outstation => exact outstationOnFrame_eq_self_iff frame

/-- **Frames for someone else have no effect exactly if they find nothing to
do**, in every state of either role: neither the address nor bit 6 of the control
octet protects a master, and bit 6 does not protect an outstation. -/
theorem foreign_ignored_iff (c : Connection α) (frame : Frame α) (now : Instant) :
    (c.Foreign frame → c.Ignores frame now)
      ↔ (c.Foreign frame → c.Unmoved frame) := by
  rw [ignores_iff]

end Connection

/-- The parameters of a station with the address 1. -/
def addressOne : Config := { Config.default with linkAddress := ⟨1⟩ }

/-- A send of the master, with the frame count bit set. -/
def sendToOne : Input ℕ × Instant :=
  (.frameReceived (Connection.userDataFrame ⟨1⟩ true 7), 0)

/-- The acknowledgement of an outstation. -/
def ackOfOne : Frame ℕ := .fixedLength (ControlField.encode (.secondary false false .ack)) ⟨1⟩

/-- User data of another outstation. -/
def dataOfTwo : Frame ℕ :=
  .variableLength (ControlField.encode (.secondary false false .respondUserData)) ⟨2⟩ 7

/-- **Frames for someone else act**: a master delivers the data of an outstation
that it does not serve; an outstation takes its own acknowledgement, which an
echo on the line brings back, for a reset of the link: it answers it, and forgets
the frame count bit it has seen. -/
theorem foreign_not_ignored :
    (∃ h c, Machine.Run Connection.handle (.unbalanced .master addressOne) h c
      ∧ c.Foreign dataOfTwo
      ∧ (c.handle (.frameReceived dataOfTwo, 0)).2 = [.deliverAsdu 7]
      ∧ ¬ c.Ignores dataOfTwo 0)
    ∧ ∃ h c, Machine.Run Connection.handle (.unbalanced .outstation addressOne) h c
      ∧ (∃ k ∈ h, .sendFrame ackOfOne ∈ k.actions) ∧ c.Foreign ackOfOne
      ∧ c.lastFcbSeen = some true
      ∧ (c.handle (.frameReceived ackOfOne, 0)).1.lastFcbSeen = none
      ∧ (c.handle (.frameReceived ackOfOne, 0)).2
        = [.sendFrame ackOfOne, .linkStateChanged .ready]
      ∧ ¬ c.Ignores ackOfOne 0 := by
  refine ⟨⟨_, _, .nil, ⟨_, _, rfl, Or.inl (by decide)⟩, rfl, ?_⟩,
    ⟨_, _, Machine.run_exec _ _ [sendToOne], ?_, ⟨_, _, rfl, Or.inr (by decide)⟩, rfl,
      rfl, rfl, ?_⟩⟩
  · exact Connection.emit_ne (.deliverAsdu 7)
  · exact ⟨_, List.mem_singleton_self _, by decide⟩
  · exact Connection.ne_of_actions (by decide)

end Frame101
