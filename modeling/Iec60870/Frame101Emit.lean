import Iec60870.Frame101Checksum
import Iec60870.Frame101Confirm

/-!
# What the link emits and what the encoder makes of it

Neither the encoder of `frame101/codec.rs` nor the machine that hands it its
frames looks at whether a frame can be written. `Codec.encode` returns no
error: a length that needs more than eight bits is cut, and so is an address
that is wider than its field. With an address field of one octet the checksum
nevertheless adds the whole address in sixteen bits, which panics where
overflow is checked. `Codec.encodeChecked` is the encoder with these checks,
and `Codec.encodeChecked_eq` says that it differs in nothing else.

What a decoder answers fits the fields it was read from
(`Codec.fits_of_decodeSlice`), whatever the buffer is. So a frame that does
not fit is never read back, and the two ways to go wrong are one condition
(`Codec.faithful_iff`).

A station emits frames with its own address and with ASDUs that have been
submitted to it, in either role (`Connection.builtFrom_of_run`), and keeps
neither within any bound. `Connection.emitted_faithful_iff` puts the two
together.
-/

namespace Frame101

open Iec60870 Wire Machine

/-! ## The encoder with overflow checks -/

namespace Codec

/-- An addition that panics on overflow. -/
def checkedAdd (a b : UInt16) : Option UInt16 :=
  if a.toNat + b.toNat < 2 ^ 16 then some (a + b) else none

/-- The checksum of a frame of fixed length, with the overflow checks of
`checksum_fixed`. -/
def checksumFixedChecked (control : UInt8) (address : LinkAddress)
    (size : LinkAddressSize) : Option UInt8 := do
  let sum ← match size with
    | .one => checkedAdd control.toUInt16 address.raw
    | .two => do
      let sum ← checkedAdd control.toUInt16 (address.raw % 256)
      checkedAdd sum (address.raw / 256)
  return (sum &&& 0xFF).toUInt8

/-- The checksum of a frame of variable length, with the overflow checks of
`checksum_variable`. -/
def checksumVariableChecked (control : UInt8) (address : LinkAddress)
    (size : LinkAddressSize) (asdu : Bytes) : Option UInt8 := do
  let start ← checksumFixedChecked control address size
  let sum ← asdu.foldlM
    (fun sum b => do return (← checkedAdd sum b.toUInt16) &&& 0xFF) start.toUInt16
  return sum.toUInt8

/-- **The octets of a frame**, or nothing if an addition overflows. The sums
of lengths are sums of machine words, which a buffer in memory does not
exhaust. -/
def encodeChecked (size : LinkAddressSize) : Frame Bytes → Option Bytes
  | .single char => some [char.asByte]
  | .fixedLength control address => do
    let cs ← checksumFixedChecked control address size
    return START_FIXED :: control :: (address.encodeTo size ++ [cs, END])
  | .variableLength control address asdu => do
    let length := UInt8.ofNat (1 + size.len + asdu.length)
    let cs ← checksumVariableChecked control address size asdu
    return START_VAR :: length :: length :: START_VAR :: control
      :: (address.encodeTo size ++ asdu ++ [cs, END])

theorem checkedAdd_of_lt {a b : UInt16} (h : a.toNat + b.toNat < 2 ^ 16) :
    checkedAdd a b = some (a + b) := if_pos h

/-- A whole address is added to the control octet, and the sum needs more than
sixteen bits. -/
def Overflows (control : UInt8) (address : LinkAddress) (size : LinkAddressSize) : Prop :=
  size = .one ∧ 2 ^ 16 ≤ control.toNat + address.raw.toNat

instance (control : UInt8) (address : LinkAddress) (size : LinkAddressSize) :
    Decidable (Overflows control address size) :=
  inferInstanceAs (Decidable (_ ∧ _))

/-- The only addition that can overflow is the one of a whole address. -/
theorem checksumFixedChecked_eq (control : UInt8) (address : LinkAddress)
    (size : LinkAddressSize) : checksumFixedChecked control address size
      = if Overflows control address size then none
        else some (checksumFixed control address size) := by
  have hcontrol := control.toNat_lt
  have hraw := address.raw.toNat_lt
  cases size with
  | one =>
    unfold checksumFixedChecked checksumFixed checkedAdd Overflows
    rw [UInt8.toNat_toUInt16]
    by_cases h : control.toNat + address.raw.toNat < 2 ^ 16
    · simp only [if_pos h, Nat.not_le.mpr h, and_false, if_false]
      rfl
    · simp only [if_neg h, Nat.not_lt.mp h, and_self, if_true]
      rfl
  | two =>
    have hmod : (address.raw % 256).toNat < 256 := by
      rw [UInt16.toNat_mod]
      exact Nat.mod_lt _ (by decide)
    have hdiv : (address.raw / 256).toNat < 256 := by
      rw [UInt16.toNat_div]
      exact Nat.div_lt_of_lt_mul hraw
    have hlow : control.toUInt16.toNat + (address.raw % 256).toNat < 2 ^ 16 := by
      rw [UInt8.toNat_toUInt16]
      omega
    have hhigh : (control.toUInt16 + address.raw % 256).toNat + (address.raw / 256).toNat
        < 2 ^ 16 := by
      rw [UInt16.toNat_add, Nat.mod_eq_of_lt hlow, UInt8.toNat_toUInt16]
      omega
    unfold checksumFixedChecked
    dsimp only
    rw [checkedAdd_of_lt hlow, Option.bind_eq_bind, Option.bind_some, checkedAdd_of_lt hhigh]
    rfl

/-- The loop keeps its sum in eight bits, so that it never overflows. -/
theorem foldlM_checkedAdd (asdu : Bytes) {sum : UInt16} (h : sum.toNat < 256) :
    asdu.foldlM (fun sum b => do return (← checkedAdd sum b.toUInt16) &&& 0xFF) sum
      = some (asdu.foldl (fun sum b => (sum + b.toUInt16) &&& 0xFF) sum) := by
  induction asdu generalizing sum with
  | nil => rfl
  | cons b asdu ih =>
    have hb := b.toNat_lt
    have hstep : checkedAdd sum b.toUInt16 = some (sum + b.toUInt16) :=
      checkedAdd_of_lt (by rw [UInt8.toNat_toUInt16]; omega)
    have hlt : ((sum + b.toUInt16) &&& 0xFF).toNat < 256 := by
      rw [UInt16.toNat_and]
      exact Nat.lt_succ_of_le Nat.and_le_right
    rw [List.foldlM_cons, List.foldl_cons, hstep]
    exact ih hlt

theorem checksumVariableChecked_eq (control : UInt8) (address : LinkAddress)
    (size : LinkAddressSize) (asdu : Bytes) :
    checksumVariableChecked control address size asdu = if Overflows control address size then none
        else some (checksumVariable control address size asdu) := by
  have hstart : (checksumFixed control address size).toUInt16.toNat < 256 :=
    (UInt8.toNat_toUInt16 _).trans_lt (UInt8.toNat_lt _)
  unfold checksumVariableChecked
  rw [checksumFixedChecked_eq]
  split
  · rfl
  · rw [Option.bind_eq_bind, Option.bind_some, foldlM_checkedAdd asdu hstart]
    rfl

/-- Encoding a frame overflows. -/
def OverflowsFrame (size : LinkAddressSize) : Frame Bytes → Prop
  | .single _ => False
  | .fixedLength control address => Overflows control address size
  | .variableLength control address _ => Overflows control address size

instance (size : LinkAddressSize) (frame : Frame Bytes) :
    Decidable (OverflowsFrame size frame) :=
  match frame with
  | .single _ => inferInstanceAs (Decidable False)
  | .fixedLength _ _ => inferInstanceAs (Decidable (Overflows _ _ _))
  | .variableLength _ _ _ => inferInstanceAs (Decidable (Overflows _ _ _))

/-- **The overflow checks change nothing but the answer to an overflow.** -/
theorem encodeChecked_eq (size : LinkAddressSize) (frame : Frame Bytes) : encodeChecked size frame
      = if OverflowsFrame size frame then none else some (encode size frame) := by
  cases frame with
  | single char => rfl
  | fixedLength control address =>
    rw [encodeChecked, checksumFixedChecked_eq]
    by_cases h : Overflows control address size
    · rw [if_pos h, if_pos (c := OverflowsFrame size (.fixedLength control address)) h]
      rfl
    · rw [if_neg h, if_neg (c := OverflowsFrame size (.fixedLength control address)) h]
      rfl
  | variableLength control address asdu =>
    rw [encodeChecked, checksumVariableChecked_eq]
    by_cases h : Overflows control address size
    · rw [if_pos h, if_pos (c := OverflowsFrame size (.variableLength control address asdu)) h]
      rfl
    · rw [if_neg h, if_neg (c := OverflowsFrame size (.variableLength control address asdu)) h]
      rfl

variable {size : LinkAddressSize} {frame : Frame Bytes} {buf : Bytes} {n : ℕ}

/-- An address that fits its field overflows no sum. -/
theorem not_overflows_of_fits (h : Fits size frame) : ¬ OverflowsFrame size frame := by
  have hno {control : UInt8} {address : LinkAddress} (ha : FitsAddress size address) :
      ¬ Overflows control address size := by
    rintro ⟨rfl, hle⟩
    have hcontrol := control.toNat_lt
    have hraw : address.raw.toNat < 256 := ha
    omega
  cases frame with
  | single char => exact not_false
  | fixedLength control address => exact hno h
  | variableLength control address asdu => exact hno h.1

/-! ## What is decoded fits -/

/-- What is read from an address field fits it. -/
theorem fitsAddress_addressAt (buf : Bytes) (size : LinkAddressSize) (start : ℕ) :
    FitsAddress size (addressAt buf size start) := by
  cases size with
  | two => trivial
  | one =>
    show (addressAt buf .one start).raw.toNat < 256
    unfold addressAt
    cases slice buf start (start + LinkAddressSize.one.len) with
    | nil => exact Nat.succ_pos _
    | cons b bs => exact (UInt8.toNat_toUInt16 b).trans_lt b.toNat_lt

theorem length_slice_le (buf : Bytes) (start stop : ℕ) :
    (slice buf start stop).length ≤ stop - start :=
  (List.length_take_le _ _)

theorem fits_of_decodeFixed (h : decodeFixed size buf = .ok frame) : Fits size frame := by
  unfold decodeFixed at h
  dsimp only at h
  cases hend : checkEnd (octet buf (2 + size.len + 1))
      (checksumFixed (octet buf 1) (addressAt buf size 2) size) (octet buf (2 + size.len)) with
  | error e => rw [hend] at h; cases h
  | ok _ =>
    rw [hend] at h
    cases h
    exact fitsAddress_addressAt buf size 2

theorem fits_of_decodeVariable {length : ℕ} (hlength : length ≤ 255)
    (h : decodeVariable size length buf = .ok frame) : Fits size frame := by
  unfold decodeVariable at h
  dsimp only at h
  split at h
  · cases h
  · cases hend : checkEnd (octet buf (4 + length + 1))
        (checksumVariable (octet buf 4) (addressAt buf size 5) size
          (slice buf (5 + size.len) (4 + length))) (octet buf (4 + length)) with
    | error e => rw [hend] at h; cases h
    | ok _ =>
      rw [hend] at h
      cases h
      refine ⟨fitsAddress_addressAt buf size 5, (length_slice_le _ _ _).trans ?_⟩
      omega

/-- **What is decoded fits**: no buffer is read as a frame with an address
wider than its field, or with an ASDU longer than a length octet can say. -/
theorem fits_of_decodeSlice
    (h : decodeSlice size buf = .ok (some (frame, n))) : Fits size frame := by
  obtain ⟨-, -, ⟨char, rfl⟩ | hfixed | ⟨length, hle, hvariable⟩⟩ := exists_of_decodeSlice h
  · trivial
  · exact fits_of_decodeFixed hfixed
  · exact fits_of_decodeVariable hle hvariable

/-- **A frame means on the line what it means here**: it is encoded without
an overflow, and what is written is read back as this frame. -/
def Faithful (size : LinkAddressSize) (frame : Frame Bytes) : Prop :=
  ∃ bs, encodeChecked size frame = some bs ∧ decodeSlice size bs = .ok (some (frame, bs.length))

/-- **The faithful frames are those that fit.** -/
theorem faithful_iff (size : LinkAddressSize) (frame : Frame Bytes) :
    Faithful size frame ↔ Fits size frame := by
  constructor
  · intro ⟨bs, _, hdecode⟩
    exact fits_of_decodeSlice hdecode
  · intro h
    have hdecode := decodeSlice_encode h []
    rw [List.append_nil] at hdecode
    refine ⟨encode size frame, ?_, hdecode⟩
    rw [encodeChecked_eq, if_neg (not_overflows_of_fits h)]

end Codec

/-! ## What a station builds -/

section Built

variable {α : Type} {address : LinkAddress} {asdus : List α} {f : Frame α} {v : SendView α}
  {w : SendView α}

/-- **A frame a station may build**: its own address, and an ASDU it was
given. -/
def Frame.BuiltFrom (address : LinkAddress) (asdus : List α) : Frame α → Prop
  | .single _ => False
  | .fixedLength _ a => a = address
  | .variableLength _ a asdu => a = address ∧ asdu ∈ asdus

/-- A station holds only such frames and ASDUs, and has sent only such
frames. -/
structure SendView.BuiltFrom (address : LinkAddress) (asdus : List α) (v : SendView α) :
    Prop where
  pending : ∀ f ∈ v.pending, f.BuiltFrom address asdus
  queue : ∀ asdu ∈ v.queue, asdu ∈ asdus
  out : ∀ f ∈ v.out, f.BuiltFrom address asdus

theorem Frame.BuiltFrom.mono (h : f.BuiltFrom address asdus) (more : List α) :
    f.BuiltFrom address (asdus ++ more) := by
  cases f with
  | single | fixedLength => exact h
  | variableLength control a asdu => exact ⟨h.1, List.mem_append_left _ h.2⟩

/-- One more frame is sent. -/
theorem SendView.BuiltFrom.snoc (h : v.BuiltFrom address asdus) (hf : f.BuiltFrom address asdus) :
    { v with out := v.out ++ [f] }.BuiltFrom address asdus where
  pending := h.pending
  queue := h.queue
  out := by
    intro g hg
    obtain hg | hg := List.mem_append.mp hg
    · exact h.out g hg
    · exact List.mem_singleton.mp hg ▸ hf

/-- A master builds what it sends. -/
theorem Deed.builtFrom (hd : Deed address v w)
    (h : v.BuiltFrom address asdus) : w.BuiltFrom address asdus := by
  cases hd with
  | clear => exact { h with pending := fun f hf => nomatch hf }
  | start asdu rest hp hq =>
    have hf : (Connection.userDataFrame address v.fcb asdu).BuiltFrom address asdus :=
      ⟨rfl, h.queue asdu (by rw [hq]; exact List.mem_cons_self)⟩
    exact
      { pending := fun f hf' => Option.some.inj hf' ▸ hf
        queue := fun a ha => h.queue a (by rw [hq]; exact List.mem_cons_of_mem _ ha)
        out := (h.snoc hf).out }
  | ask control =>
    have hf : (Frame.fixedLength control address : Frame α).BuiltFrom address asdus := rfl
    exact { h.snoc hf with pending := fun f hf' => Option.some.inj hf' ▸ hf }
  | again hp => exact h.snoc (h.pending _ hp)

theorem Deeds.builtFrom (hd : Deeds address v w)
    (h : v.BuiltFrom address asdus) : w.BuiltFrom address asdus := by
  induction hd with
  | refl => exact h
  | tail _ hd ih => exact hd.builtFrom ih

namespace Connection

variable {c : Connection α}

section

variable (h : c.sendView.BuiltFrom c.config.linkAddress asdus)

include h

theorem builtFrom_answer (func : FuncCodeSecondary) :
    (answer func c).sendView.BuiltFrom c.config.linkAddress asdus := by
  rw [answer, sendView_sendFrame]
  exact h.snoc rfl

/-- An outstation builds what it answers to a control frame. -/
theorem builtFrom_outstationOnPrimaryFixed (cf : ControlField) :
    (c.outstationOnPrimaryFixed cf).sendView.BuiltFrom c.config.linkAddress asdus := by
  -- both polls answer from the queue
  have hpoll : ∀ d, (c.sendQueue = [] → d = c.sendNackNoData) →
      (∀ asdu rest, c.sendQueue = asdu :: rest →
        d = { c with sendQueue := rest }.sendRespondUserData asdu) →
      d.sendView.BuiltFrom c.config.linkAddress asdus := by
    intro d hnil hcons
    cases hq : c.sendQueue with
    | nil =>
      rw [hnil hq]
      exact builtFrom_answer h .nackNoData
    | cons asdu rest =>
      have hmem : ∀ a ∈ asdu :: rest, a ∈ asdus := hq ▸ h.queue
      rw [hcons asdu rest hq, sendRespondUserData, sendView_sendFrame]
      refine SendView.BuiltFrom.snoc (v := { c with sendQueue := rest }.sendView)
        { h with queue := fun a ha => hmem a (List.mem_cons_of_mem _ ha) } ?_
      exact ⟨rfl, hmem asdu List.mem_cons_self⟩
  cases cf with
  | secondary acd dfc func => exact h
  | primary fcb fcv func =>
    cases func with
    | resetRemoteLink =>
      rw [outstationOnPrimaryFixed, sendView_transitionLink]
      exact builtFrom_answer (c := { c with lastFcbSeen := none }) h .ack
    | requestStatus => exact builtFrom_answer h .statusOfLink
    | requestUserDataClass1 | requestUserDataClass2 =>
      refine hpoll _ (fun hq => ?_) fun asdu rest hq => ?_
      · rw [outstationOnPrimaryFixed, hq]
      · rw [outstationOnPrimaryFixed, hq]
    | _ => exact h

theorem builtFrom_outstationOnPrimaryVariable (cf : ControlField) (asdu : α) :
    (c.outstationOnPrimaryVariable cf asdu).sendView.BuiltFrom c.config.linkAddress asdus := by
  have hconfirm {d : Connection α} (hd : d.sendView.BuiltFrom d.config.linkAddress asdus)
      (duplicate : Bool) :
      (if !duplicate then d.sendAck.emit (.deliverAsdu asdu)
        else d.sendAck).sendView.BuiltFrom d.config.linkAddress asdus := by
    cases duplicate with
    | true => exact builtFrom_answer hd .ack
    | false =>
      show (d.sendAck.emit (.deliverAsdu asdu)).sendView.BuiltFrom _ _
      rw [sendView_emit rfl]
      exact builtFrom_answer hd .ack
  cases cf with
  | secondary acd dfc func => exact h
  | primary fcb fcv func =>
    cases func with
    | userDataConfirmed =>
      cases fcv with
      | false => exact hconfirm h false
      | true =>
        exact hconfirm (d := { c with lastFcbSeen := some fcb }) h
          (c.lastFcbSeen == some fcb)
    | userDataUnconfirmed =>
      show (c.emit (.deliverAsdu asdu)).sendView.BuiltFrom _ _
      rw [sendView_emit rfl]
      exact h
    | _ => exact h

theorem builtFrom_outstationOnFrame (frame : Frame α) :
    (c.outstationOnFrame frame).sendView.BuiltFrom c.config.linkAddress asdus := by
  unfold outstationOnFrame
  split
  · split
    · exact h
    · split
      · exact builtFrom_outstationOnPrimaryFixed h _
      · exact h
  · split
    · exact h
    · split
      · exact builtFrom_outstationOnPrimaryVariable h _ _
      · exact h
  · exact h

end

/-- **A call builds what it sends**, in either role. -/
theorem builtFrom_handle (hc : c.actions = []) (i : Input α × Instant)
    (h : (c.entryView i.1).BuiltFrom c.config.linkAddress asdus) :
    (exitView (c.handle i)).BuiltFrom c.config.linkAddress asdus := by
  cases hr : c.role with
  | master => exact (deeds_handle hr hc i).builtFrom h
  | outstation =>
    refine Deeds.builtFrom deeds_runTimers ?_
    cases hf : i.1.frame? with
    | none =>
      rw [onInput_outstation hr hf]
      unfold sendView
      rw [hc]
      exact h
    | some frame =>
      have hinput : i.1 = .frameReceived frame := by
        cases hi : i.1 with
        | frameReceived g =>
          rw [hi] at hf
          exact congrArg _ (Option.some.inj hf)
        | _ => rw [hi] at hf; cases hf
      have hentry : c.entryView i.1 = c.sendView := by
        unfold entryView sendView
        rw [hinput, hc]
        exact congrArg (fun q => SendView.mk _ q _ _) (List.append_nil _)
      rw [hentry] at h
      rw [hinput, onInput, onFrame, hr]
      exact builtFrom_outstationOnFrame h frame

/-- **A station emits frames with its own address, and with ASDUs submitted
to it.** -/
theorem builtFrom_of_run {role : Role} {config : Config} {h : List (Call α)}
    (r : Run Connection.handle (unbalanced role config) h c) :
    (exitView (c, [])).BuiltFrom config.linkAddress (submitted h)
      ∧ ∀ k ∈ h, ∀ frame, Action.sendFrame frame ∈ k.actions →
        frame.BuiltFrom config.linkAddress (submitted h) := by
  induction r with
  | nil =>
    refine ⟨⟨fun f hf => ?_, fun a ha => absurd ha List.not_mem_nil,
      fun f hf => absurd hf List.not_mem_nil⟩, fun k hk => absurd hk List.not_mem_nil⟩
    cases hf
  | @snoc h d r i ih =>
    obtain ⟨hview, hpast⟩ := ih
    obtain ⟨-, hconfig, hactions⟩ := kept_of_run r
    -- The ASDU the call submits is one of those it may send.
    have hentry : (d.entryView i.1).BuiltFrom d.config.linkAddress
        (submitted h ++ i.1.asdu?.toList) := by
      rw [hconfig]
      refine ⟨fun f hf => (hview.pending f hf).mono _, fun a ha => ?_, nofun⟩
      obtain ha | ha := List.mem_append.mp ha
      · exact List.mem_append_left _ (hview.queue a ha)
      · exact List.mem_append_right _ ha
    have hexit := builtFrom_handle hactions i hentry
    rw [hconfig] at hexit
    rw [submitted_snoc]
    refine ⟨{ hexit with out := nofun }, fun k hk frame hframe => ?_⟩
    obtain hk | hk := List.mem_append.mp hk
    · exact (hpast k hk frame hframe).mono _
    · rw [List.mem_singleton.mp hk] at hframe
      exact hexit.out frame (List.mem_filterMap.mpr ⟨_, hframe, rfl⟩)

end Connection

end Built

namespace Connection

/-- **Which emitted frames mean on the line what they mean here.** A frame
that a station of either role emits has the configured address, and its ASDU,
if it has one, has been submitted. It is encoded without an overflow and read
back as itself exactly if that address fits the address field and that ASDU
the length octet. -/
theorem emitted_faithful_iff {role : Role} {config : Config} {h : List (Call Bytes)}
    {c : Connection Bytes} (r : Run Connection.handle (unbalanced role config) h c)
    {k : Call Bytes} (hk : k ∈ h) {frame : Frame Bytes}
    (hframe : Action.sendFrame frame ∈ k.actions) (size : LinkAddressSize) :
    (∀ asdu ∈ frame.asdu?, asdu ∈ submitted h) ∧ (Codec.Faithful size frame
        ↔ Codec.FitsAddress size config.linkAddress
          ∧ ∀ asdu ∈ frame.asdu?, asdu.length ≤ 255 - 1 - size.len) := by
  have hbuilt := (builtFrom_of_run r).2 k hk frame hframe
  rw [Codec.faithful_iff]
  cases frame with
  | single char => exact hbuilt.elim
  | fixedLength control address =>
    obtain rfl : address = config.linkAddress := hbuilt
    exact ⟨nofun, fun hfits => ⟨hfits, nofun⟩, And.left⟩
  | variableLength control address asdu =>
    obtain ⟨rfl, hmem⟩ := hbuilt
    refine ⟨fun a ha => Option.some.inj ha ▸ hmem,
      fun ⟨haddress, hlength⟩ => ⟨haddress, fun a ha => Option.some.inj ha ▸ hlength⟩,
      fun ⟨haddress, hlength⟩ => ⟨haddress, hlength asdu rfl⟩⟩

/-- A master sends an ASDU of three octets to the outstation 7. -/
theorem emitted_faithful_three :
    Codec.Faithful .one (userDataFrame ⟨7⟩ false [1, 2, 3]) := by
  let start : Connection Bytes :=
    unbalanced .master { Config.default with linkAddress := ⟨7⟩ }
  have r := run_exec Connection.handle start [(.sendUserData [1, 2, 3], 0)]
  refine (emitted_faithful_iff r (k := call Connection.handle start _)
    (List.mem_singleton.mpr rfl) (List.mem_singleton.mpr rfl) .one).2.mpr ?_
  refine ⟨show (7 : UInt16).toNat < 256 by decide, fun asdu hasdu => ?_⟩
  rw [← Option.some.inj hasdu]
  decide

/-- **Two frames that do not.** With an address field of one octet and the
address 65535 the very first frame overflows the checksum, and an ASDU of 254
octets is sent with the length octet zero, which the decoder refuses. -/
theorem emitted_unfaithful :
    (let config : Config := { Config.default with linkAddress := ⟨0xFFFF⟩ }
      let frame : Frame Bytes := .fixedLength 0x40 ⟨0xFFFF⟩
      .sendFrame frame ∈ ((unbalanced .master config).handle (.resetRemoteLink, 0)).2
        ∧ Codec.encodeChecked .one frame = none
        ∧ ¬ Codec.Faithful .one frame)
    ∧ (let asdu : Bytes := List.replicate 254 0
      let frame : Frame Bytes := userDataFrame ⟨0⟩ false asdu
      .sendFrame frame
          ∈ ((unbalanced .master Config.default).handle (.sendUserData asdu, 0)).2
        ∧ Codec.decodeSlice .one (Codec.encode .one frame) = .error (.lengthMismatch 0 2)
        ∧ ¬ Codec.Faithful .one frame) := by
  refine ⟨⟨by decide, by decide, ?_⟩, List.mem_singleton.mpr rfl, by decide +kernel, ?_⟩
  · rw [Codec.faithful_iff]
    exact show ¬ (0xFFFF : UInt16).toNat < 256 by decide
  · rw [Codec.faithful_iff]
    rintro ⟨-, hle⟩
    rw [List.length_replicate] at hle
    exact absurd hle (by decide)

end Connection

end Frame101
