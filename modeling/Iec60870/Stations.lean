import Iec60870.ClientDaemon
import Iec60870.ServerDaemon

/-!
# A client and a server

The two daemons of the test tools, at the two ends of a connection. A request of the
client is octets, which the server reads and answers (`handle_incoming_asdu` of
`server.rs`); the answers are octets again, for the pump of the client.

An interrogation copies the image. Whatever the cache of the client had in it, every point
that was asked for is there afterwards as the formats on the way can say it (`mirror`), and
no other entry has changed: this is `interrogation_mirrors`. It is an induction over the
reports of the answer, each of which is read back (`exists_report`).
-/

open Iec60870 FileTransfer Points

namespace Server

variable {F32 F64 : Type}

/-! ## What the server answers -/

/-- The kind of the points of a group (`kind_for_group`). -/
def kindForGroup (group : UInt8) : Option PointKind :=
  match group with
  | 1 => some .spNa
  | 2 => some .dpNa
  | 3 => some .meNa
  | 4 => some .meNb
  | 5 => some .meNc
  | 6 => some .spTb
  | 7 => some .dpTb
  | 8 => some .meTd
  | 9 => some .meTe
  | 10 => some .meTf
  | _ => none

/-- The group of a qualifier (`saturating_sub`). -/
def groupOf (qoi : Qoi) : UInt8 := if qoi.raw < 20 then 0 else qoi.raw - 20

/-- What an interrogation asks for: all points, or those of one kind. -/
def Asks (qoi : Qoi) (kind : PointKind) : Prop :=
  qoi = .general ∨ kindForGroup (groupOf qoi) = some kind

instance (qoi : Qoi) (kind : PointKind) : Decidable (Asks qoi kind) :=
  inferInstanceAs (Decidable (_ ∨ _))

/-- The cause of the reports of a group fits its field. -/
theorem cause_of_isSome : ∀ group : UInt8, (kindForGroup group).isSome → 20 + group < 64 := by
  decide +kernel

section Respond

variable (fp : PointArith F32 F64) (clock : UInt32 → SystemTime)

variable (s : DaemonState F32 F64)

/-- The addresses of the points of a kind (`iter_kind`), in order. -/
def sortedIoasOf (kind : PointKind) : List UInt32 :=
  s.image.sortedIoas.filter fun ioa => (s.image.get ioa).any (·.kind == kind)

/-- **The answer to the interrogation of a group** (`respond_interrogation_group`). -/
def respondInterrogationGroup (group : UInt8) : DaemonState F32 F64 × List Bytes :=
  let ack := encodeInterrogation (.group group) (.of .activationCon) s.coa
  let term := encodeInterrogation (.group group) (.of .activationTermination) s.coa
  let (s, sent) := match kindForGroup group with
    | some kind =>
      (sortedIoasOf s kind).foldl (reportPoint fp clock (.of ⟨20 + group⟩)) (s, [ack])
    | none => (s, [ack])
  (s, sent ++ [term])

/-- The answers to a command (`handle_command_list`): its objects as they came, twice. -/
def handleCommandList {E : Type} (T : Payload (List (Ioa × E))) (a : Asdu)
    (ca : CommonAddress) : List Bytes :=
  match a.decodePayload T .iec104 with
  | .error _ => []
  | .ok objects =>
    let vsq := Vsq.single (UInt8.ofNat objects.length)
    [.of .activationCon, .of .activationTermination].map fun cot =>
      (Asdu.fromPayload T cot ca vsq objects .iec104).encode .iec104

/-- The answer to a system command: its payload as it came. -/
def echo {P : Type} (T : Payload P) (a : Asdu) (cause : Cause) (ca : CommonAddress) :
    List Bytes :=
  match a.decodePayload T .iec104 with
  | .error _ => []
  | .ok payload => [encodeAsdu T payload (.of cause) ca]

/-- The answer to an interrogation; one without an object is a general one. -/
def respondInterrogation (a : Asdu) : DaemonState F32 F64 × List Bytes :=
  match a.decodePayload C_IC_NA_1 .iec104 with
  | .error _ => (s, [])
  | .ok objects =>
    let qoi := (objects.head?.map Prod.snd).getD .general
    if qoi = .general then respondInterrogationGeneral fp clock s
    else respondInterrogationGroup fp clock s (groupOf qoi)

/-- What the server answers to an ASDU, by its type. At the common address of the ASDU it
does not look. -/
def answerAsdu (a : Asdu) : DaemonState F32 F64 × List Bytes :=
  match a.typeId with
  | 100 => respondInterrogation fp clock s a
  | 101 => (s, echo C_CI_NA_1 a .activationCon s.coa)
  | 102 => (s, echo C_RD_NA_1 a ⟨5⟩ s.coa)
  | 103 => (s, echo C_CS_NA_1 a .activationCon s.coa)
  | 105 => (s, echo C_RP_NA_1 a .activationCon s.coa)
  | 45 => (s, handleCommandList C_SC_NA_1 a s.coa)
  | 46 => (s, handleCommandList C_DC_NA_1 a s.coa)
  | 47 => (s, handleCommandList C_RC_NA_1 a s.coa)
  | 48 => (s, handleCommandList C_SE_NA_1 a s.coa)
  | 49 => (s, handleCommandList C_SE_NB_1 a s.coa)
  | 50 => (s, handleCommandList C_SE_NC_1 a s.coa)
  | 58 => (s, handleCommandList C_SC_TA_1 a s.coa)
  | 61 => (s, handleCommandList C_SE_TA_1 a s.coa)
  | 62 => (s, handleCommandList C_SE_TB_1 a s.coa)
  | 63 => (s, handleCommandList C_SE_TC_1 a s.coa)
  | _ => (s, [])

/-- **What the server does with octets from a client** (`handle_incoming_asdu`). -/
def handleIncomingAsdu (bytes : Bytes) : DaemonState F32 F64 × List Bytes :=
  match (Asdu.decode .iec104).run bytes with
  | .ok (a, _) => answerAsdu fp clock s a
  | .error _ => (s, [])

theorem respondInterrogation_eq {a : Asdu} {ioa : Ioa} {qoi : Qoi}
    (h : a.decodePayload C_IC_NA_1 .iec104 = .ok [(ioa, qoi)]) :
    respondInterrogation fp clock s a = if qoi = .general then
      respondInterrogationGeneral fp clock s
      else respondInterrogationGroup fp clock s (groupOf qoi) := by
  rw [respondInterrogation, h]
  rfl

end Respond

end Server

namespace Client

variable {F32 F64 : Type} {fp : PointArith F32 F64}

/-- What the client does with octets from the server (the dispatch task of `run_daemon`). -/
def receive (fp : PointArith F32 F64) (st : DaemonState F32) (bytes : Bytes) :
    DaemonState F32 :=
  match (Asdu.decode .iec104).run bytes with
  | .ok (a, _) => (processAsdu st fp a).1
  | .error _ => st

/-- **What a client keeps of a point** that the server has. A normalized value has sixteen
bits on the way; single and double points have no overflow bit, and half of the kinds no time
tag. -/
def mirror (fp : PointArith F32 F64) (now : SystemTime) (entry : PointEntry F32) :
    CachedPoint F32 where
  value := match entry.value with
    | .normalized x => .normalized (nvaAsF32 fp (nvaFromF32 fp x))
    | .float x => .float (fp.ofBits32 (fp.toBits32 x))
    | value => value
  quality := match entry.value with
    | .single _ | .double _ => { entry.quality with overflow := false }
    | _ => entry.quality
  timestamp := match entry.kind with
    | .spTb | .dpTb | .meTd | .meTe | .meTf => some (nowCp56 now)
    | _ => none

/-! ## One ASDU at the client -/

/-- **An ASDU with one object is read back**, and so is the object. -/
theorem exists_single {E : Type} {T : Payload (List (Ioa × E))} {typeId : UInt8} {c : Codec E}
    (hT : T = ioPayload typeId c) {e : E} (he : c.Fits e) {ioa : UInt32}
    (hioa : ioa.toNat < 2 ^ 24) {cot : Cot} (hcot : cot.cause.raw < 64) (ca : CommonAddress) :
    ∃ a : Asdu, (Asdu.decode .iec104).run (encodeAsdu T [(⟨ioa⟩, e)] cot ca) = .ok (a, [])
      ∧ a.typeId = typeId ∧ a.decodePayload T .iec104 = .ok [(⟨ioa⟩, e)] := by
  subst hT
  have hfits : ListFits c (.single 1) .iec104 [(⟨ioa⟩, e)] :=
    ⟨rfl, List.forall_mem_singleton.mpr hioa, List.forall_mem_singleton.mpr he,
      fun h => by cases h⟩
  exact ⟨_, Asdu.run_decode_encode _ _ (show (1 : UInt8) ≤ 127 by decide)
    ⟨hcot, fun h => by cases h⟩ ca.raw.toNat_lt, rfl,
    Asdu.decodePayload_fromPayload _ _ _ _ _ _ hfits⟩

theorem objects_single {E : Type} {T : Payload (List (Ioa × E))} {a : Asdu} {ioa : UInt32} {e : E}
    {kind : PointKind} {read : E → PointValue F32 × QualityWire × Option Cp56Time2a}
    (h : a.decodePayload T .iec104 = .ok [(⟨ioa⟩, e)]) :
    objects T a kind read = [⟨⟨kind, ioa, (read e).1, (read e).2.1⟩, (read e).2.2⟩] := by
  rw [objects, h]
  rfl

section Report

variable {now : SystemTime} {ioa : UInt32} {entry : PointEntry F32} {cot : Cot}

variable (fp) in
/-- **The report of a point** is read back, and reports what is kept of the point. -/
theorem exists_report (htyped : entry.WellTyped) (hioa : ioa.toNat < 2 ^ 24)
    (hnow : (nowCp56 now).Fits) (hcot : cot.cause.raw < 64) (ca : CommonAddress) :
    ∃ bytes a, encodePoint fp now ioa entry cot ca = some bytes
      ∧ (Asdu.decode .iec104).run bytes = .ok (a, []) ∧ a.typeId = entry.kind.typeId
      ∧ observations fp a = [⟨⟨entry.kind, ioa, (mirror fp now entry).value,
        (mirror fp now entry).quality⟩, (mirror fp now entry).timestamp⟩] := by
  obtain ⟨kind, value, quality, schedule⟩ := entry
  have hexists {E : Type} {T : Payload (List (Ioa × E))} {typeId : UInt8} {c : Codec E} {e : E}
      {os : List (Observation F32)} (hT : T = ioPayload typeId c) (he : c.Fits e)
      (hos : ∀ a : Asdu, a.typeId = typeId →
        a.decodePayload T .iec104 = .ok [(⟨ioa⟩, e)] → observations fp a = os) :
      ∃ bytes a, some (encodeAsdu T [(⟨ioa⟩, e)] cot ca) = some bytes
        ∧ (Asdu.decode .iec104).run bytes = .ok (a, []) ∧ a.typeId = typeId
        ∧ observations fp a = os :=
    have ⟨a, hrun, htype, hpayload⟩ := exists_single hT he hioa hcot ca
    ⟨_, a, rfl, hrun, htype, hos a htype hpayload⟩
  cases kind <;> cases value <;> cases htyped
  -- every element has room for what it is given, a time tag since the clock has
  all_goals first
    | refine hexists rfl trivial ?_ | refine hexists rfl ⟨trivial, trivial⟩ ?_
    | refine hexists rfl ⟨trivial, hnow⟩ ?_ | refine hexists rfl ⟨trivial, trivial, hnow⟩ ?_
  all_goals
    intro a htype hpayload
    simp only [observations, htype]
    refine (objects_single hpayload).trans ?_
    -- the states of single and double points have names of their own on the way
    first | rfl | (rename_i state; cases state <;> rfl)

variable {a : Asdu} {bytes : Bytes} (st : DaemonState F32) (ca : CommonAddress)

theorem receive_of_run (h : (Asdu.decode .iec104).run bytes = .ok (a, [])) :
    receive fp st bytes = (processAsdu st fp a).1 := by
  rw [receive, h]

variable (fp) in
/-- A report goes to the cache. -/
theorem cache_receive_report (htyped : entry.WellTyped) (hioa : ioa.toNat < 2 ^ 24)
    (hnow : (nowCp56 now).Fits) (hcot : cot.cause.raw < 64) :
    ∃ bytes, encodePoint fp now ioa entry cot ca = some bytes ∧ (receive fp st bytes).cache
      = st.cache.insert (entry.kind, ioa) (mirror fp now entry) := by
  obtain ⟨bytes, a, hbytes, hrun, htype, hobs⟩ := exists_report fp htyped hioa hnow hcot ca
  have hterm : isTermination a = false := by
    rw [isTermination, htype]
    cases entry.kind <;> exact Bool.and_false _
  have hcon : isConfirmation a = false := by
    rw [isConfirmation, htype]
    cases entry.kind <;> exact Bool.and_false _
  refine ⟨bytes, hbytes, ?_⟩
  rw [receive_of_run st hrun, processAsdu, hterm, hcon, hobs]
  rfl

/-- What is said about an interrogation does not. -/
theorem cache_receive_interrogation {qoi : Qoi} (hcot : cot.cause.raw < 64) :
    (receive fp st (Server.encodeInterrogation qoi cot ca)).cache = st.cache := by
  have hzero : (0 : UInt32).toNat < 2 ^ 24 := by decide
  obtain ⟨a, hrun, htype, -⟩ := exists_single (T := C_IC_NA_1) (e := qoi) rfl trivial hzero hcot ca
  rw [Server.encodeInterrogation, receive_of_run st hrun, processAsdu,
    observations_of_mem (htype ▸ List.mem_cons_self)]
  split
  · rfl
  · split
    · split <;> rfl
    · rfl

end Report

/-! ## The copy of the image -/

/-- The points of an image are well typed, and their addresses fit an ASDU. -/
def Reportable (image : ProcessImage F32) : Prop :=
  ∀ ioa entry, image.get ioa = some entry → entry.WellTyped ∧ ioa.toNat < 2 ^ 24

section Mirror

variable {clock : UInt32 → SystemTime} (hclock : ∀ ioa, (nowCp56 (clock ioa)).Fits)
  {st : DaemonState F32} {p : Server.DaemonState F32 F64 × List Bytes} {cot : Cot}

include hclock

/-- One report: what is in the image at its address is in the cache. -/
theorem lookup_report (himage : Reportable p.1.image) (hcot : cot.cause.raw < 64)
    (ioa : UInt32) (key : PointKind × UInt32) :
    let r := Server.reportPoint fp clock cot p ioa
    r.1.image = p.1.image ∧ (r.2.foldl (receive fp) st).cache.lookup key
      = (((p.1.image.get key.2).filter fun entry => entry.kind = key.1 ∧ key.2 = ioa).map
        (mirror fp (clock key.2))).or ((p.2.foldl (receive fp) st).cache.lookup key) := by
  cases hget : p.1.image.get ioa with
  | none =>
    simp only [Server.reportPoint, hget, true_and]
    by_cases hkey : key.2 = ioa
    · simp [hkey, hget]
    · simp [hkey]
  | some entry =>
    obtain ⟨htyped, hioa⟩ := himage ioa entry hget
    obtain ⟨bytes, hbytes, hcache⟩ := cache_receive_report fp (p.2.foldl (receive fp) st) p.1.coa
      htyped hioa (hclock ioa) hcot
    simp only [Server.reportPoint, hget, hbytes, true_and, Option.toList_some,
      List.foldl_append, List.foldl_cons, List.foldl_nil, hcache]
    by_cases hkey : key = (entry.kind, ioa)
    · subst hkey
      simp [hget, Option.filter]
    · rw [AList.lookup_insert_ne hkey]
      by_cases hsame : key.2 = ioa
      · have hkind : entry.kind ≠ key.1 := fun h => hkey (Prod.ext h.symm hsame)
        simp [hsame, hget, hkind, Option.filter]
      · simp [hsame]

/-- **The reports of some addresses**, one after the other. -/
theorem lookup_reports (himage : Reportable p.1.image) (hcot : cot.cause.raw < 64)
    (ioas : List UInt32) (key : PointKind × UInt32) :
    let r := ioas.foldl (Server.reportPoint fp clock cot) p
    (r.2.foldl (receive fp) st).cache.lookup key
      = (((p.1.image.get key.2).filter fun entry => entry.kind = key.1 ∧ key.2 ∈ ioas).map
        (mirror fp (clock key.2))).or ((p.2.foldl (receive fp) st).cache.lookup key) := by
  induction ioas generalizing p with
  | nil => simp
  | cons ioa ioas ih =>
    obtain ⟨hsame, hstep⟩ := lookup_report hclock himage hcot ioa key
    refine (ih (hsame ▸ himage)).trans ?_
    rw [hsame, hstep]
    cases p.1.image.get key.2 with
    | none => rfl
    | some entry =>
      by_cases hkind : entry.kind = key.1 <;> by_cases hmem : key.2 ∈ ioas <;>
        simp [Option.filter, hkind, hmem]

variable {s : Server.DaemonState F32 F64} (himage : Reportable s.image)

include himage

/-- A whole answer, with what it says about the interrogation. -/
theorem lookup_answer (hcot : cot.cause.raw < 64) (ioas : List UInt32)
    {key : PointKind × UInt32} {asked : Prop} [Decidable asked]
    (hmem : ∀ entry, s.image.get key.2 = some entry → entry.kind = key.1 →
      (key.2 ∈ ioas ↔ asked)) {qoi : Qoi} {ca : CommonAddress} :
    let r := ioas.foldl (Server.reportPoint fp clock cot)
      (s, [Server.encodeInterrogation qoi (.of .activationCon) s.coa])
    ((r.2 ++ [Server.encodeInterrogation qoi (.of .activationTermination) ca]).foldl
        (receive fp) st).cache.lookup key
      = (((s.image.get key.2).filter fun entry => entry.kind = key.1 ∧ asked).map
        (mirror fp (clock key.2))).or (st.cache.lookup key) := by
  intro r
  rw [List.foldl_append]
  refine (congrArg (AList.lookup key) (cache_receive_interrogation _ _ (by decide))).trans ?_
  refine (lookup_reports hclock himage hcot ioas key).trans ?_
  rw [List.foldl_cons, List.foldl_nil, cache_receive_interrogation _ _ (by decide)]
  cases hentry : s.image.get key.2 with
  | none => rfl
  | some entry =>
    have hiff := and_congr_right (hmem entry hentry)
    simp only [Option.filter, hiff]

/-- **An interrogation copies the image.** Whatever a client has in its cache, and whichever
qualifier it asks with: when it has received all that the server answers, the points of the
image that it asked for are in the cache as `mirror` says, and the rest is as it was. -/
theorem interrogation_mirrors (st : DaemonState F32) (qoi : Qoi) (ca : UInt16)
    (key : PointKind × UInt32) :
    let r := Server.handleIncomingAsdu fp clock s
      (encodeAsdu C_IC_NA_1 [(⟨0⟩, qoi)] (.of .activation) ⟨ca⟩)
    (r.2.foldl (receive fp) st).cache.lookup key
      = (((s.image.get key.2).filter fun entry =>
          entry.kind = key.1 ∧ Server.Asks qoi key.1).map (mirror fp (clock key.2))).or
        (st.cache.lookup key) := by
  have hzero : (0 : UInt32).toNat < 2 ^ 24 := by decide
  have hcause : (Cot.of .activation).cause.raw < 64 := by decide
  obtain ⟨a, hrun, htype, hpayload⟩ := exists_single (T := C_IC_NA_1) (e := qoi) rfl trivial hzero
    hcause ⟨ca⟩
  simp only [Server.handleIncomingAsdu, hrun, Server.answerAsdu, htype,
    Server.respondInterrogation_eq fp clock s hpayload]
  by_cases hq : qoi = .general
  · rw [if_pos hq]
    have hcot : (Cot.of .interrogatedGeneral).cause.raw < 64 := by decide
    refine lookup_answer hclock himage hcot _ ?_
    exact fun entry hentry _ => iff_of_true (ProcessImage.mem_sortedIoas.mpr ⟨entry, hentry⟩)
      (.inl hq)
  · rw [if_neg hq, Server.respondInterrogationGroup]
    cases hkind : Server.kindForGroup (Server.groupOf qoi) with
    | none =>
      refine lookup_answer hclock himage hcause [] ?_
      intro entry _ _
      simp [Server.Asks, hq, hkind]
    | some kind =>
      refine lookup_answer hclock himage (Server.cause_of_isSome _ (hkind ▸ rfl)) _ ?_
      intro entry hentry hkey
      have hmem : key.2 ∈ Server.sortedIoasOf s kind ↔ entry.kind = kind := by
        simp [Server.sortedIoasOf, ProcessImage.mem_sortedIoas, hentry]
      rw [hmem, Server.Asks, or_iff_right hq, hkind, hkey, Option.some.injEq, eq_comm]

end Mirror

/-- A client asks for the group 2, the double points; there is one at 204. -/
theorem interrogation_mirrors_double :
    let s : Server.DaemonState Deadband.ExtRat Deadband.ExtRat :=
      ⟨.insert .new 204 (.new Exact.arith .dpNa .none), .new, [], List.nodup_nil, false, ⟨1⟩⟩
    let r := Server.handleIncomingAsdu Exact.arith (fun _ => .unixEpoch) s
      (encodeAsdu C_IC_NA_1 [(⟨0⟩, .group 2)] (.of .activation) ⟨1⟩)
    (r.2.foldl (receive Exact.arith) (.new 1)).cache.lookup (.dpNa, 204)
      = some ⟨.double .off, {}, none⟩ := by
  have hclock : nowCp56 .unixEpoch = ⟨0, 0, 0, 1, 4, 1, 70, false, false, false⟩ := by
    decide +kernel
  refine (interrogation_mirrors (fun _ => ?_) (fun ioa entry hentry => ?_) _ _ 1 _).trans ?_
  · rw [hclock]
    exact ⟨by decide, by decide, by decide, by decide, by decide, by decide⟩
  · obtain rfl : ioa = 204 := by
      by_contra hne
      rw [ProcessImage.get_insert_of_ne hne] at hentry
      cases hentry
    rw [ProcessImage.get_insert] at hentry
    cases hentry
    exact ⟨rfl, by decide⟩
  · rfl

end Client
