import Iec60870.FileTransferFailure
import Iec60870.FileTransferFetch
import Iec60870.FileTransferReceiver

/-!
# Chunks and segments

A sender reads its file in chunks and sends each as a segment. It adds every chunk to
the checksum and to the byte count as it comes from the reader, and the last section
and the completion report what has been added up. But a segment has one octet for
its length, and the codec cuts what is longer (`received_segment`): what was added up
is then not what is on the wire.

A reader is asked for no more than 255 octets, and its documentation says that a longer
chunk is truncated. Nothing truncates it before it is counted. `Transfer` is what can
be seen of a session from outside, the chunks that were read and the octets that went
on the wire, and `transfer_adds_up` says when the two numbers that the sender reports
are those of the wire.
-/

namespace FileTransfer

open Iec60870 Machine Session

variable {π ρ ω : Type} {chunks : List Bytes} {ca : CommonAddress} {m : Bytes}

/-! ## Cut chunks -/

/-- The part of the chunks that fits their segments. -/
def onWire (chunks : List Bytes) : Bytes := chunks.flatMap (List.take maxSegmentBytes)

/-- **The part of the chunks that does not fit their segments.** -/
def cutOff (chunks : List Bytes) : Bytes := chunks.flatMap (List.drop maxSegmentBytes)

/-- The checksum of some octets. -/
def checksum (data : Bytes) : Checksum := Checksum.zero.updateSlice data

theorem onWire_snoc (chunks : List Bytes) (chunk : Bytes) :
    onWire (chunks ++ [chunk]) = onWire chunks ++ chunk.take maxSegmentBytes := by
  rw [onWire, List.flatMap_append, List.flatMap_singleton]
  rfl

theorem cutOff_snoc (chunks : List Bytes) (chunk : Bytes) :
    cutOff (chunks ++ [chunk]) = cutOff chunks ++ chunk.drop maxSegmentBytes := by
  rw [cutOff, List.flatMap_append, List.flatMap_singleton]
  rfl

theorem raw_updateSlice (c : Checksum) (data : Bytes) :
    (c.updateSlice data).raw = c.raw + (checksum data).raw := by
  have h (data : Bytes) : ∀ x : UInt8, data.foldl (· + ·) x = x + data.foldl (· + ·) 0 := by
    induction data with
    | nil => exact fun x => (UInt8.add_zero x).symm
    | cons d data ih =>
      intro x
      rw [List.foldl_cons, List.foldl_cons, ih, ih (0 + d), UInt8.zero_add, UInt8.add_assoc]
  exact h data c.raw

/-- The checksum of octets that follow one another. -/
theorem raw_of_append (a b : Bytes) :
    (checksum (a ++ b)).raw = (checksum a).raw + (checksum b).raw := by
  rw [← raw_updateSlice]
  exact List.foldl_append

/-- **The checksum of the chunks** is that of the two parts together. -/
theorem raw_checksumOf (chunks : List Bytes) : (checksumOf chunks).raw
      = (checksum (onWire chunks)).raw + (checksum (cutOff chunks)).raw := by
  induction chunks using List.reverseRecOn with
  | nil => rfl
  | append_singleton chunks chunk ih =>
    have hchunk := raw_of_append (chunk.take maxSegmentBytes) (chunk.drop maxSegmentBytes)
    rw [List.take_append_drop] at hchunk
    rw [checksumOf_concat, raw_updateSlice, ih, hchunk, onWire_snoc, cutOff_snoc,
      raw_of_append, raw_of_append]
    grind

/-- **The checksum is that of the wire exactly if what is cut off adds up to
nothing.** -/
theorem checksumOf_eq_iff (chunks : List Bytes) : checksumOf chunks = checksum (onWire chunks)
      ↔ checksum (cutOff chunks) = Checksum.zero := by
  have hraw := raw_checksumOf chunks
  constructor
  · intro h
    rw [h] at hraw
    have hz : (checksum (cutOff chunks)).raw = 0 := by grind
    exact congrArg Checksum.mk hz
  · intro h
    rw [h] at hraw
    exact congrArg Checksum.mk (hraw.trans (UInt8.add_zero _))

/-- The octets of the chunks are those of the two parts. -/
theorem length_flatten_eq (chunks : List Bytes) :
    chunks.flatten.length = (onWire chunks).length + (cutOff chunks).length := by
  induction chunks with
  | nil => rfl
  | cons chunk chunks ih =>
    have hchunk := congrArg List.length (List.take_append_drop maxSegmentBytes chunk)
    rw [List.length_append] at hchunk
    rw [onWire, cutOff, List.flatten_cons, List.flatMap_cons, List.flatMap_cons,
      List.length_append, List.length_append, List.length_append, ← onWire, ← cutOff, ih]
    omega

theorem saturatingAdd_zero (a : UInt32) : saturatingAdd a 0 = a := by
  rw [← UInt32.toNat_inj, toNat_saturatingAdd_eq_min]
  exact Nat.min_eq_left (Nat.le_sub_one_of_lt a.toNat_lt)

/-- **The count of the chunks** stops at the largest number it can have. -/
theorem toNat_bytesOf (h : ∀ c ∈ chunks, c.length < 2 ^ 32) :
    (bytesOf chunks).toNat = min chunks.flatten.length (2 ^ 32 - 1) := by
  induction chunks using List.reverseRecOn with
  | nil => rfl
  | append_singleton chunks chunk ih =>
    rw [List.forall_mem_append, List.forall_mem_singleton] at h
    rw [bytesOf_concat, toNat_saturatingAdd_eq_min, ih h.1, UInt32.toNat_ofNat_of_lt' h.2,
      List.flatten_append, List.flatten_singleton, List.length_append]
    omega

/-- Where nothing is cut off the chunks are short. -/
theorem length_le_of_cutOff (h : cutOff chunks = []) {c : Bytes}
    (hc : c ∈ chunks) : c.length ≤ maxSegmentBytes :=
  List.drop_eq_nil_iff.mp (List.flatMap_eq_nil_iff.mp h c hc)

/-- If nothing is cut off, the count is that of the wire. -/
theorem bytesOf_eq_of_cutOff (h : cutOff chunks = []) (hlen : (onWire chunks).length < 2 ^ 32) :
    (bytesOf chunks).toNat = (onWire chunks).length := by
  have hall := length_flatten_eq chunks
  rw [h, List.length_nil, Nat.add_zero] at hall
  rw [toNat_bytesOf fun c hc => lt_of_le_of_lt (length_le_of_cutOff h hc) (by decide), hall]
  exact Nat.min_eq_left (Nat.le_sub_one_of_lt hlen)

/-- If the count is that of the wire and below its limit, nothing is cut off. -/
theorem cutOff_of_bytesOf_eq (h : ∀ c ∈ chunks, c.length < 2 ^ 32)
    (heq : (bytesOf chunks).toNat = (onWire chunks).length)
    (hlen : (onWire chunks).length < 2 ^ 32 - 1) : cutOff chunks = [] := by
  have hall := length_flatten_eq chunks
  rw [toNat_bytesOf h, hall] at heq
  exact List.length_eq_zero_iff.mp (by omega)

/-! ## What can be seen of a transfer -/

/-- The data of a segment as it is received. -/
def segmentData (m : Bytes) : Bytes :=
  ((received m).bind SessionInput.segment?).getD []

/-- The checksum of an input that ends a section. -/
def SessionInput.checksum? : SessionInput → Option Checksum
  | .lastSection asdu => some asdu.chs
  | _ => none

/-- The checksum of a last section as it is received. -/
def sentChecksum (m : Bytes) : Option Checksum := (received m).bind SessionInput.checksum?

/-- **The octets of a last section**: the first of them is the type identification. -/
def IsLastSection (m : Bytes) : Prop := m.head? = some F_LS_NA_1.payload.typeId

/-- **What can be seen of a session**: its role, the chunks that were read for it, and
the data of its segments on the wire. -/
structure Transfer where
  role : Option Role
  chunks : List Bytes
  wire : Bytes
deriving DecidableEq

namespace Transfer

/-- What an effect adds. A new session starts from nothing. -/
def next (t : Transfer) : Effect → Transfer
  | .started role => ⟨some role, [], []⟩
  | .read (.ok (some chunk)) => { t with chunks := t.chunks ++ [chunk] }
  | .command m => { t with wire := t.wire ++ segmentData m }
  | _ => t

/-- **The last session** of a key. -/
def last (es : List Effect) : Transfer := es.foldl next ⟨none, [], []⟩

theorem last_append (es fs : List Effect) : last (es ++ fs) = fs.foldl next (last es) :=
  List.foldl_append

end Transfer

/-- The part of an action that will be on the wire. -/
def SessionAction.data : SessionAction → Bytes
  | .sendSegment asdu => asdu.segment.take maxSegmentBytes
  | _ => []

/-- The data in an ASDU is that of its action. -/
theorem segmentData_message {x : SessionAction}
    (h : message ca x = some m) : segmentData m = x.data := by
  -- an ASDU of another type is received as such, if it is received
  have hother {Q : Type} {T : Payload Q} (mk : Q → SessionInput) (p : Q)
      (ht : ∀ asdu : Asdu, asdu.typeId = T.typeId → decodeFtAsdu asdu
          = (asdu.decodePayload T AsduAddressing.iec104).toOption.map mk)
      (hmk : ∀ q, (mk q).segment? = none) : segmentData (send T ca p) = [] := by
    rw [segmentData, received_send mk ht]
    cases (Asdu.decodePayload _ _ _).toOption with
    | none => rfl
    | some q =>
      show ((mk q).segment?).getD [] = []
      rw [hmk]
      rfl
  cases x with
  | sendSegment asdu =>
    cases h
    rw [segmentData, received_segment]
    rfl
  | sendFileReady asdu =>
    cases h
    exact hother .fileReady asdu (fun asdu ht => by rw [decodeFtAsdu, ht]; rfl) fun _ => rfl
  | sendSectionReady asdu =>
    cases h
    exact hother .sectionReady asdu (fun asdu ht => by rw [decodeFtAsdu, ht]; rfl) fun _ => rfl
  | sendSelectCall asdu =>
    cases h
    exact hother .selectCall asdu (fun asdu ht => by rw [decodeFtAsdu, ht]; rfl) fun _ => rfl
  | sendLastSection asdu =>
    cases h
    exact hother .lastSection asdu (fun asdu ht => by rw [decodeFtAsdu, ht]; rfl) fun _ => rfl
  | sendAckFile asdu =>
    cases h
    exact hother .ackFile asdu (fun asdu ht => by rw [decodeFtAsdu, ht]; rfl) fun _ => rfl
  | _ => cases h

/-! ## Sessions -/

namespace SessionAction

/-- The actions that report what has been added up. -/
def isTotal : SessionAction → Bool
  | .sendLastSection _ | .completed _ => true
  | _ => false

/-- **The action reports what has been read**, and all of it is on the wire. -/
def Settles (t : Transfer) : SessionAction → Prop
  | .sendLastSection asdu => t.wire = onWire t.chunks
      ∧ asdu.chs = checksumOf t.chunks ∧ asdu.lsq = .fileWithoutDeactivate
  | .completed bytes => t.wire = onWire t.chunks ∧ bytes = bytesOf t.chunks
  | _ => True

theorem settles_of_not_isTotal {t : Transfer} {x : SessionAction} (h : x.isTotal = false) :
    x.Settles t := by
  cases x with
  | sendLastSection | completed => cases h
  | _ => trivial

end SessionAction

/-- The data that a queue will put on the wire. -/
def owed (q : List SessionAction) : Bytes := q.flatMap SessionAction.data

/-- **A sender that has added up what was read**, with what is left of its queue. A
chunk is asked for at the end of a queue, and a total is reported at its beginning, so
that nothing is read or sent between the two. -/
structure Session.AddsUp (t : Transfer) (s : Session) (q : List SessionAction) : Prop where
  fresh : s.state = .idle ∨ s.state = .txAwaitSelect ∨ s.state = .txAwaitRequest →
    t.chunks = [] ∧ t.wire = []
  asks : ∀ x ∈ q, x.isRequest = true → s.isTerminal = true ∨ s.state = .txSendingSegments
  order : s.isTerminal = false → ∀ x ∈ q.dropLast, x.isRequest = false
  checksum : s.isTerminal = false → s.sectionChecksum = checksumOf t.chunks
  bytes : s.isTerminal = false → s.bytesTransferred = bytesOf t.chunks
  wire : s.isTerminal = false → t.wire ++ owed q = onWire t.chunks
  head : ∀ x ∈ q.head?, x.Settles t
  tail : ∀ x ∈ q.tail, x.isTotal = false

/-- What is read with a chunk. -/
structure Transfer.Takes (t : Transfer) (chunk : Bytes) (t' : Transfer) : Prop where
  role : t'.role = t.role
  checksum : checksumOf t'.chunks = (checksumOf t.chunks).updateSlice chunk
  bytes : bytesOf t'.chunks = saturatingAdd (bytesOf t.chunks) (UInt32.ofNat chunk.length)
  chunks : onWire t'.chunks = onWire t.chunks ++ chunk.take maxSegmentBytes
  wire : t'.wire = t.wire

theorem Transfer.takes_chunk (t : Transfer) (chunk : Bytes) :
    t.Takes chunk { t with chunks := t.chunks ++ [chunk] } :=
  ⟨rfl, checksumOf_concat _ _, bytesOf_concat _ _, onWire_snoc _ _, rfl⟩

/-- The end of the file adds nothing. -/
theorem Transfer.takes_nil (t : Transfer) : t.Takes [] t where
  role := rfl
  checksum := rfl
  bytes := (saturatingAdd_zero _).symm
  chunks := (List.append_nil _).symm
  wire := rfl

namespace Session

section AddsUp

variable {s : Session} {t t' : Transfer} {q : List SessionAction} {x : SessionAction}

/-- Early on a session is not over. -/
theorem live_of_fresh (h : s.state = .idle ∨ s.state = .txAwaitSelect ∨ s.state = .txAwaitRequest) :
    s.isTerminal = false := by
  unfold isTerminal
  obtain h | h | h := h <;> rw [h]

/-- **The head of the queue is done**: what it puts on the wire is on the wire. -/
theorem AddsUp.sent (h : s.AddsUp t (x :: q)) : s.AddsUp { t with wire := t.wire ++ x.data } q where
  fresh hst := by
    obtain ⟨hchunks, hwire⟩ := h.fresh hst
    have hw := h.wire (live_of_fresh hst)
    rw [hchunks, owed, List.flatMap_cons] at hw
    have hnil := List.append_eq_nil_iff.mp hw
    exact ⟨hchunks, List.append_eq_nil_iff.mpr ⟨hwire, (List.append_eq_nil_iff.mp hnil.2).1⟩⟩
  asks y hy := h.asks y (List.mem_cons_of_mem x hy)
  order hlive y hy := by
    refine h.order hlive y ?_
    rw [List.dropLast_cons_of_ne_nil (List.ne_nil_of_mem (List.mem_of_mem_dropLast hy))]
    exact List.mem_cons_of_mem x hy
  checksum := h.checksum
  bytes := h.bytes
  wire hlive := by
    rw [← h.wire hlive, List.append_assoc]
    rfl
  head y hy := SessionAction.settles_of_not_isTotal (h.tail y (List.mem_of_mem_head? hy))
  tail y hy := h.tail y (List.mem_of_mem_tail hy)

/-- Another timer. -/
theorem AddsUp.timer (h : s.AddsUp t q) (progress : Option Instant) (actions : List SessionAction) :
    AddsUp t { s with lastProgress := progress, actions := actions } q :=
  ⟨h.fresh, h.asks, h.order, h.checksum, h.bytes, h.wire, h.head, h.tail⟩

/-- A session that is over has no more to add up. -/
theorem AddsUp.of_terminal (hover : s.isTerminal = true)
    (hhead : ∀ x ∈ q.head?, x.Settles t) (htail : ∀ x ∈ q.tail, x.isTotal = false) :
    s.AddsUp t q := by
  have hlive {p : Prop} (h : s.isTerminal = false) : p :=
    absurd (h.symm.trans hover) (by decide)
  exact ⟨fun hst => hlive (live_of_fresh hst), fun _ _ _ => Or.inl hover, hlive, hlive, hlive,
    hlive, hhead, htail⟩

/-- The session fails. -/
theorem AddsUp.fail (h : s.AddsUp t q) (reason : FailureReason) (actions : List SessionAction) :
    AddsUp t { s with state := .failed, actions := actions } (q ++ [.failed reason]) := by
  refine .of_terminal rfl (fun y hy => ?_) fun y hy => ?_
  · cases q with
    | nil =>
      cases hy
      trivial
    | cons x q => exact h.head y hy
  · cases q with
    | nil => cases hy
    | cons x q =>
      obtain hy | hy := List.mem_append.mp hy
      · exact h.tail y hy
      · rw [List.mem_singleton.mp hy]
        rfl

/-- Before anything is read. -/
theorem AddsUp.of_fresh (hchunks : t.chunks = []) (hwire : t.wire = [])
    (hc : s.sectionChecksum = Checksum.zero) (hb : s.bytesTransferred = 0)
    (howed : owed q = []) (horder : ∀ x ∈ q.dropLast, x.isRequest = false)
    (hasks : ∀ x ∈ q, x.isRequest = true → s.state = .txSendingSegments)
    (htotal : ∀ x ∈ q, x.isTotal = false) : s.AddsUp t q where
  fresh _ := ⟨hchunks, hwire⟩
  asks x hx hr := Or.inr (hasks x hx hr)
  order _ := horder
  checksum _ := by rw [hc, hchunks]; rfl
  bytes _ := by rw [hb, hchunks]; rfl
  wire _ := by rw [hwire, howed, hchunks]; rfl
  head x hx := SessionAction.settles_of_not_isTotal (htotal x (List.mem_of_mem_head? hx))
  tail x hx := htotal x (List.mem_of_mem_tail hx)

/-- A chunk has been taken. -/
theorem AddsUp.of_chunk (hst : s.state = .txSendingSegments)
    (hc : s.sectionChecksum = checksumOf t.chunks) (hb : s.bytesTransferred = bytesOf t.chunks)
    {asdu : F_SG_NA_1} (hwire : t.wire ++ asdu.segment.take maxSegmentBytes = onWire t.chunks)
    (k : ℕ) : s.AddsUp t [.sendSegment asdu, .requestNextSegment k] where
  fresh hst' := by simp [hst] at hst'
  asks _ _ _ := Or.inr hst
  order _ := by simp
  checksum _ := hc
  bytes _ := hb
  wire _ := by
    rw [← hwire]
    simp [owed, SessionAction.data]
  head x hx := by
    cases hx
    trivial
  tail := by simp [SessionAction.isTotal]

/-- The end of the file has been reached. -/
theorem AddsUp.of_eof (hst : s.state = .txAwaitAck)
    (hc : s.sectionChecksum = checksumOf t.chunks) (hb : s.bytesTransferred = bytesOf t.chunks)
    (hwire : t.wire = onWire t.chunks) {asdu : F_LS_NA_1} (hchs : asdu.chs = s.sectionChecksum)
    (hlsq : asdu.lsq = .fileWithoutDeactivate) : s.AddsUp t [.sendLastSection asdu] where
  fresh hst' := by simp [hst] at hst'
  asks := by simp
  order _ := by simp
  checksum _ := hc
  bytes _ := hb
  wire _ := (List.append_nil _).trans hwire
  head x hx := by
    cases hx
    exact ⟨hwire, hchs.trans hc, hlsq⟩
  tail := by simp

section Input

variable (hr : s.role = .sender) (hactions : s.actions = []) (hlive : s.isTerminal = false)
  (now : Instant) {input : SessionInput} {k : ℕ} {chunk : Bytes}

include hr hactions hlive

/-- **An input that is no chunk**, at the end of the queue. -/
theorem AddsUp.onInput (h : s.AddsUp t []) (hi : ∀ data, input ≠ .segmentReady data) :
    (s.onInput input now).AddsUp t (s.onInput input now).actions := by
  have hwire : t.wire = onWire t.chunks := by
    rw [← h.wire hlive, owed, List.flatMap_nil, List.append_nil]
  -- a session that has not been asked for its file has added up nothing
  have hzero (hst : s.state = .idle ∨ s.state = .txAwaitSelect ∨ s.state = .txAwaitRequest) :
      s.sectionChecksum = Checksum.zero ∧ s.bytesTransferred = 0 := by
    rw [h.checksum hlive, h.bytes hlive, (h.fresh hst).1]
    exact ⟨rfl, rfl⟩
  have hc := course_onInput hlive input now
  generalize s.onInput input now = d at hc ⊢
  cases hc with
  | ignore h' =>
    rw [hactions]
    exact h
  | refuse hf reason hp =>
    rw [hactions]
    exact (h.fail reason [.failed reason]).timer _ _
  | announce length _ hst =>
    obtain ⟨hchunks, hwire⟩ := h.fresh (.inl hst)
    obtain ⟨hc, hb⟩ := hzero (.inl hst)
    rw [hactions]
    exact .of_fresh hchunks hwire hc hb rfl (by simp) (by simp) (by simp [SessionAction.isTotal])
  | selected asdu _ hst ha =>
    have hst : s.state = .idle ∨ s.state = .txAwaitSelect ∨ s.state = .txAwaitRequest :=
      hst.imp_right .inl
    obtain ⟨hchunks, hwire⟩ := h.fresh hst
    obtain ⟨hc, hb⟩ := hzero hst
    rw [hactions]
    exact .of_fresh hchunks hwire hc hb rfl (by simp) (by simp) (by simp [SessionAction.isTotal])
  | requested asdu _ hst ha =>
    obtain ⟨hchunks, hwire⟩ := h.fresh (.inr (.inr hst))
    rw [hactions]
    cases s.awaitingProvider with
    | true | false =>
      exact .of_fresh hchunks hwire rfl rfl rfl (by simp) (by simp)
        (by simp [SessionAction.isTotal])
  | acked asdu _ hst ha =>
    rw [hactions]
    refine .of_terminal rfl ?_ (by simp)
    rintro x ⟨⟩
    exact ⟨hwire, h.bytes hlive⟩
  | chunk data _ hst hd => exact absurd rfl (hi data)
  | eof _ hst => exact absurd rfl (hi [])
  | select length hr' | fileReady asdu hr' | sectionReady asdu hr' | segment asdu hr'
  | last asdu hr' | mismatch asdu hr' => exact absurd (hr'.symm.trans hr) (by decide)

/-- **A chunk**, at the end of the queue. -/
theorem AddsUp.onChunk (h : s.AddsUp t [.requestNextSegment k])
    (ht : t.Takes chunk t') : (s.onInput (.segmentReady chunk) now).AddsUp t'
      (s.onInput (.segmentReady chunk) now).actions := by
  have hst : s.state = .txSendingSegments :=
    (h.asks _ (List.mem_singleton_self _) rfl).resolve_left (by rw [hlive]; decide)
  have hwire : t'.wire = onWire t.chunks := by
    rw [ht.wire, ← h.wire hlive]
    exact (List.append_nil _).symm
  have hc := course_onInput hlive (.segmentReady chunk) now
  generalize hin : SessionInput.segmentReady chunk = input at hc
  generalize s.onInput input now = d at hc ⊢
  cases hc with
  | ignore h' =>
    subst hin
    exact absurd (of_decide_eq_true h') (by simp [hr, hst])
  | refuse hf reason hp =>
    subst hin
    exact absurd hf (by simp [fits, hr, hst])
  | chunk data _ _ hd =>
    cases hin
    rw [hactions]
    refine .of_chunk ?_ ?_ ?_ ?_ _
    · exact hst
    · rw [ht.checksum, ← h.checksum hlive]
    · rw [ht.bytes, ← h.bytes hlive]
    · rw [ht.chunks, hwire]
  | eof _ _ =>
    cases hin
    rw [hactions]
    refine .of_eof rfl ?_ ?_ ?_ rfl rfl
    · rw [ht.checksum, ← h.checksum hlive]
      rfl
    · rw [ht.bytes, ← h.bytes hlive]
      exact (saturatingAdd_zero _).symm
    · rw [ht.chunks, hwire]
      exact (List.append_nil _).symm
  | _ => cases hin

omit hlive in
/-- **A call of the session** with an input that is no chunk. -/
theorem AddsUp.step (h : s.AddsUp t []) (hi : ∀ data, input ≠ .segmentReady data) :
    (s.step (input, now)).1.AddsUp t (s.step (input, now)).2 :=
  step_rule s (input, now) (fun _ => h) (fun hlive => h.onInput hr hactions hlive now hi)
    (fun _ progress hd => hd.timer progress []) fun _ hd => hd.fail .timeout []

omit hlive in
/-- **A call of the session** with a chunk that it has asked for. -/
theorem AddsUp.take (h : s.AddsUp t (.requestNextSegment k :: q))
    (ht : t.Takes chunk t') : (s.step (.segmentReady chunk, now)).1.AddsUp t'
      (q ++ (s.step (.segmentReady chunk, now)).2) := by
  refine step_rule (M := fun d q' => d.AddsUp t' (q ++ q')) s (.segmentReady chunk, now)
    (fun hover => ?_) (fun hlive => ?_) (fun d progress hd => hd.timer progress [])
    fun d hd => ?_
  · rw [List.append_nil]
    refine .of_terminal hover (fun x hx => ?_) fun x hx => h.tail x (List.mem_of_mem_tail hx)
    exact SessionAction.settles_of_not_isTotal (h.tail x (List.mem_of_mem_head? hx))
  · have hq : q = [] := by
      by_contra hq
      have hreq := h.order hlive (.requestNextSegment k)
      rw [List.dropLast_cons_of_ne_nil hq] at hreq
      cases hreq List.mem_cons_self
    subst hq
    exact h.onChunk hr hactions hlive now ht
  · rw [← List.append_assoc]
    exact hd.fail .timeout []

end Input

end AddsUp

/-- A receiver sends no last section. -/
theorem lastSection_notMem_step {s : Session} (hr : s.role = .receiver)
    (hactions : s.actions = []) (i : SessionInput × Instant) (asdu : F_LS_NA_1) :
    .sendLastSection asdu ∉ (s.step i).2 := by
  refine step_rule (M := fun _ q => .sendLastSection asdu ∉ q) s i (fun _ => List.not_mem_nil)
    (fun hlive => ?_) (fun _ _ hd => hd) fun d hd => by simpa using hd
  have hc := course_onInput hlive i.1 i.2
  generalize i.1 = input at hc ⊢
  generalize s.onInput input i.2 = d at hc ⊢
  cases hc with
  | eof hr' | requested asdu hr' => exact absurd (hr'.symm.trans hr) (by decide)
  | _ => simp [hactions]

end Session

/-! ## Threads -/

/-- **The thread of a key adds up** what can be seen of its session. -/
structure Thread.AddsUp (x : Transfer) (t : Thread ρ ω) : Prop where
  session : ∀ active, t.entry = some active →
    active.session.actions = [] ∧ x.role = some active.session.role
  sender : ∀ active, t.entry = some active → active.session.role = .sender →
    active.session.AddsUp x t.queue
  other : (∀ active, t.entry = some active → active.session.role = .receiver) →
    ∀ asdu, .sendLastSection asdu ∉ t.queue

namespace Thread.AddsUp

variable {config : FileTransferConfig} {key : Key} {x : Transfer} {q : List SessionAction}
  {active active' : ActiveSession ρ ω} {a : SessionAction}

theorem of_none (hq : ∀ asdu, .sendLastSection asdu ∉ q) : AddsUp x (⟨none, q⟩ : Thread ρ ω) :=
  ⟨fun _ h => (by cases h), fun _ h => (by cases h), fun _ => hq⟩

theorem of_sender (hactions : active.session.actions = []) (hx : x.role = some .sender)
    (hr : active.session.role = .sender) (h : active.session.AddsUp x q) :
    AddsUp x ⟨some active, q⟩ where
  session a ha := by
    cases ha
    exact ⟨hactions, by rw [hx, hr]⟩
  sender a ha _ := by
    cases ha
    exact h
  other hall := absurd (hr.symm.trans (hall active rfl)) (by decide)

theorem of_receiver (hactions : active.session.actions = []) (hx : x.role = some .receiver)
    (hr : active.session.role = .receiver) (hq : ∀ asdu, .sendLastSection asdu ∉ q) :
    AddsUp x ⟨some active, q⟩ where
  session a ha := by
    cases ha
    exact ⟨hactions, by rw [hx, hr]⟩
  sender a ha hr' := by
    cases ha
    exact absurd (hr'.symm.trans hr) (by decide)
  other _ := hq

/-- A receiver that has been opened has made its first step. -/
theorem of_newReceiver (nof : NameOfFile) (i : SessionInput × Instant) (writer : Option ω)
    (reply : Option ℕ) : AddsUp ⟨some .receiver, [], []⟩
      (⟨some ⟨((Session.new .receiver nof config.sessionConfig).step i).1, none, writer, reply⟩,
        ((Session.new .receiver nof config.sessionConfig).step i).2⟩ : Thread ρ ω) :=
  .of_receiver (actions_step rfl i) rfl (settings_step _ i).1 (lastSection_notMem_step rfl rfl i)

/-- A sender that has been opened announces its file, if it asks for anything. -/
theorem of_newSender (length : UInt32) (now : Instant) (reader : Option ρ)
    (reply : Option ℕ) (hq : ∀ y ∈ q, ∃ asdu, y = .sendFileReady asdu) :
    AddsUp ⟨some .sender, [], []⟩
      (⟨some ⟨(Thread.sender config key.2 length now).1, reader, none, reply⟩, q⟩ :
        Thread ρ ω) := by
  refine .of_sender rfl rfl rfl (.of_fresh rfl rfl rfl rfl ?_ ?_ ?_ ?_)
  · refine List.flatMap_eq_nil_iff.mpr fun y hy => ?_
    obtain ⟨asdu, rfl⟩ := hq y hy
    rfl
  · intro y hy
    obtain ⟨asdu, rfl⟩ := hq y (List.mem_of_mem_dropLast hy)
    rfl
  · intro y hy hreq
    obtain ⟨asdu, rfl⟩ := hq y hy
    cases hreq
  · intro y hy
    obtain ⟨asdu, rfl⟩ := hq y hy
    rfl

/-- There is no last section behind the head of a queue. -/
theorem lastSection_notMem_tail {entry : Option (ActiveSession ρ ω)}
    (h : AddsUp x ⟨entry, a :: q⟩) (asdu : F_LS_NA_1) :
    .sendLastSection asdu ∉ q := by
  intro hmem
  have hmem' : .sendLastSection asdu ∈ a :: q := List.mem_cons_of_mem a hmem
  cases entry with
  | none => exact h.other (fun _ ha => (by cases ha)) asdu hmem'
  | some active =>
    cases hr : active.session.role with
    | sender => cases (h.sender active rfl hr).tail _ hmem
    | receiver =>
      refine h.other (fun a ha => ?_) asdu hmem'
      cases ha
      exact hr

/-- The head of the queue is done, and the session stays as it is. -/
theorem sent (h : AddsUp x ⟨some active, a :: q⟩) (hactive : active'.session = active.session) :
    AddsUp { x with wire := x.wire ++ a.data } ⟨some active', q⟩ := by
  obtain ⟨hactions, hx⟩ := h.session active rfl
  cases hr : active.session.role with
  | sender =>
    rw [hr] at hx
    refine of_sender (by rw [hactive, hactions]) hx (by rw [hactive, hr]) ?_
    rw [hactive]
    exact (h.sender active rfl hr).sent
  | receiver =>
    rw [hr] at hx
    exact of_receiver (by rw [hactive, hactions]) hx (by rw [hactive, hr]) h.lastSection_notMem_tail

/-- The head of the queue is done and puts nothing on the wire. -/
theorem done (h : AddsUp x ⟨some active, a :: q⟩)
    (hactive : active'.session = active.session) (ha : a.data = []) :
    AddsUp x ⟨some active', q⟩ := by
  have hsent := h.sent hactive
  rw [ha, List.append_nil] at hsent
  exact hsent

/-- A session with a first queue is stepped. -/
theorem step_session {input : SessionInput}
    (h : AddsUp x ⟨some active, []⟩) (hi : ∀ data, input ≠ .segmentReady data)
    (now : Instant) :
    AddsUp x ⟨some { active with session := (active.session.step (input, now)).1 },
      (active.session.step (input, now)).2⟩ := by
  obtain ⟨hactions, hx⟩ := h.session active rfl
  have hactions' := actions_step hactions (input, now)
  have hrole := (settings_step active.session (input, now)).1
  cases hr : active.session.role with
  | sender =>
    rw [hr] at hx hrole
    exact of_sender hactions' hx hrole ((h.sender active rfl hr).step hr hactions now hi)
  | receiver =>
    rw [hr] at hx hrole
    exact of_receiver hactions' hx hrole (lastSection_notMem_step hr hactions _)

/-- The session is given a chunk that it has asked for. -/
theorem take {maxBytes : ℕ}
    (h : AddsUp x ⟨some active, .requestNextSegment maxBytes :: q⟩) {chunk : Bytes}
    {x' : Transfer} (ht : x.Takes chunk x') (now : Instant) {reader : Option ρ} :
    AddsUp x' ⟨some { active with
        session := (active.session.step (.segmentReady chunk, now)).1, reader := reader },
      q ++ (active.session.step (.segmentReady chunk, now)).2⟩ := by
  obtain ⟨hactions, hx⟩ := h.session active rfl
  rw [← ht.role] at hx
  have hactions' := actions_step hactions (.segmentReady chunk, now)
  have hrole := (settings_step active.session (.segmentReady chunk, now)).1
  cases hr : active.session.role with
  | sender =>
    rw [hr] at hx hrole
    exact of_sender hactions' hx hrole ((h.sender active rfl hr).take hr hactions now ht)
  | receiver =>
    rw [hr] at hx hrole
    refine of_receiver hactions' hx hrole fun asdu hmem => ?_
    obtain hmem | hmem := List.mem_append.mp hmem
    · exact h.lastSection_notMem_tail asdu hmem
    · exact lastSection_notMem_step hr hactions _ asdu hmem

end Thread.AddsUp

section Perform

variable (P : Provider π ρ ω) (key : Key) (world : π) (now : Instant) (x : Transfer)

/-- **What is read is taken**: the session is given the chunk that can be seen. -/
theorem takes_read {chunk : Bytes} {result : Except FileTransferError (Option Bytes)}
    (h : result = .ok (some chunk) ∨ chunk = [] ∧ ∀ c, result ≠ .ok (some c)) :
    x.Takes chunk (x.next (.read result)) := by
  obtain rfl | ⟨rfl, hnone⟩ := h
  · exact x.takes_chunk chunk
  · -- an error is the end of the file
    have hnext : x.next (.read result) = x := by
      unfold Transfer.next
      split <;> simp_all
    rw [hnext]
    exact x.takes_nil

variable {P key world now x} {entry : Option (ActiveSession ρ ω)} {a : SessionAction}

theorem Thread.AddsUp.perform
    {q : List SessionAction} (h : Thread.AddsUp x ⟨entry, a :: q⟩) :
    Thread.AddsUp ((FileTransfer.perform P key entry world a now).effects.foldl Transfer.next x)
      ⟨(FileTransfer.perform P key entry world a now).entry,
        q ++ (FileTransfer.perform P key entry world a now).extra⟩ := by
  cases entry with
  | none =>
    obtain ⟨asdu, hp⟩ := perform_none P key world now a
    rw [hp, List.append_nil]
    exact .of_none h.lastSection_notMem_tail
  | some active =>
    have hp := performs P key active world now a
    generalize FileTransfer.perform P key (some active) world a now = p at hp ⊢
    cases hp with
    | send hsend =>
      rw [List.append_nil]
      cases hm : message key.1 a with
      | none =>
        refine h.done rfl ?_
        cases a <;> first | rfl | cases hm
      | some m =>
        have hsent : Thread.AddsUp { x with wire := x.wire ++ a.data } ⟨some active, q⟩ :=
          h.sent rfl
        rw [← segmentData_message hm] at hsent
        exact hsent
    | noReader | noWriter | write =>
      rw [List.append_nil]
      exact h.done rfl rfl
    | read maxBytes hreader hr chunk hnext hchunk =>
      subst hnext
      exact h.take (takes_read x hchunk) now
    | finish | finalize =>
      rw [List.append_nil]
      exact .of_none h.lastSection_notMem_tail

/-- A completion is reported when it is performed. -/
theorem completed_of_perform {bytes : UInt32}
    (h : .finished (.completed bytes) ∈ (perform P key entry world a now).effects) :
    ∃ active, entry = some active ∧ a = .completed bytes := by
  cases entry with
  | none =>
    obtain ⟨asdu, hp⟩ := perform_none P key world now a
    simp [hp] at h
  | some active =>
    refine ⟨active, rfl, ?_⟩
    have hp := performs P key active world now a
    generalize perform P key (some active) world a now = p at hp h
    cases hp with
    | finish hfinal outcome hw houtcome | finalize hfinal outcome hw hr houtcome =>
      obtain rfl : outcome = .completed bytes := by simpa [told, eq_comm] using h
      cases a with
      | completed => exact congrArg _ (FileTransferOutcome.completed.inj (Option.some.inj houtcome))
      | _ => cases houtcome
    | _ => simp at h

end Perform

/-- **A step of a thread** adds up. -/
theorem Thread.AddsUp.step {P : Provider π ρ ω} {config : FileTransferConfig} {key : Key}
    {x : Transfer} {t t' : Thread ρ ω} {heard : Option SessionInput} {es : List Effect}
    (h : t.AddsUp x) (hstep : Thread.Step P config key t heard es t') :
    t'.AddsUp (es.foldl Transfer.next x) := by
  cases hstep with
  | refuse t caller e => exact h
  | fetch writer caller now hr | announced writer fr now hfr hr =>
    subst hr
    exact .of_newReceiver _ _ _ _
  | push reader caller length now hr =>
    subst hr
    exact .of_newSender length now _ _ (List.forall_mem_singleton.mpr ⟨_, rfl⟩)
  | selected reader sc length now hr =>
    subst hr
    have hnew : Thread.AddsUp ⟨some .sender, [], []⟩
        (⟨some ⟨(Thread.sender config key.2 length now).1, some reader, none, none⟩, []⟩ :
          Thread ρ ω) :=
      .of_newSender length now _ _ (List.forall_mem_nil _)
    exact hnew.step_session (fun _ => by rintro ⟨⟩) now
  | halfSelected reader length now =>
    exact .of_newSender length now _ _ (List.forall_mem_nil _)
  | hear active input now hi hr =>
    subst hr
    obtain ⟨asdu, hi⟩ := hi
    refine h.step_session (fun data hd => ?_) now
    exact decodeFtAsdu_ne_segmentReady asdu data (hd ▸ hi)
  | tick active now hr =>
    subst hr
    exact h.step_session (fun _ => by rintro ⟨⟩) now
  | perform entry action queue world now hp =>
    subst hp
    exact h.perform

/-- Only a last section has its type identification. -/
theorem lastSection_of_message {a : SessionAction}
    (hm : message ca a = some m) (hlast : IsLastSection m) :
    ∃ asdu, a = .sendLastSection asdu := by
  cases a with
  | sendLastSection asdu => exact ⟨asdu, rfl⟩
  | _ => cases hm <;> cases hlast

section Totals

variable {P : Provider π ρ ω} {config : FileTransferConfig} {key : Key} {x : Transfer}
  {t t' : Thread ρ ω} {heard : Option SessionInput} {es : List Effect}

/-- **A last section** carries the checksum of what was read. -/
theorem Thread.AddsUp.lastSection (h : t.AddsUp x)
    (hstep : Thread.Step P config key t heard es t') {m : Bytes} (hm : .command m ∈ es)
    (hlast : IsLastSection m) :
    sentChecksum m = some (checksumOf x.chunks) ∧ x.wire = onWire x.chunks := by
  cases hstep with
  | perform entry a q world now hp =>
    subst hp
    have hm := message_of_perform hm
    obtain ⟨asdu, rfl⟩ := lastSection_of_message hm hlast
    cases hm
    cases entry with
    | none => exact absurd List.mem_cons_self (h.other (fun _ ha => (by cases ha)) asdu)
    | some active =>
      cases hr : active.session.role with
      | receiver =>
        refine absurd List.mem_cons_self (h.other (fun a ha => ?_) asdu)
        cases ha
        exact hr
      | sender =>
        obtain ⟨hwire, hchs, hlsq⟩ := (h.sender active rfl hr).head _ rfl
        refine ⟨?_, hwire⟩
        rw [sentChecksum, received_lastSection key.1 asdu (by rw [hlsq]; trivial), ← hchs]
        rfl
  | _ => simp at hm

/-- **A completion** carries the count of what was read. -/
theorem Thread.AddsUp.completed (h : t.AddsUp x)
    (hstep : Thread.Step P config key t heard es t') (hx : x.role = some .sender)
    {bytes : UInt32} (hc : .finished (.completed bytes) ∈ es) :
    bytes = bytesOf x.chunks ∧ x.wire = onWire x.chunks := by
  cases hstep with
  | perform entry a q world now hp =>
    subst hp
    obtain ⟨active, rfl, rfl⟩ := completed_of_perform hc
    have hr := (h.session active rfl).2
    rw [hx] at hr
    exact ((h.sender active rfl (Option.some.inj hr).symm).head _ rfl).symm
  | _ => simp at hc

end Totals

/-! ## Runs -/

section Run

variable {P : Provider π ρ ω} {world : π} {config : FileTransferConfig}
  {h : List (ServiceCall π ρ ω)} {s : Service π ρ ω}

theorem addsUp_of_run (r : Run Service.step (.init P world config) h s) (key : Key) :
    (s.thread key).AddsUp (Transfer.last (effectsAt key (effects h))) := by
  refine thread_invariant r key (I := fun es t => t.AddsUp (Transfer.last es)) ?_ ?_
  · exact .of_none fun asdu => List.not_mem_nil
  · intro es t heard es' t' hadd hstep
    rw [Transfer.last_append]
    exact hadd.step hstep

/-- **The totals of a sender are those of the wire if no chunk is cut.** For every
provider, every run of the service and every turn:

- the checksum of a last section that is sent is that of the data on the wire if and only
  if what was cut off from the chunks adds up to nothing;
- the count of a completed sender is the number of octets on the wire, if there are fewer
  than `2 ^ 32` of them and nothing was cut off; and if the two numbers agree, nothing was
  cut off, unless the count has reached its limit or a chunk is beyond it. -/
theorem transfer_adds_up (r : Run Service.step (.init P world config) h s)
    (i : ServiceInput × Instant) (key : Key) :
    let t := Transfer.last (effectsAt key (effects h))
    (∀ m, (key, .command m) ∈ (s.step i).2 → IsLastSection m →
      ∃ chs, sentChecksum m = some chs
        ∧ (chs = checksum t.wire ↔ checksum (cutOff t.chunks) = Checksum.zero))
    ∧ ∀ bytes, t.role = some .sender → (key, .finished (.completed bytes)) ∈ (s.step i).2 →
      (cutOff t.chunks = [] → t.wire.length < 2 ^ 32 → bytes.toNat = t.wire.length)
      ∧ (bytes.toNat = t.wire.length → t.wire.length < 2 ^ 32 - 1 →
        (∀ c ∈ t.chunks, c.length < 2 ^ 32) → cutOff t.chunks = []) := by
  intro t
  have hadd := addsUp_of_run r key
  obtain ⟨-, hes, -⟩ | hstep := thread_step s i key
  · -- nothing happens to the session of the key
    have hnone (e : Effect) : (key, e) ∉ (s.step i).2 := fun he => by
      have he := mem_effectsAt he
      rw [hes] at he
      cases he
    exact ⟨fun m hm => absurd hm (hnone _), fun bytes _ hc => absurd hc (hnone _)⟩
  · refine ⟨fun m hm hlast => ?_, fun bytes hrole hc => ?_⟩
    · obtain ⟨hsent, hwire⟩ := hadd.lastSection hstep (mem_effectsAt hm) hlast
      refine ⟨_, hsent, ?_⟩
      rw [hwire]
      exact checksumOf_eq_iff _
    · obtain ⟨hbytes, hwire⟩ := hadd.completed hstep hrole (mem_effectsAt hc)
      rw [hbytes, hwire]
      exact ⟨bytesOf_eq_of_cutOff, fun heq hlen hall => cutOff_of_bytesOf_eq hall heq hlen⟩

end Run

instance (m : Bytes) : Decidable (IsLastSection m) :=
  inferInstanceAs (Decidable (_ = _))

/-- The peer fetches a file of one chunk: its last section is sent in the tenth turn, and the
transfer is completed in the last one. -/
def servesChunk (chunk : Bytes) (turns : ℕ) :
    List (ServiceCall Script Unit Unit) × Service Script Unit Unit :=
  exec Service.step
    (.init (scripted (UInt32.ofNat chunk.length)) ⟨[.ok (some chunk)], [], []⟩ .default)
    (servedFile.take turns)

/-- The transfer of the peer's file. -/
def servedTransfer (chunk : Bytes) (turns : ℕ) : Transfer :=
  Transfer.last (effectsAt (⟨1⟩, ⟨7⟩) (effects (servesChunk chunk turns).1))

/-- The last section that is sent with a checksum. -/
def lastSectionOf (chs : Checksum) : Bytes :=
  send F_LS_NA_1.payload ⟨1⟩ ⟨⟨0⟩, ⟨7⟩, ⟨1⟩, .fileWithoutDeactivate, chs⟩

/-- A chunk of one octet is not cut. -/
theorem transfer_adds_up_oneOctet : (((⟨1⟩, ⟨7⟩), .command (lastSectionOf ⟨42⟩))
        ∈ ((servesChunk [42] 9).2.step (.run none, 0)).2
      ∧ ∃ chs, sentChecksum (lastSectionOf ⟨42⟩) = some chs
        ∧ chs = checksum (servedTransfer [42] 9).wire)
    ∧ ((⟨1⟩, ⟨7⟩), .finished (.completed 1)) ∈ ((servesChunk [42] 12).2.step (.run none, 0)).2
      ∧ (1 : UInt32).toNat = (servedTransfer [42] 12).wire.length := by
  have hm : ((⟨1⟩, ⟨7⟩), .command (lastSectionOf ⟨42⟩))
      ∈ ((servesChunk [42] 9).2.step (.run none, 0)).2 := by
    decide +kernel
  have hc : ((⟨1⟩, ⟨7⟩), .finished (.completed 1))
      ∈ ((servesChunk [42] 12).2.step (.run none, 0)).2 := by
    decide +kernel
  refine ⟨⟨hm, ?_⟩, hc, ?_⟩
  · obtain ⟨chs, hchs, hiff⟩ :=
      (transfer_adds_up (run_exec _ _ (servedFile.take 9)) _ _).1 _ hm (by decide)
    exact ⟨chs, hchs, hiff.mpr (by decide +kernel)⟩
  · refine ((transfer_adds_up (run_exec _ _ (servedFile.take 12)) _ _).2 1 ?_ hc).1 ?_ ?_
    · decide +kernel
    · decide +kernel
    · decide +kernel

/-- **A chunk of 256 octets**: the last section has the checksum of all of them, and so
has the completion their number, but there are 255 of them on the wire. -/
theorem transfer_cut_longChunk : (((⟨1⟩, ⟨7⟩), .command (lastSectionOf ⟨0⟩))
        ∈ ((servesChunk (List.replicate 256 1) 9).2.step (.run none, 0)).2
      ∧ sentChecksum (lastSectionOf ⟨0⟩) = some ⟨0⟩
      ∧ checksum (servedTransfer (List.replicate 256 1) 9).wire = ⟨255⟩)
    ∧ ((⟨1⟩, ⟨7⟩), .finished (.completed 256))
        ∈ ((servesChunk (List.replicate 256 1) 12).2.step (.run none, 0)).2
      ∧ (servedTransfer (List.replicate 256 1) 12).role = some .sender
      ∧ (servedTransfer (List.replicate 256 1) 12).wire.length = 255 :=
  ⟨⟨by decide +kernel, by decide +kernel, by decide +kernel⟩, by decide +kernel,
    by decide +kernel, by decide +kernel⟩

end FileTransfer
