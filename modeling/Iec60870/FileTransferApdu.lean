import Iec60870.FileTransferThread
import Iec60870.Frame104Codec

/-!
# Segments and APDUs

An APDU has room for an ASDU of 249 octets. The service puts fourteen octets
in front of the data of a segment: the header of the ASDU, the object
address, the names of the file and of the section, and the length. How much
data there is, is decided by the session, which asks the reader for a chunk
of `max_segment_bytes`, but of at least one and at most 255 octets – the
limit of the length octet, not the one of the APDU. With chunks of more than
235 octets, and the default is 240, the codec of the APDUs refuses what the
service hands to the driver.

Everything else the service sends is short, so that `asdus_fit_iff` is about
all of its ASDUs.
-/

namespace FileTransfer

open Iec60870 Machine

variable {π ρ ω : Type}

/-! ## How long the ASDUs are -/

/-- The octets of a segment in front of its data. -/
def segmentOverhead : ℕ := 14

/-- The longest of the other ASDUs. -/
def otherAsduLen : ℕ := 17

/-- The longest chunk that the sessions of a service ask for. -/
def FileTransferConfig.chunkLimit (c : FileTransferConfig) : ℕ :=
  min (max c.maxSegmentBytes 1) Iec60870.maxSegmentBytes

/-- **An action keeps to a limit**: what it asks the reader for, and what it
sends in a segment. -/
def SessionAction.Within (limit : ℕ) : SessionAction → Prop
  | .requestNextSegment maxBytes => maxBytes ≤ limit
  | .sendSegment asdu => asdu.segment.length ≤ limit
  | _ => True

/-- The data of a segment is cut to what its length octet can say. -/
theorem length_send_segment (ca : CommonAddress) (asdu : F_SG_NA_1)
    (h : asdu.segment.length ≤ maxSegmentBytes) :
    (send F_SG_NA_1.payload ca asdu).length = asdu.segment.length + segmentOverhead := by
  show (asdu.segment.take _).length + 14 = asdu.segment.length + 14
  have h255 : asdu.segment.length ≤ 255 := h
  rw [List.length_take, min_eq_left h, UInt8.toNat_ofNat', Nat.mod_eq_of_lt (by omega), min_self]

/-- What an action within a limit puts on the wire. -/
theorem length_message {ca : CommonAddress} {x : SessionAction} {asdu : Bytes}
    {limit : ℕ} (hlimit : limit ≤ maxSegmentBytes) (hx : x.Within limit)
    (h : message ca x = some asdu) :
    asdu.length ≤ max otherAsduLen (limit + segmentOverhead) := by
  cases x with
  | sendFileReady p =>
    cases h
    rw [show (send F_FR_NA_1.payload ca p).length = 15 from rfl]
    exact le_max_of_le_left (by decide)
  | sendSectionReady p =>
    cases h
    rw [show (send F_SR_NA_1.payload ca p).length = 17 from rfl]
    exact le_max_of_le_left (by decide)
  | sendSelectCall p =>
    cases h
    rw [show (send F_SC_NA_1.payload ca p).length = 14 from rfl]
    exact le_max_of_le_left (by decide)
  | sendLastSection p =>
    cases h
    rw [show (send F_LS_NA_1.payload ca p).length = 15 from rfl]
    exact le_max_of_le_left (by decide)
  | sendAckFile p =>
    cases h
    rw [show (send F_AF_NA_1.payload ca p).length = 14 from rfl]
    exact le_max_of_le_left (by decide)
  | sendSegment p =>
    cases h
    rw [length_send_segment ca p (le_trans hx hlimit)]
    exact le_max_of_le_right (Nat.add_le_add_right hx _)
  | _ => cases h

/-! ## What a session asks for and sends -/

namespace Session

/-- **A session of a service** with these parameters, between two calls. -/
structure Of (c : FileTransferConfig) (s : Session) : Prop where
  config : s.config = c.sessionConfig
  actions : s.actions = []

theorem of_new (role : Role) (nof : NameOfFile) (c : FileTransferConfig) :
    (Session.new role nof c.sessionConfig).Of c := ⟨rfl, rfl⟩

section Step

variable {s : Session} {c : FileTransferConfig}

/-- An input leaves the parameters alone, and asks for and sends no more than
the limit, if the reader keeps to it. -/
theorem within_onInput (hs : s.Of c) (hlive : s.isTerminal = false)
    (input : SessionInput) (now : Instant)
    (hi : ∀ data, input = .segmentReady data → data.length ≤ c.chunkLimit) :
    (s.onInput input now).config = c.sessionConfig
      ∧ ∀ x ∈ (s.onInput input now).actions, x.Within c.chunkLimit := by
  have hc := course_onInput hlive input now
  have hlimit : s.chunkLimit = c.chunkLimit := by
    rw [chunkLimit, hs.config]
    rfl
  generalize s.onInput input now = d at hc ⊢
  cases hc with
  | ignore h =>
    rw [hs.actions]
    exact ⟨hs.config, fun x hx => absurd hx List.not_mem_nil⟩
  | requested asdu hr hst ha =>
    refine ⟨hs.config, ?_⟩
    rw [hs.actions, hlimit, List.nil_append, List.forall_mem_cons]
    refine ⟨trivial, ?_⟩
    split
    · exact fun x hx => absurd hx List.not_mem_nil
    · exact List.forall_mem_singleton.mpr (le_refl c.chunkLimit)
  | chunk data hr hst hd =>
    refine ⟨hs.config, ?_⟩
    rw [hs.actions, hlimit, List.nil_append, List.forall_mem_cons, List.forall_mem_singleton]
    exact ⟨hi data rfl, le_refl c.chunkLimit⟩
  | _ =>
    refine ⟨hs.config, ?_⟩
    simp [hs.actions, SessionAction.Within]

/-- **One call of a session** of a service keeps to the limit. -/
theorem within_step (hs : s.Of c) (i : SessionInput × Instant)
    (hi : ∀ data, i.1 = .segmentReady data → data.length ≤ c.chunkLimit) :
    (s.step i).1.Of c ∧ ∀ x ∈ (s.step i).2, x.Within c.chunkLimit := by
  have hstep : (s.step i).1.config = c.sessionConfig
      ∧ ∀ x ∈ (s.step i).2, x.Within c.chunkLimit := by
    refine step_rule (M := fun d q => d.config = c.sessionConfig
      ∧ ∀ x ∈ q, x.Within c.chunkLimit) s i ?_ ?_ ?_ ?_
    · exact fun _ => ⟨hs.config, List.forall_mem_nil _⟩
    · exact fun hlive => within_onInput hs hlive i.1 i.2 hi
    · exact fun d progress hd => hd
    · rintro d ⟨hconfig, hq⟩
      exact ⟨hconfig, List.forall_mem_append.mpr ⟨hq, List.forall_mem_singleton.mpr trivial⟩⟩
  exact ⟨⟨hstep.1, actions_step hs.actions i⟩, hstep.2⟩

end Step

end Session

/-! ## What the service sends -/

/-- **Readers return no more than they are asked for.** -/
def Provider.Bounded (P : Provider π ρ ω) : Prop :=
  ∀ reader maxBytes world chunk, (P.readSegment reader maxBytes world).1.1 = .ok (some chunk) →
      chunk.length ≤ maxBytes

/-- The commands of a service that keeps to its limit. -/
def SentWithin (c : FileTransferConfig) (es : List Effect) : Prop :=
  ∀ asdu, .command asdu ∈ es → asdu.length ≤ max otherAsduLen (c.chunkLimit + segmentOverhead)

/-- Effects that send nothing. -/
theorem sentWithin_of_quiet {c : FileTransferConfig} {es : List Effect}
    (h : ∀ asdu, .command asdu ∉ es) : SentWithin c es :=
  fun asdu ha => absurd ha (h asdu)

theorem SentWithin.append {c : FileTransferConfig} {es fs : List Effect}
    (hes : SentWithin c es) (hfs : SentWithin c fs) : SentWithin c (es ++ fs) :=
  fun asdu ha => (List.mem_append.mp ha).elim (hes asdu) (hfs asdu)

/-- A thread keeps to the limit. -/
abbrev Thread.Within (c : FileTransferConfig) (t : Thread ρ ω) : Prop :=
  t.Keeps (Session.Of c) (SessionAction.Within c.chunkLimit)

section Run

variable {P : Provider π ρ ω} {world : π} {c : FileTransferConfig}

/-- What holds of the effects and the thread of a key. -/
def Within (c : FileTransferConfig) (es : List Effect) (t : Thread ρ ω) : Prop :=
  SentWithin c es ∧ t.Within c

/-- **Every step of a thread keeps to the limit.** -/
theorem Within.step (hP : P.Bounded) {key : Key} {es es' : List Effect}
    {t t' : Thread ρ ω} {heard : Option SessionInput} (ht : Within c es t)
    (hstep : Thread.Step P c key t heard es' t') : Within c (es ++ es') t' := by
  obtain ⟨hes, ht⟩ := ht
  refine ⟨hes.append fun asdu hasdu => ?_, ?_⟩
  · cases hstep with
    | perform entry action queue world now hp =>
      subst hp
      have hx := ht.queue action List.mem_cons_self
      exact length_message (min_le_right _ _) hx (message_of_perform hasdu)
    | _ => simp at hasdu
  · -- the one input that carries a chunk comes from the reader
    refine ht.step_of_first
      (G := fun input => ∀ data, input = .segmentReady data → data.length ≤ c.chunkLimit)
      (fun s i hs hi => s.within_step hs i hi) ?_ (fun input hne data h => absurd h (hne data))
      (fun role input now _ hopens => ?_) hstep
    · rintro n reader world chunk hn hchunk _ ⟨⟩
      obtain hchunk | rfl := hchunk
      · exact le_trans (hP reader n world chunk hchunk) hn
      · exact Nat.zero_le _
    · refine Session.within_step (Session.of_new role key.2 c) _ ?_
      rintro data rfl
      cases role <;> cases hopens

/-- **What the service sends**, in every run: nothing longer than a segment of
its limit, or than the other ASDUs. -/
theorem length_of_sent (hP : P.Bounded) {h : List (ServiceCall π ρ ω)}
    {s : Service π ρ ω} (r : Run Service.step (.init P world c) h s) {key : Key}
    {asdu : Bytes} (ha : (key, .command asdu) ∈ effects h) :
    asdu.length ≤ max otherAsduLen (c.chunkLimit + segmentOverhead) := by
  have hw : Within c (effectsAt key (effects h)) (s.thread key) :=
    thread_invariant (I := Within c) r key
      ⟨sentWithin_of_quiet (by simp), (fun _ h => nomatch h), List.forall_mem_nil _⟩
      fun ht hstep => ht.step hP hstep
  exact hw.1 asdu (mem_effectsAt ha)

end Run

/-! ## What fits an APDU -/

/-- **An ASDU fits an APDU**: the codec takes it, whatever the numbers. -/
def FitsApdu (asdu : Bytes) : Prop :=
  asdu.length ≤ Frame104.Codec.MAX_ASDU_LEN
    ∧ ∀ send recv, ∃ octets, Frame104.Codec.encode (.i send recv asdu) = .ok octets

theorem fitsApdu_iff (asdu : Bytes) :
    FitsApdu asdu ↔ asdu.length ≤ Frame104.Codec.MAX_ASDU_LEN := by
  refine ⟨fun h => h.1, fun h => ⟨h, fun send recv => ?_⟩⟩
  rw [Frame104.Codec.encode, if_neg (not_lt.mpr h)]
  exact ⟨_, rfl⟩

/-! ## A segment on its way -/

section Pump

/-- A sender that gets a chunk sends it. -/
theorem Session.step_chunk {s : Session} (hactions : s.actions = [])
    (hrole : s.role = .sender) (hstate : s.state = .txSendingSegments)
    {data : Bytes} (hd : data ≠ []) (now : Instant) :
    ∃ rest, (s.step (.segmentReady data, now)).2
      = .sendSegment ⟨s.config.ioa, s.nof, ⟨1⟩, data⟩ :: rest := by
  have hlive : s.isTerminal = false := by rw [isTerminal, hstate]
  have hinput : ∃ rest, (s.onInput (.segmentReady data) now).actions
      = .sendSegment ⟨s.config.ioa, s.nof, ⟨1⟩, data⟩ :: rest := by
    have hc := course_onInput hlive (.segmentReady data) now
    generalize s.onInput (.segmentReady data) now = d at hc ⊢
    cases hc with
    | ignore h =>
      refine absurd (of_decide_eq_true h) ?_
      rw [hrole, hstate]
      decide
    | refuse hf =>
      refine absurd hf ?_
      rw [fits, hrole, hstate]
      decide
    | chunk _ _ _ _ => exact ⟨_, by rw [hactions]; rfl⟩
    | eof _ _ => exact absurd rfl hd
  obtain ⟨rest, hrest⟩ := hinput
  obtain ⟨progress, hstep⟩ | hstep := step_cases hlive (.segmentReady data, now)
  · exact ⟨rest, by rw [hstep, hrest]⟩
  · exact ⟨rest ++ [.failed .timeout], by rw [hstep, hrest]; rfl⟩

/-- **A chunk is on its way in two turns**: the one that reads it, and the one
that sends it. -/
theorem command_of_pump {s : Service π ρ ω} {key : Key} {maxBytes : ℕ} {now : Instant}
    {active : ActiveSession ρ ω} {reader : ρ} {chunk : Bytes}
    (hw : s.work = some ⟨key, [.requestNextSegment maxBytes], [], now⟩)
    (he : s.sessions.lookup key = some active) (hreader : active.reader = some reader)
    (hread : (s.provider.readSegment reader maxBytes s.world).1.1 = .ok (some chunk))
    (hchunk : chunk ≠ []) (hactions : active.session.actions = [])
    (hrole : active.session.role = .sender)
    (hstate : active.session.state = .txSendingSegments) :
    (key, .command (send F_SG_NA_1.payload key.1
        ⟨active.session.config.ioa, active.session.nof, ⟨1⟩, chunk⟩))
      ∈ ((s.step (.run none, now)).1.step (.run none, now)).2 := by
  obtain ⟨rest, hrest⟩ :=
    Session.step_chunk hactions hrole hstate hchunk now
  have hextra : (perform s.provider key (s.sessions.lookup key) s.world
      (.requestNextSegment maxBytes) now).extra
        = .sendSegment ⟨active.session.config.ioa, active.session.nof, ⟨1⟩, chunk⟩ :: rest := by
    rw [he, ← hrest]
    unfold perform pumpReader
    dsimp only
    rw [hreader]
    dsimp only
    rw [hread]
  rw [step_of_work _ hw]
  have hwork : (s.onWork ⟨key, [.requestNextSegment maxBytes], [], now⟩ now).1.work
      = some ⟨key, .sendSegment ⟨active.session.config.ioa, active.session.nof, ⟨1⟩,
        chunk⟩ :: rest, [], now⟩ := by
    rw [← hextra]
    exact work_resume _ (by rw [hextra]; exact List.cons_ne_nil _ _)
  rw [step_of_work _ hwork]
  exact List.mem_singleton_self _

end Pump

/-- A provider with a large file: a reader returns 236 octets, if it may. -/
def largeFile : Provider Unit Unit Unit where
  lookup _ _ := (.ok (some ⟨236⟩), ())
  openRead _ _ := (.ok (), ())
  openWrite _ _ _ := (.ok (), ())
  readSegment _ maxBytes _ :=
    ((.ok (some ((List.replicate 236 0).take maxBytes)), ()), ())
  writeSegment _ _ _ := ((.ok (), ()), ())
  finalize _ _ _ := (.ok (), ())

theorem bounded_largeFile : largeFile.Bounded := by
  rintro reader maxBytes world chunk ⟨⟩
  exact List.length_take_le maxBytes _

/-- A call of the peer for the file. -/
def scAsdu (action : ScqAction) : Asdu :=
  Asdu.fromPayload F_SC_NA_1.payload (Cot.of Cause.fileTransfer) ⟨1⟩ (Vsq.single 1)
    ⟨⟨0⟩, ⟨7⟩, ⟨0⟩, Scq.of action 0⟩ AsduAddressing.iec104

/-- The peer selects the file and requests it; the service has announced the
section and is about to read. -/
def selectsLarge : List (ServiceInput × Instant) :=
  [(.route ⟨1⟩ (scAsdu .selectFile), 0), (.run none, 0), (.run none, 0),
    (.route ⟨1⟩ (scAsdu .requestFile), 0), (.run none, 0), (.run none, 0)]

/-- The service with its session for the file, about to read or not. -/
def serving (m : ℕ) (state : SessionState) (reads : Bool) : Service Unit Unit Unit :=
  ⟨largeFile, (), ⟨m, 1, 1, 0⟩, AList.singleton (⟨1⟩, ⟨7⟩) ⟨⟨.sender, ⟨7⟩, state, ⟨m, 1, ⟨0⟩⟩,
    236, 236, 0, Checksum.zero, some 0, reads, []⟩, some (), none, none⟩, [], [],
    if reads then some ⟨(⟨1⟩, ⟨7⟩), [.requestNextSegment (min (max m 1) 255)], [], 0⟩ else none⟩

theorem exec_large (m : ℕ) : (exec Service.step (.init largeFile () ⟨m, 1, 1, 0⟩) selectsLarge).2
      = serving m .txSendingSegments true := by
  have hselected : (exec Service.step (.init largeFile () ⟨m, 1, 1, 0⟩) (selectsLarge.take 3)).2
      = serving m .txAwaitRequest false := rfl
  rw [← List.take_append_drop 3 selectsLarge, exec_append, hselected]
  rfl

/-- **A service whose chunks may be longer than 235 octets** sends an ASDU that
is too long. -/
theorem exists_too_long {m : ℕ} (hm : 235 < m) :
    ∃ h s, Run Service.step (.init largeFile () ⟨m, 1, 1, 0⟩) h s
      ∧ ∃ asdu, ((⟨1⟩, ⟨7⟩), .command asdu) ∈ effects h ∧ asdu.length = 250 := by
  have r := run_exec Service.step (.init largeFile () ⟨m, 1, 1, 0⟩) selectsLarge
  rw [exec_large] at r
  have hread : (largeFile.readSegment () (min (max m 1) 255) ()).1.1
      = .ok (some (List.replicate 236 0)) := by
    show Except.ok (some (List.take _ _)) = _
    rw [List.take_of_length_le]
    rw [List.length_replicate]
    omega
  have hsent := command_of_pump (s := serving m .txSendingSegments true)
    rfl rfl rfl hread nofun rfl rfl rfl
  have hlength : (List.replicate 236 (0 : UInt8)).length ≤ maxSegmentBytes := by
    rw [List.length_replicate]
    decide
  refine ⟨_, _, (r.snoc (.run none, 0)).snoc (.run none, 0), _,
    by rw [effects_snoc]; exact List.mem_append_right _ hsent, ?_⟩
  rw [length_send_segment _ _ hlength, List.length_replicate]
  rfl

/-- **What the service sends fits an APDU exactly if its chunks are at most 235
octets long.** Whatever the files, as long as readers return no more than they
are asked for, whatever the other parameters and in every run, every ASDU that
the service hands to the driver is taken by the codec of the APDUs, if
`max_segment_bytes` is at most 235; with any other value there is a run in
which one is not. -/
theorem asdus_fit_iff (m : ℕ) :
    (∀ (π ρ ω : Type) (P : Provider π ρ ω) (world : π) (c : FileTransferConfig)
        (h : List (ServiceCall π ρ ω)) (s : Service π ρ ω),
        P.Bounded → c.maxSegmentBytes = m → Run Service.step (.init P world c) h s →
        ∀ key asdu, (key, .command asdu) ∈ effects h → FitsApdu asdu) ↔ m ≤ 235 := by
  constructor
  · intro hfits
    by_contra hm
    obtain ⟨h, s, r, asdu, ha, hlength⟩ := exists_too_long (not_le.mp hm)
    have hle := (hfits _ _ _ _ _ _ h s bounded_largeFile rfl r _ asdu ha).1
    rw [hlength] at hle
    exact absurd hle (by decide)
  · intro hm π ρ ω P world c h s hP hc r key asdu ha
    rw [fitsApdu_iff]
    have hlimit : c.chunkLimit ≤ 235 := by
      unfold FileTransferConfig.chunkLimit
      omega
    calc asdu.length
        ≤ max otherAsduLen (c.chunkLimit + segmentOverhead) := length_of_sent hP r ha
      _ ≤ max otherAsduLen (235 + segmentOverhead) :=
        max_le_max le_rfl (Nat.add_le_add_right hlimit _)
      _ = Frame104.Codec.MAX_ASDU_LEN := rfl

/-- The segment of a large file. -/
def largeSegment : Bytes :=
  send F_SG_NA_1.payload ⟨1⟩ ⟨⟨0⟩, ⟨7⟩, ⟨1⟩, List.replicate 236 0⟩

/-- **With the default parameters** a file of 236 octets is sent in an ASDU
that the codec refuses. -/
theorem asdus_fit_not_default : largeFile.Bounded
      ∧ ∃ h s, Run Service.step (.init largeFile () .default) h s
        ∧ ((⟨1⟩, ⟨7⟩), .command largeSegment) ∈ effects h
        ∧ Frame104.Codec.encode (.i ⟨0, by decide⟩ ⟨0, by decide⟩ largeSegment)
          = .error (.asduTooLong 250 249) ∧ ¬ FitsApdu largeSegment := by
  refine ⟨bounded_largeFile, _, _, run_exec _ _ (selectsLarge ++
    [(.run none, 0), (.run none, 0)]), by decide +kernel, by decide +kernel, ?_⟩
  rw [fitsApdu_iff]
  decide +kernel

end FileTransfer
