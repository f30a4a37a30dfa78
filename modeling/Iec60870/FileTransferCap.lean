import Iec60870.FileTransferBooks
import Iec60870.FileTransferFs
import Iec60870.FileTransferPush

/-!
# The cap on inbound files

A service has a parameter that is to cap the disk space a hostile peer can use
(`max_inbound_file_bytes`). The only place that reads it is the one that opens a session
for a file the peer announces, where it is compared with the announced length; a session
that the application opens with a fetch is not compared with anything, and no session
compares what it has written.

So a peer can send as many segments as it likes in reply to a fetch, and all of them are
written (`Service.Receives.step`, `exists_written`). The only parameters that cap
anything are those with which no segment is ever written: no room for a session, or no
time for one (`inbound_capped_iff`).
-/

namespace FileTransfer

open Iec60870 Machine

variable {π ρ ω : Type} {config : FileTransferConfig} {es : List Effect} {s : Service π ρ ω}

/-! ## What is written -/

/-- Only a session writes, and what it writes is at the head of its queue. -/
theorem deliver_of_wrote {P : Provider π ρ ω} {key : Key}
    {t t' : Thread ρ ω} {heard : Option SessionInput}
    (hstep : Thread.Step P config key t heard es t') {data : Bytes}
    {result : Except FileTransferError Unit} (hw : .wrote data result ∈ es) :
    t.entry ≠ none ∧ .deliverSegment data ∈ t.queue := by
  cases hstep with
  | perform entry action queue world now hp =>
    subst hp
    cases entry with
    | none =>
      obtain ⟨asdu, hp⟩ := perform_none P key world now action
      simp [hp] at hw
    | some active =>
      refine ⟨by simp, ?_⟩
      have hp := performs P key active world now action
      generalize perform P key (some active) world action now = p at hp hw
      cases hp with
      | write data' hwriter hr =>
        obtain hw | hw := List.mem_cons.mp hw
        · cases hw
          exact List.mem_cons_self
        · simp at hw
      | _ => simp [told] at hw
  | _ => simp at hw

/-- Where nothing is written there are no segments. -/
theorem ownSegments_of_unwritten
    (h : ∀ data result, .wrote data result ∉ es) : ownSegments es = [] := by
  induction es using List.reverseRecOn with
  | nil => rfl
  | append_singleton es e ih =>
    have ih := ih fun data result hw => h data result (List.mem_append_left _ hw)
    unfold ownSegments at ih ⊢
    rw [List.foldl_append, ih]
    cases e with
    | wrote data result =>
      exact absurd List.mem_concat_self (h data result)
    | started role => cases role <;> rfl
    | _ => rfl

/-! ## Sessions without time -/

namespace Session

/-- **A session without time**, which receives no segments. -/
structure NoTime (s : Session) : Prop where
  actions : s.actions = []
  time : s.config.idleTimeout = 0
  state : s.state ≠ .rxReceivingSegments

variable {s : Session}

/-- A timer that runs is over at once if there is no time. -/
theorem checkTimeout_of_noTime (htime : s.config.idleTimeout = 0)
    (hlive : s.isTerminal = false) (hst : s.state ≠ .idle) {last : Instant}
    (hlast : s.lastProgress = some last) (now : Instant) :
    s.checkTimeout now = s.fail .timeout := by
  unfold checkTimeout
  rw [if_neg (by rw [hlive]; decide), if_neg hst, hlast]
  exact if_pos (htime ▸ Nat.zero_le _)

/-- Instead of receiving segments it notes the progress and fails. -/
theorem NoTime.receives_nothing (h : s.NoTime) (i : SessionInput × Instant) :
    (s.step i).1.state ≠ .rxReceivingSegments ∧ ∀ data, .deliverSegment data ∉ (s.step i).2 := by
  obtain ⟨hactions, htime, hst⟩ := h
  cases hlive : s.isTerminal with
  | true =>
    rw [step_of_terminal hlive]
    exact ⟨hst, fun data => List.not_mem_nil⟩
  | false =>
    have hd : (∀ data, .deliverSegment data ∉ (s.onInput i.1 i.2).actions)
        ∧ ((s.onInput i.1 i.2).state = .rxReceivingSegments →
          (s.onInput i.1 i.2).lastProgress = some i.2) := by
      have hc := course_onInput hlive i.1 i.2
      generalize i.1 = input at hc ⊢
      generalize s.onInput input i.2 = d at hc ⊢
      cases hc with
      | ignore h | chunk => exact ⟨by simp [hactions], fun h => absurd h hst⟩
      | sectionReady asdu hr hst' hn => exact ⟨by simp [hactions], fun _ => rfl⟩
      | segment asdu hr hst' => exact absurd hst' hst
      | requested asdu hr hst' ha =>
        refine ⟨fun data hmem => ?_, fun h => by cases h⟩
        rw [hactions] at hmem
        cases s.awaitingProvider <;> simp at hmem
      | _ => exact ⟨by simp [hactions], fun h => by cases h⟩
    obtain ⟨hdeliver, hprogress⟩ := hd
    have hfailed (reason : FailureReason) (data : Bytes) :
        .deliverSegment data ∉ (s.onInput i.1 i.2).actions ++ [.failed reason] := by
      simp [hdeliver data]
    by_cases hrx : (s.onInput i.1 i.2).state = .rxReceivingSegments
    · have hlive' : (s.onInput i.1 i.2).isTerminal = false := by
        rw [isTerminal, hrx]
      have htime' : (s.onInput i.1 i.2).config.idleTimeout = 0 := by
        rw [(settings_onInput hlive i.1 i.2).2, htime]
      have hidle : (s.onInput i.1 i.2).state ≠ .idle := by
        rw [hrx]
        decide
      rw [step_of_live hlive, checkTimeout_of_noTime htime' hlive' hidle (hprogress hrx),
        fail_of_live hlive']
      exact ⟨fun h => (by cases h), hfailed _⟩
    · obtain ⟨progress, hstep⟩ | hstep := step_cases hlive i
      · rw [hstep]
        exact ⟨hrx, hdeliver⟩
      · rw [hstep]
        exact ⟨fun h => (by cases h), hfailed _⟩

/-- **A call of a session without time.** -/
theorem NoTime.step (s : Session) (i : SessionInput × Instant) (h : s.NoTime) :
    (s.step i).1.NoTime ∧ ∀ x ∈ (s.step i).2, ∀ data, x ≠ .deliverSegment data := by
  obtain ⟨hst, hq⟩ := h.receives_nothing i
  refine ⟨⟨actions_step h.actions i, ?_, hst⟩, fun x hx data hdata => ?_⟩
  · rw [(settings_step s i).2, h.time]
  · exact hq data (hdata ▸ hx)

end Session

section Unwritten

variable {P : Provider π ρ ω} {world : π} {config : FileTransferConfig}
  {h : List (ServiceCall π ρ ω)} {s : Service π ρ ω}

/-- **A service without room for a session** writes nothing. -/
theorem unwritten_of_noRoom (hroom : config.maxConcurrentSessions = 0)
    (r : Run Service.step (.init P world config) h s) (key : Key) (data : Bytes)
    (result : Except FileTransferError Unit) : (key, .wrote data result) ∉ effects h := by
  induction r with
  | nil => exact List.not_mem_nil
  | @snoc h s r i ih =>
    intro hw
    rw [effects_snoc] at hw
    obtain hw | hw := List.mem_append.mp hw
    · exact ih hw
    · have hkeys := bounded_of_run r
      rw [hroom, Nat.le_zero, List.length_eq_zero_iff] at hkeys
      have hnone : s.sessions.lookup key = none := by
        refine AList.lookup_eq_none.mpr fun hk => ?_
        rw [AList.mem_keys, hkeys] at hk
        cases hk
      obtain ⟨-, hes, -⟩ | hstep := thread_step s i key
      · have hw := mem_effectsAt hw
        rw [hes] at hw
        cases hw
      · exact (deliver_of_wrote hstep (mem_effectsAt hw)).1 hnone

/-- **A service without time for its sessions** writes nothing. -/
theorem unwritten_of_noTime (htime : config.idleTimeout = 0)
    (r : Run Service.step (.init P world config) h s) (key : Key) (data : Bytes)
    (result : Except FileTransferError Unit) : (key, .wrote data result) ∉ effects h := by
  intro hw
  have hinv := thread_invariant r key
    (I := fun es t => t.Keeps Session.NoTime (fun x => ∀ data, x ≠ .deliverSegment data)
      ∧ ∀ data result, .wrote data result ∉ es)
    ⟨.of_none (List.forall_mem_nil _), fun _ _ => List.not_mem_nil⟩
    (by
      rintro es t heard es' t' ⟨ht, hes⟩ hstep
      have hnew (role : Role) : (Session.new role key.2 config.sessionConfig).NoTime :=
        ⟨rfl, htime, fun h => by cases h⟩
      refine ⟨ht.step Session.NoTime.step (fun role _ => hnew role) hstep, fun data result hw => ?_⟩
      obtain hw | hw := List.mem_append.mp hw
      · exact hes data result hw
      · exact ht.queue _ (deliver_of_wrote hstep hw).2 data rfl)
  exact hinv.2 data result (mem_effectsAt hw)

end Unwritten

/-! ## Segments without end -/

/-- The file that is fetched. -/
def fetchedKey : Key := (⟨1⟩, ⟨7⟩)

/-- A segment of one octet. -/
def octetSegment : F_SG_NA_1 := ⟨⟨0⟩, ⟨7⟩, ⟨1⟩, [0]⟩

/-- It comes from the peer. -/
def octetAsdu : Asdu :=
  Asdu.fromPayload F_SG_NA_1.payload (Cot.of Cause.fileTransfer) ⟨1⟩ (Vsq.single 1)
    octetSegment AsduAddressing.iec104

/-- A transfer that receives segments, with time to do so. -/
structure ActiveSession.Receives (active : ActiveSession ρ ω) : Prop where
  actions : active.session.actions = []
  role : active.session.role = .receiver
  state : active.session.state = .rxReceivingSegments
  time : active.session.config.idleTimeout ≠ 0
  writer : ∃ writer, active.writer = some writer

/-- **Every segment is delivered**, whatever has been delivered before. -/
theorem ActiveSession.Receives.step {active : ActiveSession ρ ω} (h : active.Receives)
    (asdu : F_SG_NA_1) (now : Instant) :
    (active.session.step (.segment asdu, now)).2 = [.deliverSegment asdu.segment]
      ∧ ActiveSession.Receives
        { active with session := (active.session.step (.segment asdu, now)).1 } := by
  have hlive : active.session.isTerminal = false := by
    rw [Session.isTerminal, h.state]
  have hin : active.session.onInput (.segment asdu) now = { active.session with
          lastProgress := some now
          sectionChecksum := active.session.sectionChecksum.updateSlice asdu.segment
          bytesTransferred := saturatingAdd active.session.bytesTransferred
            (UInt32.ofNat asdu.segment.length)
          actions := [.deliverSegment asdu.segment] } := by
    show active.session.onSegment asdu now = _
    unfold Session.onSegment
    rw [if_neg (by simp [h.role, h.state])]
    dsimp only [Session.emit]
    rw [h.actions]
    rfl
  have hcheck : (active.session.onInput (.segment asdu) now).checkTimeout now
      = active.session.onInput (.segment asdu) now := by
    rw [hin]
    simp [Session.checkTimeout, h.state, h.time]
  rw [Session.step_of_live hlive, hcheck, hin]
  exact ⟨rfl, rfl, h.role, h.state, h.time, h.writer⟩

/-- **The service receives the file**, and has nothing else to do. -/
structure Service.Receives (s : Service π ρ ω) : Prop where
  rest : s.Rest
  session : ∃ active, s.sessions.lookup fetchedKey = some active ∧ active.Receives

/-- The service is about to write a segment. -/
structure Service.Writes (s : Service π ρ ω) : Prop where
  work : ∃ now, s.work = some ⟨fetchedKey, [.deliverSegment [0]], [], now⟩
  intents : s.intents = []
  asdus : s.asdus = []
  session : ∃ active, s.sessions.lookup fetchedKey = some active ∧ active.Receives

/-- A segment comes in. -/
theorem Service.Receives.step (h : s.Receives) (now : Instant) :
    (Service.step { s with asdus := [(⟨1⟩, octetAsdu)] } (.run none, now)).1.Writes
      ∧ (Service.step { s with asdus := [(⟨1⟩, octetAsdu)] } (.run none, now)).2 = [] := by
  obtain ⟨active, hactive, hreceives⟩ := h.session
  obtain ⟨hwork, hintents, hasdus⟩ := h.rest
  have hstep : Service.step { s with asdus := [(⟨1⟩, octetAsdu)] } (.run none, now)
      = s.onIncoming ⟨1⟩ octetAsdu now := by
    obtain ⟨provider, world, config, sessions, intents, asdus, work⟩ := s
    cases hwork
    cases hintents
    cases hasdus
    rfl
  have hnof : peekNof octetAsdu = some ⟨7⟩ := by decide +kernel
  have hinput : decodeFtAsdu octetAsdu = some (.segment octetSegment) := by decide +kernel
  have hmem : fetchedKey ∈ s.sessions := AList.lookup_isSome.mp (by rw [hactive]; rfl)
  obtain ⟨hqueue, hnext⟩ := hreceives.step octetSegment now
  rw [hstep]
  unfold Service.onIncoming
  rw [hnof]
  dsimp only
  rw [if_pos (by exact hmem)]
  unfold Service.dispatch
  rw [hinput]
  dsimp only
  unfold Service.stepSession
  rw [show s.sessions.lookup (⟨1⟩, ⟨7⟩) = some active from hactive]
  dsimp only
  rw [hqueue]
  refine ⟨⟨⟨now, rfl⟩, hintents, hasdus, _, ?_, hnext⟩, rfl⟩
  exact lookup_put_self s fetchedKey (some _)

/-- **It is written.** -/
theorem Service.Writes.step (h : s.Writes) (now : Instant) :
    (s.step (.run none, now)).1.Receives ∧ ∃ result, (s.step (.run none, now)).2
        = [(fetchedKey, .wrote [0] result), (fetchedKey, .segmentTransferred 1)] := by
  obtain ⟨t, hwork⟩ := h.work
  obtain ⟨active, hactive, hreceives⟩ := h.session
  obtain ⟨writer, hwriter⟩ := hreceives.writer
  rw [step_of_work s hwork]
  unfold Service.onWork
  dsimp only
  have hperform : perform s.provider fetchedKey (some active) s.world (.deliverSegment [0]) now
      = ⟨some { active with writer := some (s.provider.writeSegment writer [0] s.world).1.2 },
          [], (s.provider.writeSegment writer [0] s.world).2,
          [.wrote [0] (s.provider.writeSegment writer [0] s.world).1.1,
            .segmentTransferred 1]⟩ := by
    show deliverSegment s.provider (some active) s.world [0] = _
    unfold deliverSegment
    dsimp only
    rw [hwriter]
    rfl
  rw [hactive, hperform]
  refine ⟨⟨⟨rfl, h.intents, h.asdus⟩, _, lookup_put_self _ fetchedKey (some _), ?_⟩, _, rfl⟩
  exact ⟨hreceives.actions, hreceives.role, hreceives.state, hreceives.time, _, rfl⟩

section Endless

variable {P : Provider π ρ ω} {world : π} {config : FileTransferConfig}
  {h : List (ServiceCall π ρ ω)} {s : Service π ρ ω}

/-- **One more octet is written.** -/
theorem Service.Receives.more (hs : s.Receives) (r : Run Service.step (.init P world config) h s) :
    ∃ h' s', Run Service.step (.init P world config) h' s' ∧ s'.Receives
      ∧ ownSegments (effectsAt fetchedKey (effects h'))
        = ownSegments (effectsAt fetchedKey (effects h)) ++ [0] := by
  have hroute : s.step (.route ⟨1⟩ octetAsdu, 0)
      = ({ s with asdus := [(⟨1⟩, octetAsdu)] }, []) := by
    unfold Service.step
    dsimp only
    rw [hs.rest.asdus]
    rfl
  have r₁ := r.snoc (.route ⟨1⟩ octetAsdu, 0)
  have r₂ := r₁.snoc (.run none, 0)
  have r₃ := r₂.snoc (.run none, 0)
  obtain ⟨hwrites, hquiet⟩ := hs.step 0
  obtain ⟨hreceives, result, hes⟩ := hwrites.step 0
  refine ⟨_, _, r₃, ?_, ?_⟩
  · rw [hroute]
    exact hreceives
  · rw [effects_snoc, effects_snoc, effects_snoc, hroute]
    dsimp only
    rw [hquiet, hes, List.append_nil, List.append_nil, effectsAt_append,
      ownSegments_self (by simp [Effect.isSink]), ownSegments_wrote]

/-- **A peer can send as much as it likes.** -/
theorem Service.Receives.endless
    (hs : s.Receives) (r : Run Service.step (.init P world config) h s) (n : ℕ) :
    ∃ h' s', Run Service.step (.init P world config) h' s' ∧ s'.Receives
      ∧ n ≤ (ownSegments (effectsAt fetchedKey (effects h'))).length := by
  induction n with
  | zero => exact ⟨h, s, r, hs, Nat.zero_le _⟩
  | succ n ih =>
    obtain ⟨h', s', r', hs', hn⟩ := ih
    obtain ⟨h'', s'', r'', hs'', hmore⟩ := hs'.more r'
    refine ⟨h'', s'', r'', hs'', ?_⟩
    rw [hmore, List.length_append]
    exact Nat.succ_le_succ hn

end Endless

/-! ## The cap -/

/-- A service fetches a file, up to its first segment. -/
def fetchesFile (config : FileTransferConfig) :
    List (ServiceCall Script Unit Unit) × Service Script Unit Unit :=
  exec Service.step (.init (scripted 0) ⟨[], [], []⟩ config) (fetchOpened fetchedKey 0)

/-- The service with its session for the file, which waits. -/
def fetching (m t c : ℕ) (max : UInt32) (state : SessionState) : Service Script Unit Unit :=
  ⟨scripted 0, ⟨[], [], []⟩, ⟨m, t + 1, c + 1, max⟩, AList.singleton fetchedKey
    ⟨⟨.receiver, ⟨7⟩, state, ⟨m, t + 1, ⟨0⟩⟩, 0, 0, 0, Checksum.zero, some 0, false, []⟩,
      none, some (), some 0⟩, [], [], none⟩

/-- With room and time for it, it then receives the file. -/
theorem receives_fetchesFile (m t c : ℕ) (max : UInt32) :
    (fetchesFile ⟨m, t + 1, c + 1, max⟩).2.Receives := by
  have hselected : (exec Service.step (.init (scripted 0) ⟨[], [], []⟩ ⟨m, t + 1, c + 1, max⟩)
      ((fetchOpened fetchedKey 0).take 3)).2 = fetching m t c max .rxAwaitFileReady := rfl
  have hfetched : (fetchesFile ⟨m, t + 1, c + 1, max⟩).2
      = fetching m t c max .rxReceivingSegments := by
    rw [fetchesFile, ← List.take_append_drop 3 (fetchOpened fetchedKey 0), exec_append,
      hselected]
    rfl
  rw [hfetched]
  exact ⟨⟨rfl, rfl, rfl⟩, _, rfl, rfl, rfl, rfl, Nat.succ_ne_zero t, (), rfl⟩

/-- **Nothing caps what is written**: with room and time for a session, however much it is
to be, there is a run in which more is written for one session. -/
theorem exists_written (hroom : config.maxConcurrentSessions ≠ 0)
    (htime : config.idleTimeout ≠ 0) (n : ℕ) :
    ∃ h s, Run Service.step (.init (scripted 0) ⟨[], [], []⟩ config) h s
      ∧ n ≤ (ownSegments (effectsAt fetchedKey (effects h))).length := by
  obtain ⟨m, time, room, max⟩ := config
  obtain ⟨t, rfl⟩ := Nat.exists_eq_succ_of_ne_zero htime
  obtain ⟨c, rfl⟩ := Nat.exists_eq_succ_of_ne_zero hroom
  have hreceives := receives_fetchesFile m t c max
  obtain ⟨h, s, r, -, hn⟩ := hreceives.endless (run_exec _ _ _) n
  exact ⟨h, s, r, hn⟩

/-- **The cap on inbound files holds exactly if nothing can be written at all.** Whatever
the parameters: no session of any run of the service, with any provider and any peer,
writes more than `max_inbound_file_bytes`, if and only if the service has no room for a
session or no time for one. -/
theorem inbound_capped_iff (config : FileTransferConfig) :
    (∀ (π ρ ω : Type) (P : Provider π ρ ω) (world : π) (h : List (ServiceCall π ρ ω))
        (s : Service π ρ ω), Run Service.step (.init P world config) h s →
        ∀ key, (ownSegments (effectsAt key (effects h))).length
          ≤ config.maxInboundFileBytes.toNat)
      ↔ config.maxConcurrentSessions = 0 ∨ config.idleTimeout = 0 := by
  constructor
  · intro hcap
    by_contra hnot
    rw [not_or] at hnot
    obtain ⟨h, s, r, hn⟩ :=
      exists_written hnot.1 hnot.2 (config.maxInboundFileBytes.toNat + 1)
    exact absurd (hcap _ _ _ _ _ h s r fetchedKey) (Nat.not_le.mpr hn)
  · intro hnone π ρ ω P world h s r key
    have hunwritten : ∀ data result, (key, .wrote data result) ∉ effects h := by
      intro data result
      obtain hroom | htime := hnone
      · exact unwritten_of_noRoom hroom r key data result
      · exact unwritten_of_noTime htime r key data result
    have hnil : ownSegments (effectsAt key (effects h)) = [] :=
      ownSegments_of_unwritten fun data result hw =>
        hunwritten data result (mem_of_mem_effectsAt hw)
    rw [hnil]
    exact Nat.zero_le _

/-- **A fetched file is not capped**: with a cap of no octets at all, one is written. -/
theorem inbound_not_capped : ∃ h s, Run Service.step
        (.init (scripted 0) ⟨[], [], []⟩ { FileTransferConfig.default with
          maxInboundFileBytes := 0 }) h s
      ∧ (fetchedKey, .started .receiver) ∈ effects h
      ∧ (fetchedKey, .wrote [0] (.ok ())) ∈ effects h
      ∧ (ownSegments (effectsAt fetchedKey (effects h))).length = 1 :=
  ⟨_, _, run_exec _ _ (fetchOpened fetchedKey 0 ++ segmentWritten fetchedKey [0]),
    by decide +kernel, by decide +kernel, by decide +kernel⟩

end FileTransfer
