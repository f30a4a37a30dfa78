import Iec60870.FileTransferFailure

/-!
# The lengths that are announced

A sender announces the length of its file twice, of the file (`F_FR_NA_1`) and of
its only section (`F_SR_NA_1`). It is the length that the provider has reported when
the session was opened, which may be any number of 32 bits, and nothing is checked
on the way to the wire, where there are three octets for it. So what is announced is
what is left of the length in three octets: `announced_iff`.

The length that the provider reports is no effect of the service. It is read off the
history: the turn that opens a sender for a key asks the provider for the file, and
`reportedLength` is the answer.
-/

namespace FileTransfer

open Iec60870 Machine

variable {π ρ ω : Type} {length : Option UInt32} {key : Key} {c : ServiceCall π ρ ω}

/-! ## Announcements -/

/-- The length that an input announces. -/
def SessionInput.length? : SessionInput → Option UInt32
  | .fileReady asdu => some asdu.lof.raw
  | .sectionReady asdu => some asdu.los.raw
  | _ => none

/-- **The length that octets announce** to whoever receives them. -/
def announcedLength (m : Bytes) : Option UInt32 := (received m).bind SessionInput.length?

/-- **The action announces this length** and nothing else, if it announces one. -/
def SessionAction.Announces (length : Option UInt32) : SessionAction → Prop
  | .sendFileReady asdu => length = some asdu.lof.raw ∧ asdu.frq = Frq.ready
  | .sendSectionReady asdu => length = some asdu.los.raw ∧ asdu.srq = Srq.ready
  | _ => True

/-- **The octets of an announcement**, of a file or of a section: the first of them is
the type identification. -/
def IsAnnouncement (m : Bytes) : Prop :=
  m.head? = some F_FR_NA_1.payload.typeId ∨ m.head? = some F_SR_NA_1.payload.typeId

instance (m : Bytes) : Decidable (IsAnnouncement m) :=
  inferInstanceAs (Decidable (_ ∨ _))

/-- The code of a ready file or section fits its seven bits. -/
theorem ready_fits : (0 : UInt8) ≤ 127 := by decide

/-- **On the wire a length is cut to three octets.** -/
theorem announcedLength_message {x : SessionAction}
    (h : x.Announces length) {ca : CommonAddress} {m : Bytes} (hm : message ca x = some m)
    (hannounce : IsAnnouncement m) :
    ∃ n, length = some n ∧ announcedLength m = some (cut24 n) := by
  cases x with
  | sendFileReady asdu =>
    cases hm
    refine ⟨asdu.lof.raw, h.1, ?_⟩
    rw [announcedLength, received_fileReady ca asdu (by rw [h.2]; exact ready_fits)]
    rfl
  | sendSectionReady asdu =>
    cases hm
    refine ⟨asdu.los.raw, h.1, ?_⟩
    rw [announcedLength, received_sectionReady ca asdu (by rw [h.2]; exact ready_fits)]
    rfl
  | _ =>
    -- the other ASDUs have another type identification
    cases hm <;> obtain hm | hm := hannounce <;> cases hm

/-- A length is announced as it is exactly if three octets are enough for it. -/
theorem cut24_eq_iff (n : UInt32) : cut24 n = n ↔ n.toNat < 2 ^ 24 := by
  rw [← UInt32.toNat_inj, toNat_cut24]
  exact ⟨fun h => h ▸ Nat.mod_lt _ (by decide), Nat.mod_eq_of_lt⟩

/-! ## Sessions -/

namespace Session

/-- **A sender that was given this length.** -/
def Given (length : Option UInt32) (s : Session) : Prop :=
  s.role = .sender → s.state ≠ .idle ∧ length = some s.fileLength ∧ s.sectionLength = s.fileLength

section Step

variable {s : Session} {length : Option UInt32}

theorem given_onInput (hs : s.Given length) (hactions : s.actions = [])
    (hlive : s.isTerminal = false) (input : SessionInput) (now : Instant) :
    (s.onInput input now).Given length
      ∧ ∀ x ∈ (s.onInput input now).actions, x.Announces length := by
  have hc := course_onInput hlive input now
  generalize s.onInput input now = d at hc ⊢
  cases hc with
  | ignore h =>
    rw [hactions]
    exact ⟨hs, fun x hx => absurd hx List.not_mem_nil⟩
  | announce n hr hst => exact absurd hst (hs hr).1
  | selected asdu hr hst ha =>
    obtain ⟨-, hfile, hsection⟩ := hs hr
    refine ⟨fun _ => ⟨fun h => (by cases h), hfile, hsection⟩, ?_⟩
    rw [hactions, List.nil_append, List.forall_mem_singleton]
    exact ⟨hfile, rfl⟩
  | requested asdu hr hst ha =>
    obtain ⟨-, hfile, hsection⟩ := hs hr
    refine ⟨fun _ => ⟨fun h => (by cases h), hfile, hsection⟩, ?_⟩
    rw [hactions, List.nil_append, List.forall_mem_cons]
    refine ⟨⟨hsection ▸ hfile, rfl⟩, ?_⟩
    split
    · exact fun x hx => absurd hx List.not_mem_nil
    · exact List.forall_mem_singleton.mpr trivial
  | fileReady asdu hr hst hn =>
    refine ⟨fun h => absurd (hr.symm.trans h) (by decide), ?_⟩
    rw [hactions, List.nil_append, List.forall_mem_singleton]
    trivial
  | sectionReady asdu hr hst hn =>
    rw [hactions]
    exact ⟨fun h => absurd (hr.symm.trans h) (by decide), fun x hx => absurd hx List.not_mem_nil⟩
  | segment | chunk =>
    exact ⟨fun h => hs h, by simp [hactions, SessionAction.Announces]⟩
  | _ =>
    refine ⟨fun h => ⟨fun hidle => (by cases hidle), (hs h).2⟩, ?_⟩
    simp [hactions, SessionAction.Announces]

/-- **One call of a session** announces the length it was given. -/
theorem given_step (hs : s.Given length) (hactions : s.actions = []) (i : SessionInput × Instant) :
    (s.step i).1.Given length ∧ ∀ x ∈ (s.step i).2, x.Announces length := by
  refine step_rule (M := fun d q => d.Given length ∧ ∀ x ∈ q, x.Announces length) s i ?_ ?_ ?_ ?_
  · exact fun _ => ⟨hs, List.forall_mem_nil _⟩
  · exact fun hlive => given_onInput hs hactions hlive i.1 i.2
  · exact fun d progress hd => hd
  · rintro d ⟨hgiven, hq⟩
    refine ⟨fun h => ⟨fun hidle => (by cases hidle), (hgiven h).2⟩, ?_⟩
    exact List.forall_mem_append.mpr ⟨hq, List.forall_mem_singleton.mpr trivial⟩

end Step

end Session

/-! ## Threads -/

/-- A session, between two calls, that was given this length. -/
def Session.Announces (length : Option UInt32) (s : Session) : Prop :=
  s.actions = [] ∧ s.Given length

/-- **Everything in the thread announces this length.** -/
abbrev Thread.Given (length : Option UInt32) (t : Thread ρ ω) : Prop :=
  t.Keeps (Session.Announces length) (SessionAction.Announces length)

theorem Session.announces_step (s : Session) (i : SessionInput × Instant) (h : s.Announces length) :
    (s.step i).1.Announces length ∧ ∀ x ∈ (s.step i).2, x.Announces length := by
  obtain ⟨hgiven, hq⟩ := given_step h.2 h.1 i
  exact ⟨⟨actions_step h.1 i, hgiven⟩, hq⟩

section Threads

variable {P : Provider π ρ ω} {config : FileTransferConfig} {key : Key}
  {length : Option UInt32} {t t' : Thread ρ ω} {heard : Option SessionInput}
  {es : List Effect}

/-- A new sender announces the length it starts with. -/
theorem given_sender (config : FileTransferConfig) (nof : NameOfFile) (n : UInt32) (now : Instant) :
    (Thread.sender config nof n now).1.Announces (some n)
      ∧ ∀ x ∈ (Thread.sender config nof n now).2, x.Announces (some n) := by
  refine ⟨⟨rfl, fun _ => ⟨fun h => (by cases h), rfl, rfl⟩⟩, ?_⟩
  exact List.forall_mem_singleton.mpr ⟨rfl, rfl⟩

/-- So does a sender that is opened with it. -/
theorem announces_opening {nof : NameOfFile} {n : UInt32} {s : Session}
    {actions : List SessionAction} (h : Opening config nof n s actions) :
    s.Announces (some n) ∧ ∀ x ∈ actions, x.Announces (some n) := by
  cases h with
  | push now => exact given_sender config nof n now
  | selected sc now hr =>
    subst hr
    exact Session.announces_step _ _ (given_sender config nof n now).1
  | halfSelected now => exact ⟨(given_sender config nof n now).1, List.forall_mem_nil _⟩

/-- **A thread keeps to its length** until a sender is opened. -/
theorem Thread.Given.step (h : t.Given length) (hstep : Thread.Step P config key t heard es t')
    (hes : .started .sender ∉ es) : t'.Given length := by
  refine Thread.Keeps.step Session.announces_step h (fun role hrole => ?_) hstep
  cases role with
  | sender => exact absurd hrole hes
  | receiver => exact ⟨rfl, fun hr => by cases hr⟩

/-- **An announcement comes out of the queue.** -/
theorem Thread.Given.announced (h : t.Given length) (hstep : Thread.Step P config key t heard es t')
    {m : Bytes} (hm : .command m ∈ es) (hannounce : IsAnnouncement m) :
    ∃ n, length = some n ∧ announcedLength m = some (cut24 n) := by
  cases hstep with
  | perform entry action queue world now hp =>
    subst hp
    have hx := h.queue action List.mem_cons_self
    exact announcedLength_message hx (message_of_perform hm) hannounce
  | _ => simp at hm

end Threads

/-! ## The length that is reported -/

/-- What a turn learns from the provider when it opens a sender for a key. -/
def reportedIn (key : Key) (c : ServiceCall π ρ ω) : Option UInt32 :=
  if (key, .started .sender) ∈ c.actions then
    match (c.before.provider.lookup key.2 c.before.world).1 with
    | .ok (some metadata) => some metadata.length
    | _ => none
  else none

/-- **The length that the provider has reported** for the last sender of a key. -/
def reportedLength (key : Key) (h : List (ServiceCall π ρ ω)) : Option UInt32 :=
  h.foldl (fun last c => (reportedIn key c).or last) none

theorem reportedLength_snoc (key : Key) (h : List (ServiceCall π ρ ω)) (c : ServiceCall π ρ ω) :
    reportedLength key (h ++ [c]) = (reportedIn key c).or (reportedLength key h) := by
  rw [reportedLength, List.foldl_append]
  rfl

theorem reportedIn_of_mem {metadata : FileMetadata} (h : (key, .started .sender) ∈ c.actions)
    (hm : (c.before.provider.lookup key.2 c.before.world).1 = .ok (some metadata)) :
    reportedIn key c = some metadata.length := by
  rw [reportedIn, if_pos h, hm]

/-- Only a turn that opens a sender learns a length. -/
theorem reportedIn_of_notMem (h : (key, .started .sender) ∉ c.actions) : reportedIn key c = none :=
  if_neg h

/-- **A turn opens its senders with what the provider reports.** -/
def Service.Reports (s : Service π ρ ω) (r : Service π ρ ω × List (Key × Effect)) : Prop :=
  ∀ key, (key, .started .sender) ∈ r.2 →
    ∃ metadata, (s.provider.lookup key.2 s.world).1 = .ok (some metadata)
      ∧ (r.1.thread key).Given (some metadata.length)

section Reports

variable {s : Service π ρ ω} {k : Key} {now : Instant}

/-- What opens no sender. -/
theorem reports_of_notMem {r : Service π ρ ω × List (Key × Effect)}
    (h : ∀ key, (key, .started .sender) ∉ r.2) : s.Reports r :=
  fun key hk => absurd hk (h key)

/-- What opens a sender for one key. -/
theorem reports_openSession {metadata : FileMetadata}
    (hm : (s.provider.lookup k.2 s.world).1 = .ok (some metadata)) (s' : Service π ρ ω)
    {active : ActiveSession ρ ω} {actions : List SessionAction}
    (hgiven : Thread.Given (some metadata.length) ⟨some active, actions⟩) :
    s.Reports (s'.openSession k active actions now, [(k, .started .sender)]) := by
  intro key hkey
  obtain ⟨rfl, -⟩ := Prod.mk.inj (List.mem_singleton.mp hkey)
  refine ⟨metadata, hm, ?_⟩
  rw [Service.openSession, thread_resume_self, lookup_put_self]
  exact hgiven

theorem reports_onWork (w : Work) : s.Reports (s.onWork w now) := by
  refine reports_of_notMem fun key hkey => ?_
  unfold Service.onWork at hkey
  split at hkey
  · obtain ⟨e, he, hkey⟩ := List.mem_map.mp hkey
    cases hkey
    exact started_notMem_perform _ _ _ he
  · exact absurd hkey List.not_mem_nil
  · exact absurd hkey List.not_mem_nil

/-- What a handler opens, it opens with what the provider reports. -/
theorem reports_handled {caller : Option ℕ} {heard : Option SessionInput}
    {r : Service π ρ ω × List (Key × Effect)} (h : Handled s k caller heard r) :
    s.Reports r := by
  cases h with
  | serves hk hroom hlook hwriter now hm hopening =>
    obtain ⟨hs, hq⟩ := announces_opening hopening
    exact reports_openSession hm _ (.of_some hs hq)
  | _ => exact reports_of_notMem (by simp)

/-- **Every turn** opens its senders with what the provider reports. -/
theorem reports_step (s : Service π ρ ω) (i : ServiceInput × Instant) : s.Reports (s.step i) := by
  have h := turned_step s i
  generalize s.step i = r at h ⊢
  cases h with
  | submit | route => exact reports_of_notMem fun _ => List.not_mem_nil
  | work => exact reports_onWork _
  | intent hi tick now h | asdu hi tick now h | other tick now h =>
    have hreports := reports_handled h
    exact hreports

end Reports

/-! ## Runs -/

section Run

variable {P : Provider π ρ ω} {world : π} {config : FileTransferConfig}
  {h : List (ServiceCall π ρ ω)} {s : Service π ρ ω}

/-- **The thread of a key keeps to the length that was reported for it.** -/
theorem given_of_run (r : Run Service.step (.init P world config) h s) (key : Key) :
    (s.thread key).Given (reportedLength key h) := by
  induction r with
  | nil => exact .of_none (List.forall_mem_nil _)
  | @snoc h s r i ih =>
    rw [reportedLength_snoc]
    by_cases hstart : (key, .started .sender) ∈ (s.step i).2
    · obtain ⟨metadata, hm, hgiven⟩ := reports_step s i key hstart
      rw [reportedIn_of_mem (c := call Service.step s i) hstart hm]
      exact hgiven
    · rw [reportedIn_of_notMem hstart, Option.none_or]
      obtain ⟨-, -, ht⟩ | hstep := thread_step s i key
      · rw [ht]
        exact ih
      · refine Thread.Given.step ih hstep fun he => hstart ?_
        exact mem_of_mem_effectsAt he

/-- **A length is announced truthfully exactly if three octets are enough for it.**
For every provider and every run of the service: whenever it sends an `F_FR_NA_1` or an
`F_SR_NA_1`, the provider has reported a length for the file, and what the peer
receives is that length if and only if it is below `2 ^ 24`. -/
theorem announced_iff (r : Run Service.step (.init P world config) h s)
    (i : ServiceInput × Instant) {key : Key} {m : Bytes}
    (hm : (key, .command m) ∈ (s.step i).2) (hannounce : IsAnnouncement m) :
    ∃ n, reportedLength key h = some n
      ∧ (announcedLength m = some n ↔ n.toNat < 2 ^ 24) := by
  obtain ⟨-, hes, -⟩ | hstep := thread_step s i key
  · have hm := mem_effectsAt hm
    rw [hes] at hm
    exact absurd hm List.not_mem_nil
  · obtain ⟨n, hn, hl⟩ := Thread.Given.announced (given_of_run r key) hstep (mem_effectsAt hm)
      hannounce
    refine ⟨n, hn, ?_⟩
    rw [hl, Option.some_inj]
    exact cut24_eq_iff n

end Run

/-- The application pushes a file, and the service announces it. -/
def pushedFile : List (ServiceInput × Instant) :=
  [(.submit (.push ⟨1⟩ ⟨7⟩ 0), 0), (.run none, 0)]

/-- The announcement of a file of two octets. -/
def twoOctetsReady : Bytes :=
  send F_FR_NA_1.payload ⟨1⟩ ⟨⟨0⟩, ⟨7⟩, ⟨2⟩, Frq.ready⟩

/-- A file of two octets is announced with its length. -/
theorem announced_iff_twoOctets :
    let run := exec Service.step (.init (scripted 2) ⟨[], [], []⟩ .default) pushedFile
    ((⟨1⟩, ⟨7⟩), .command twoOctetsReady) ∈ (run.2.step (.run none, 0)).2
      ∧ announcedLength twoOctetsReady = some 2
      ∧ ∃ n, reportedLength (⟨1⟩, ⟨7⟩) run.1 = some n
        ∧ (announcedLength twoOctetsReady = some n ↔ n.toNat < 2 ^ 24) := by
  intro run
  have hm : ((⟨1⟩, ⟨7⟩), .command twoOctetsReady) ∈ (run.2.step (.run none, 0)).2 := by
    decide +kernel
  exact ⟨hm, by decide +kernel, announced_iff (run_exec _ _ _) _ hm (by decide)⟩

/-- **A file of sixteen megabytes is announced as an empty one.** -/
theorem announced_fails_sixteenMegabytes :
    ∃ h s, Run Service.step (.init (scripted (0x1000000)) ⟨[], [], []⟩ .default) h s
      ∧ reportedLength (⟨1⟩, ⟨7⟩) h = some (0x1000000)
      ∧ ∃ m, ((⟨1⟩, ⟨7⟩), .command m) ∈ (s.step (.run none, 0)).2
        ∧ IsAnnouncement m ∧ announcedLength m = some 0 :=
  ⟨_, _, run_exec _ _ pushedFile, by decide +kernel,
    send F_FR_NA_1.payload ⟨1⟩ ⟨⟨0⟩, ⟨7⟩, ⟨0x1000000⟩, Frq.ready⟩, by decide +kernel,
    by decide +kernel, by decide +kernel⟩

end FileTransfer
