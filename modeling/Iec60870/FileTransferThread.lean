import Iec60870.FileTransferService

/-!
# The service, one key at a time

What the service does, it does for one key. `Thread` is the part of its state
that belongs to a key: the session in the map, and the queue of its actions
while it is worked off. `Thread.Step` lists what a turn can do to it, and
every turn of the service is one for each of its threads, at most one of
which moves (`thread_step`). Statements about all runs of the service are
therefore proved along `Thread.Step` (`thread_invariant`); the other keys,
the channels and the order in which the task takes its inputs do not occur in
such a proof.

What is about the service as a whole – its channels, the size of its map, the
calls of the provider – is proved along `Handled`, which says once what a
handler does, `Performs`, which says what performing an action does, and
`Service.Turned`, which says what a turn is made of (`turned_step`).

The first of them is the shape of the queue (`Thread.Shape`): whatever ends a
session is the last action of its queue, and the session is in the map until
it is performed.
-/

namespace FileTransfer

open Iec60870 Machine Session

variable {π ρ ω : Type}

/-! ## Threads -/

/-- **The part of the service that belongs to a key**: its session in the map,
and the queue of its actions while it is worked off. -/
structure Thread (ρ ω : Type) where
  entry : Option (ActiveSession ρ ω)
  queue : List SessionAction

/-- The thread of a key. -/
def Service.thread (s : Service π ρ ω) (key : Key) : Thread ρ ω where
  entry := s.sessions.lookup key
  queue := match s.work with
    | some w => if w.key = key then w.queue else []
    | none => []

/-- **What the session at a key is about to hear** from the wire in a turn. -/
def Service.hears (s : Service π ρ ω) (i : ServiceInput) (key : Key) :
    Option SessionInput :=
  match i, s.work, s.intents, s.asdus with
  | .run _, none, [], (ca, asdu) :: _ =>
    if key ∈ s.sessions ∧ ca = key.1 ∧ peekNof asdu = some key.2 then
      decodeFtAsdu asdu
    else none
  | _, _, _, _ => none

/-- A session that has made its first step, with a reader. -/
def Thread.sender (config : FileTransferConfig) (nof : NameOfFile)
    (length : UInt32) (now : Instant) : Session × List SessionAction :=
  (Session.new .sender nof config.sessionConfig).step (.start length, now)

/-- **What can happen to a thread in a turn of the service**: what its session
hears, the effects, and the thread after it. -/
inductive Thread.Step (P : Provider π ρ ω) (config : FileTransferConfig)
    (key : Key) :
    Thread ρ ω → Option SessionInput → List Effect → Thread ρ ω → Prop
  /-- An intent is refused. -/
  | refuse (t : Thread ρ ω) (caller : ℕ) (e : FileTransferError) :
      Step P config key t none [.replied caller (.error e)] t
  | fetch (writer : ω) (caller : ℕ) (now : Instant)
      {r : Session × List SessionAction}
      (hr : r = (Session.new .receiver key.2 config.sessionConfig).step (.start 0, now)) :
      Step P config key ⟨none, []⟩ none [.started .receiver]
        ⟨some ⟨r.1, none, some writer, some caller⟩, r.2⟩
  | push (reader : ρ) (caller : ℕ) (length : UInt32) (now : Instant)
      {r : Session × List SessionAction}
      (hr : r = Thread.sender config key.2 length now) :
      Step P config key ⟨none, []⟩ none [.started .sender]
        ⟨some ⟨r.1, some reader, none, some caller⟩, r.2⟩
  /-- The peer has announced the file. -/
  | announced (writer : ω) (fr : F_FR_NA_1) (now : Instant)
      (hfr : fr.lof.raw ≤ config.maxInboundFileBytes)
      {r : Session × List SessionAction}
      (hr : r = (Session.new .receiver key.2 config.sessionConfig).step (.fileReady fr, now)) :
      Step P config key ⟨none, []⟩ none [.started .receiver]
        ⟨some ⟨r.1, none, some writer, none⟩, r.2⟩
  /-- The peer has selected the file. -/
  | selected (reader : ρ) (sc : F_SC_NA_1) (length : UInt32) (now : Instant)
      {r : Session × List SessionAction}
      (hr : r = (Thread.sender config key.2 length now).1.step (.selectCall sc, now)) :
      Step P config key ⟨none, []⟩ none [.started .sender]
        ⟨some ⟨r.1, some reader, none, none⟩, r.2⟩
  /-- The peer has selected the file with an ASDU that cannot be read. -/
  | halfSelected (reader : ρ) (length : UInt32) (now : Instant) :
      Step P config key ⟨none, []⟩ none [.started .sender]
        ⟨some ⟨(Thread.sender config key.2 length now).1, some reader, none, none⟩, []⟩
  | hear (active : ActiveSession ρ ω) (input : SessionInput) (now : Instant)
      (hi : ∃ asdu, decodeFtAsdu asdu = some input)
      {r : Session × List SessionAction}
      (hr : r = active.session.step (input, now)) :
      Step P config key ⟨some active, []⟩ (some input) [] ⟨some { active with session := r.1 }, r.2⟩
  | tick (active : ActiveSession ρ ω) (now : Instant)
      {r : Session × List SessionAction}
      (hr : r = active.session.step (.tick, now)) :
      Step P config key ⟨some active, []⟩ none [] ⟨some { active with session := r.1 }, r.2⟩
  | perform (entry : Option (ActiveSession ρ ω)) (action : SessionAction)
      (queue : List SessionAction) (world : π) (now : Instant)
      {p : Performed π ρ ω}
      (hp : p = FileTransfer.perform P key entry world action now) :
      Step P config key ⟨entry, action :: queue⟩ none p.effects ⟨p.entry, queue ++ p.extra⟩

/-- **What the provider is asked for that no writer comes of.** -/
inductive Looks (P : Provider π ρ ω) (world : π) : π → Prop
  | refl : Looks P world world
  | lookup {w : π} (h : Looks P world w) (nof : NameOfFile) : Looks P world (P.lookup nof w).2
  | openRead {w : π} (h : Looks P world w) (nof : NameOfFile) : Looks P world (P.openRead nof w).2
  | readSegment {w : π} (h : Looks P world w) (reader : ρ) (maxBytes : ℕ) :
      Looks P world (P.readSegment reader maxBytes w).2
  | openWrite {w : π} (h : Looks P world w) (nof : NameOfFile) {e : FileTransferError}
      (he : (P.openWrite nof 0 w).1 = .error e) : Looks P world (P.openWrite nof 0 w).2

/-- **How a sender is opened** for a file of a length: the session, and the first
actions. -/
inductive Opening (config : FileTransferConfig) (nof : NameOfFile) (length : UInt32) :
    Session → List SessionAction → Prop
  | push (now : Instant) : Opening config nof length (Thread.sender config nof length now).1
      (Thread.sender config nof length now).2
  | selected (sc : F_SC_NA_1) (now : Instant) {r : Session × List SessionAction}
      (hr : r = (Thread.sender config nof length now).1.step (.selectCall sc, now)) :
      Opening config nof length r.1 r.2
  | halfSelected (now : Instant) :
      Opening config nof length (Thread.sender config nof length now).1 []

/-- **What a handler of the service does for a key**: the caller whose intent it
takes, if it takes one, what the session hears, and what comes of it. -/
inductive Handled (s : Service π ρ ω) (k : Key) :
    Option ℕ → Option SessionInput → Service π ρ ω × List (Key × Effect) → Prop
  /-- Nothing happens, but that the provider has been asked. -/
  | quiet {world : π} (hlook : Looks s.provider s.world world) :
      Handled s k none none ({ s with world := world }, [])
  /-- An intent is refused. -/
  | refuse {world : π} (hlook : Looks s.provider s.world world) (caller : ℕ)
      (e : FileTransferError) :
      Handled s k (some caller) none ({ s with world := world }, [(k, .replied caller (.error e))])
  /-- A session with a writer is opened. -/
  | receives (hk : k ∉ s.sessions) (hroom : s.isFull = false) {writer : ω}
      (hopen : (s.provider.openWrite k.2 0 s.world).1 = .ok writer)
      {active : ActiveSession ρ ω} (hwriter : active.writer = some writer)
      {actions : List SessionAction} (now : Instant)
      (hstep : Thread.Step s.provider s.config k ⟨none, []⟩ none [.started .receiver]
        ⟨some active, actions⟩) :
      Handled s k active.reply none
        (Service.openSession { s with world := (s.provider.openWrite k.2 0 s.world).2 } k
          active actions now, [(k, .started .receiver)])
  /-- A session without a writer is opened, with the length that the provider reports. -/
  | serves (hk : k ∉ s.sessions) (hroom : s.isFull = false) {world : π}
      (hlook : Looks s.provider s.world world) {active : ActiveSession ρ ω}
      (hwriter : active.writer = none) {actions : List SessionAction} (now : Instant)
      {metadata : FileMetadata} (hm : (s.provider.lookup k.2 s.world).1 = .ok (some metadata))
      (hopening : Opening s.config k.2 metadata.length active.session actions)
      (hstep : Thread.Step s.provider s.config k ⟨none, []⟩ none [.started .sender]
        ⟨some active, actions⟩) :
      Handled s k active.reply none
        (Service.openSession { s with world := world } k active actions now,
          [(k, .started .sender)])
  | hears (hk : k ∈ s.sessions) {asdu : Asdu} {input : SessionInput}
      (hi : decodeFtAsdu asdu = some input) (now : Instant) :
      Handled s k none (some input) (s.stepSession k input now [], [])
  | ticks (now : Instant) (keys : List Key) :
      Handled s k none none (s.stepSession k .tick now keys, [])

/-- The effects for a key. -/
def effectsAt (key : Key) (es : List (Key × Effect)) : List Effect :=
  es.filterMap fun e => if e.1 = key then some e.2 else none

section Threads

variable (s : Service π ρ ω) {key k : Key}

theorem effectsAt_append (key : Key) (es fs : List (Key × Effect)) :
    effectsAt key (es ++ fs) = effectsAt key es ++ effectsAt key fs :=
  List.filterMap_append

theorem effectsAt_map_self (key : Key) (es : List Effect) :
    effectsAt key (es.map fun e => (key, e)) = es := by
  rw [effectsAt, List.filterMap_map]
  show es.filterMap (fun e => if key = key then some e else none) = es
  simp

theorem effectsAt_map_ne (h : k ≠ key) (es : List Effect) :
    effectsAt key (es.map fun e => (k, e)) = [] := by
  rw [effectsAt, List.filterMap_map]
  show es.filterMap (fun e => if k = key then some e else none) = []
  simp [h]

theorem mem_effectsAt {key : Key} {e : Effect} {es : List (Key × Effect)}
    (h : (key, e) ∈ es) : e ∈ effectsAt key es :=
  List.mem_filterMap.mpr ⟨(key, e), h, if_pos rfl⟩

theorem mem_of_mem_effectsAt {key : Key} {e : Effect} {es : List (Key × Effect)}
    (h : e ∈ effectsAt key es) : (key, e) ∈ es := by
  obtain ⟨⟨k, e'⟩, hmem, hsome⟩ := List.mem_filterMap.mp h
  dsimp only at hsome
  split at hsome
  · rename_i hk
    rwa [← hk, ← Option.some.inj hsome]
  · cases hsome

theorem lookup_put_self (key : Key) (entry : Option (ActiveSession ρ ω)) :
    (s.put key entry).sessions.lookup key = entry := by
  cases entry with
  | none => exact AList.lookup_erase key s.sessions
  | some active => exact AList.lookup_insert s.sessions

theorem lookup_put_ne (h : key ≠ k) (entry : Option (ActiveSession ρ ω)) :
    (s.put k entry).sessions.lookup key = s.sessions.lookup key := by
  cases entry with
  | none => exact AList.lookup_erase_ne h
  | some active => exact AList.lookup_insert_ne h

theorem work_resume {w : Work} (h : w.queue ≠ []) : (s.resume w).work = some w :=
  if_neg fun hnil => h hnil.1

/-- The task goes on with the work in hand. -/
theorem step_of_work {w : Work} (hw : s.work = some w) (tick : Option (List Key))
    (now : Instant) : s.step (.run tick, now) = s.onWork w now := by
  unfold Service.step
  dsimp only
  rw [hw]

/-- The thread of the key that is worked on. -/
theorem thread_resume_self (w : Work) :
    (s.resume w).thread w.key = ⟨s.sessions.lookup w.key, w.queue⟩ := by
  unfold Service.thread Service.resume
  dsimp only
  split
  · rename_i hw
    split at hw
    · cases hw
    · cases hw
      rw [if_pos rfl]
  · rename_i hw
    split at hw
    · rename_i h
      rw [h.1]
    · cases hw

/-- The thread of another key. -/
theorem thread_resume_ne (w : Work) (h : w.key ≠ key) :
    (s.resume w).thread key = ⟨s.sessions.lookup key, []⟩ := by
  unfold Service.thread Service.resume
  dsimp only
  split
  · rename_i w' hw
    split at hw
    · cases hw
    · cases hw
      rw [if_neg h]
  · rfl

/-- A thread while the service waits. -/
theorem thread_of_rest (h : s.work = none) (key : Key) :
    s.thread key = ⟨s.sessions.lookup key, []⟩ := by
  unfold Service.thread
  rw [h]

/-- A thread while the queue is empty. -/
theorem thread_of_queue {w : Work} (h : s.work = some w) (hq : w.queue = [])
    (key : Key) : s.thread key = ⟨s.sessions.lookup key, []⟩ := by
  unfold Service.thread
  rw [h]
  dsimp only
  rw [hq, ite_self]

end Threads

/-- **A turn of a thread**: nothing happens to it, or a step. -/
def Thread.Turn (P : Provider π ρ ω) (config : FileTransferConfig) (key : Key)
    (t : Thread ρ ω) (heard : Option SessionInput) (es : List Effect)
    (t' : Thread ρ ω) : Prop :=
  heard = none ∧ es = [] ∧ t' = t ∨ Thread.Step P config key t heard es t'

/-- **A turn that concerns one key**, taken with empty queues: the threads of
the other keys stay as they are, and there is no effect for them. -/
structure Local (s : Service π ρ ω) (k : Key) (heard : Option SessionInput)
    (r : Service π ρ ω × List (Key × Effect)) : Prop where
  other : ∀ key, key ≠ k → effectsAt key r.2 = [] ∧ r.1.thread key = ⟨s.sessions.lookup key, []⟩
  own : Thread.Turn s.provider s.config k ⟨s.sessions.lookup k, []⟩ heard
    (effectsAt k r.2) (r.1.thread k)

namespace Local

variable {s : Service π ρ ω} {k : Key}

section Rest

variable (hw : s.work = none) (world : π)

include hw

theorem thread_withWorld (key : Key) :
    Service.thread { s with world := world } key = ⟨s.sessions.lookup key, []⟩ :=
  thread_of_rest { s with world := world } hw key

/-- Nothing happens, but that the provider has been asked. -/
theorem nothing : Local s k none ({ s with world := world }, []) where
  other key _ := ⟨rfl, thread_withWorld hw world key⟩
  own := Or.inl ⟨rfl, rfl, thread_withWorld hw world k⟩

/-- An intent is refused. -/
theorem refuse (caller : ℕ) (e : FileTransferError) : Local s k none
      ({ s with world := world }, [(k, .replied caller (.error e))]) where
  other key hne :=
    ⟨effectsAt_map_ne hne.symm [.replied caller (.error e)], thread_withWorld hw world key⟩
  own := by
    refine Or.inr ?_
    rw [thread_withWorld hw]
    show Thread.Step _ _ _ _ _ (effectsAt k (List.map (fun e => (k, e)) [_])) _
    rw [effectsAt_map_self]
    exact .refuse _ caller e

end Rest

/-- A session is opened. -/
theorem opens (hk : s.sessions.lookup k = none) (world : π)
    {active : ActiveSession ρ ω} {actions : List SessionAction} {now : Instant}
    {e : Effect} (hstep : Thread.Step s.provider s.config k ⟨none, []⟩ none [e]
      ⟨some active, actions⟩) : Local s k none
      (Service.openSession { s with world := world } k active actions now,
        [(k, e)]) where
  other key hne := by
    refine ⟨effectsAt_map_ne hne.symm [e], ?_⟩
    rw [Service.openSession, thread_resume_ne _ _ hne.symm, lookup_put_ne _ hne]
  own := by
    refine Or.inr ?_
    show Thread.Step _ _ _ _ _ (effectsAt k (List.map (fun e => (k, e)) [_])) _
    rw [effectsAt_map_self, Service.openSession, thread_resume_self, lookup_put_self, hk]
    exact hstep

/-- The session at the key is stepped. -/
theorem steps {heard : Option SessionInput} {input : SessionInput} {now : Instant}
    (ticks : List Key) (hnone : s.sessions.lookup k = none → heard = none)
    (hstep : ∀ active, s.sessions.lookup k = some active →
      Thread.Step s.provider s.config k ⟨some active, []⟩ heard []
        ⟨some { active with session := (active.session.step (input, now)).1 },
          (active.session.step (input, now)).2⟩) :
    Local s k heard (s.stepSession k input now ticks, []) where
  other key hne := by
    refine ⟨rfl, ?_⟩
    unfold Service.stepSession
    split
    · rw [thread_resume_ne _ _ hne.symm, lookup_put_ne _ hne]
    · rw [thread_resume_ne _ _ hne.symm]
  own := by
    cases hl : s.sessions.lookup k with
    | none =>
      refine Or.inl ⟨hnone hl, rfl, ?_⟩
      rw [Service.stepSession, hl]
      dsimp only
      rw [thread_resume_self, hl]
    | some active =>
      refine Or.inr ?_
      rw [Service.stepSession, hl]
      dsimp only
      rw [thread_resume_self, lookup_put_self]
      exact hstep active hl

end Local

/-! ### The handlers -/

section Handlers

variable {s : Service π ρ ω} {k : Key} (now : Instant)

theorem lookup_of_notMem (h : k ∉ s.sessions) : s.sessions.lookup k = none :=
  AList.lookup_eq_none.mpr h

/-- An intent that is not refused is for a key without a session. -/
theorem notMem_of_refusal (h : s.refusal k = none) : k ∉ s.sessions := by
  intro hk
  rw [Service.refusal, if_pos hk] at h
  cases h

/-- An intent that is not refused finds the map with room in it. -/
theorem isFull_of_refusal (h : s.refusal k = none) : s.isFull = false := by
  unfold Service.refusal at h
  split at h
  · cases h
  · split at h
    · cases h
    · rename_i hfull
      exact Bool.not_eq_true _ ▸ hfull

theorem handled_onFetch (reply : ℕ) : Handled s k (some reply) none (s.onFetch k reply now) := by
  unfold Service.onFetch
  split
  · exact .refuse .refl reply _
  · rename_i href
    dsimp only
    split
    · rename_i e he
      exact .refuse (.openWrite .refl k.2 he) reply e
    · rename_i writer hopen
      exact .receives (notMem_of_refusal href) (isFull_of_refusal href) hopen rfl now
        (.fetch writer reply now rfl)

theorem handled_onPush (reply : ℕ) : Handled s k (some reply) none (s.onPush k reply now) := by
  have hlookup : Looks s.provider s.world (s.provider.lookup k.2 s.world).2 :=
    .lookup .refl k.2
  unfold Service.onPush
  split
  · exact .refuse .refl reply _
  · rename_i href
    dsimp only
    split
    · exact .refuse hlookup reply _
    · exact .refuse hlookup reply _
    · rename_i metadata hm
      split
      · exact .refuse (hlookup.openRead k.2) reply _
      · rename_i reader _
        exact .serves (notMem_of_refusal href) (isFull_of_refusal href)
          (hlookup.openRead k.2) rfl now hm (.push now)
          (.push reader reply metadata.length now rfl)

/-- Handing an ASDU to a session that was just put in the map is opening it
with what it then asks for. -/
theorem dispatch_put (world : π) (active : ActiveSession ρ ω) (asdu : Asdu) (hw : s.work = none) :
    (Service.put { s with world := world } k (some active)).dispatch k asdu now
      = match decodeFtAsdu asdu with
        | some input =>
          Service.openSession { s with world := world } k
            { active with session := (active.session.step (input, now)).1 }
            (active.session.step (input, now)).2 now
        | none => Service.openSession { s with world := world } k active [] now := by
  rw [Service.dispatch]
  cases decodeFtAsdu asdu with
  | none =>
    show _ = { Service.put { s with world := world } k (some active) with
      work := none }
    rw [← hw]
    rfl
  | some input =>
    dsimp only
    rw [Service.stepSession, lookup_put_self]
    dsimp only
    unfold Service.openSession Service.put
    dsimp only
    rw [AList.insert_insert]

theorem handled_onFileReady (hw : s.work = none) (hk : k ∉ s.sessions)
    (hroom : s.isFull = false) {asdu : Asdu} (ht : asdu.typeId = 120) :
    Handled s k none none (s.onFileReady k asdu now) := by
  unfold Service.onFileReady
  split
  · exact .quiet .refl
  · rename_i fr hfr
    split
    · exact .quiet .refl
    · rename_i hle
      dsimp only
      split
      · rename_i e he
        exact .quiet (.openWrite .refl k.2 he)
      · rename_i writer hopen
        have hinput : decodeFtAsdu asdu = some (.fileReady fr) := by
          rw [decodeFtAsdu, ht]
          show (asdu.decodePayload F_FR_NA_1.payload AsduAddressing.iec104).toOption.map _ = _
          rw [hfr]
          rfl
        rw [dispatch_put now _ _ _ hw, hinput]
        exact .receives hk hroom hopen rfl now (.announced writer fr now (UInt32.not_lt.mp hle) rfl)

theorem handled_onSelect (hw : s.work = none) (hk : k ∉ s.sessions)
    (hroom : s.isFull = false) {asdu : Asdu} (ht : asdu.typeId = 122) :
    Handled s k none none (s.onSelect k asdu now) := by
  have hlookup : Looks s.provider s.world (s.provider.lookup k.2 s.world).2 :=
    .lookup .refl k.2
  unfold Service.onSelect
  dsimp only
  split
  · rename_i metadata hm
    split
    · exact .quiet (hlookup.openRead k.2)
    · rename_i reader _
      have hinput : decodeFtAsdu asdu = (asdu.decodePayload F_SC_NA_1.payload
              AsduAddressing.iec104).toOption.map .selectCall := by
        rw [decodeFtAsdu, ht]
        rfl
      rw [dispatch_put now _ _ _ hw, hinput]
      cases (asdu.decodePayload F_SC_NA_1.payload AsduAddressing.iec104).toOption with
      | none =>
        exact .serves hk hroom (hlookup.openRead k.2) rfl now hm (.halfSelected now)
          (.halfSelected reader metadata.length now)
      | some sc =>
        exact .serves hk hroom (hlookup.openRead k.2) rfl now hm (.selected sc now rfl)
          (.selected reader sc metadata.length now rfl)
  · exact .quiet hlookup

theorem handled_onIncoming (hw : s.work = none) (ca : CommonAddress) {asdu : Asdu}
    {nof : NameOfFile} (hn : peekNof asdu = some nof) : Handled s (ca, nof) none
      (if (ca, nof) ∈ s.sessions then decodeFtAsdu asdu else none)
      (s.onIncoming ca asdu now) := by
  unfold Service.onIncoming
  rw [hn]
  dsimp only
  split
  · rename_i hk
    unfold Service.dispatch
    cases hd : decodeFtAsdu asdu with
    | none => exact .quiet .refl
    | some input => exact .hears hk hd now
  · rename_i hk
    split
    · exact .quiet .refl
    · rename_i hfull
      have hroom : s.isFull = false := Bool.not_eq_true _ ▸ hfull
      split
      · exact handled_onFileReady now hw hk hroom ‹_›
      · exact handled_onSelect now hw hk hroom ‹_›
      · exact .quiet .refl

/-- An ASDU concerns the key of its file name, or none at all. -/
theorem exists_handled_onIncoming (hw : s.work = none) (ca : CommonAddress) (asdu : Asdu) :
    ∃ k heard, Handled s k none heard (s.onIncoming ca asdu now)
      ∧ ∀ key, (if key ∈ s.sessions ∧ ca = key.1 ∧ peekNof asdu = some key.2 then
        decodeFtAsdu asdu else none) = if key = k then heard else none := by
  cases hn : peekNof asdu with
  | none =>
    refine ⟨(ca, ⟨0⟩), none, ?_, fun key => ?_⟩
    · unfold Service.onIncoming
      rw [hn]
      exact .quiet .refl
    · rw [ite_self, if_neg]
      rintro ⟨-, -, h⟩
      cases h
  | some nof =>
    refine ⟨_, _, handled_onIncoming now hw ca hn, fun key => ?_⟩
    by_cases hk : key = (ca, nof)
    · subst hk
      rw [if_pos rfl]
      exact if_congr (by simp) rfl rfl
    · rw [if_neg hk, if_neg]
      rintro ⟨-, hca, hnof⟩
      exact hk (Prod.ext hca.symm (Option.some.inj hnof).symm)

theorem exists_handled_onTick (order : List Key) :
    ∃ k, Handled s k none none (s.onTick order now, []) := by
  unfold Service.onTick
  split
  · rename_i k keys _
    exact ⟨k, .ticks now keys⟩
  · exact ⟨(⟨0⟩, ⟨0⟩), .quiet .refl⟩

/-- **What is handled while the queues are empty concerns one key.** -/
theorem Handled.toLocal {asked : Option ℕ} {heard : Option SessionInput}
    {r : Service π ρ ω × List (Key × Effect)} (h : Handled s k asked heard r)
    (hw : s.work = none) : Local s k heard r := by
  cases h with
  | quiet hlook => exact .nothing hw _
  | refuse hlook caller e => exact .refuse hw _ caller e
  | receives hk hroom hopen hwriter now hstep
  | serves hk hroom hlook hwriter now hm hopening hstep =>
    exact .opens (lookup_of_notMem hk) _ hstep
  | hears hk hi now =>
    refine .steps [] (fun hl => ?_) fun active _ => .hear active _ now ⟨_, hi⟩ rfl
    exact absurd hk (AList.lookup_eq_none.mp hl)
  | ticks now keys => exact .steps keys (fun _ => rfl) fun active _ => .tick active now rfl

end Handlers

/-! ### The turns -/

/-- What a turn that concerns one key is for any key. -/
theorem Local.turn {s : Service π ρ ω} {k : Key} {heard : Option SessionInput}
    {r : Service π ρ ω × List (Key × Effect)} (h : Local s k heard r) (key : Key) :
    Thread.Turn s.provider s.config key ⟨s.sessions.lookup key, []⟩
      (if key = k then heard else none) (effectsAt key r.2) (r.1.thread key) := by
  by_cases hk : key = k
  · rw [if_pos hk, hk]
    exact h.own
  · rw [if_neg hk]
    exact Or.inl ⟨rfl, h.other key hk⟩

/-- The work in hand concerns the thread of its key. -/
theorem turn_onWork {s : Service π ρ ω} {w : Work} (hw : s.work = some w)
    (now : Instant) (key : Key) :
    Thread.Turn s.provider s.config key (s.thread key) none
      (effectsAt key (s.onWork w now).2) ((s.onWork w now).1.thread key) := by
  unfold Service.onWork
  split
  · rename_i action queue hq
    dsimp only
    by_cases hk : w.key = key
    · subst hk
      have ht : s.thread w.key = ⟨s.sessions.lookup w.key, action :: queue⟩ := by
        unfold Service.thread
        rw [hw]
        dsimp only
        rw [if_pos rfl, hq]
      rw [effectsAt_map_self, thread_resume_self, lookup_put_self, ht]
      exact Or.inr (.perform _ action queue s.world now rfl)
    · have ht : s.thread key = ⟨s.sessions.lookup key, []⟩ := by
        unfold Service.thread
        rw [hw]
        dsimp only
        rw [if_neg hk]
      refine Or.inl ⟨rfl, effectsAt_map_ne hk _, ?_⟩
      rw [ht]
      rw [thread_resume_ne _ _ (by exact hk), lookup_put_ne _ (Ne.symm hk)]
  · rename_i k keys hq _
    rw [thread_of_queue s hw hq]
    have h : Local s k none (s.stepSession k .tick w.tickAt keys, []) :=
      .steps keys (fun _ => rfl) fun active _ => .tick active _ rfl
    have := h.turn key
    rwa [ite_self] at this
  · rename_i hq _
    rw [thread_of_queue s hw hq]
    exact Or.inl ⟨rfl, rfl, rfl⟩

/-- The key of an intent. -/
def Intent.key : Intent → Key
  | .fetch ca nof _ | .push ca nof _ => (ca, nof)

/-- The caller that waits for the reply. -/
def Intent.caller : Intent → ℕ
  | .fetch _ _ reply | .push _ _ reply => reply

/-- **What a turn of the service is**: something is put in a channel, the work in
hand goes on, or something is handled – an intent, an ASDU, or the timer. -/
inductive Service.Turned (s : Service π ρ ω) :
    ServiceInput × Instant → Service π ρ ω × List (Key × Effect) → Prop
  | submit (intent : Intent) (now : Instant) :
      Turned s (.submit intent, now) ({ s with intents := s.intents ++ [intent] }, [])
  | route (ca : CommonAddress) (asdu : Asdu) (now : Instant) :
      Turned s (.route ca asdu, now) ({ s with asdus := s.asdus ++ [(ca, asdu)] }, [])
  | work {w : Work} (hw : s.work = some w) (tick : Option (List Key)) (now : Instant) :
      Turned s (.run tick, now) (s.onWork w now)
  | intent {intent : Intent} {rest : List Intent} (hi : s.intents = intent :: rest)
      (tick : Option (List Key)) (now : Instant)
      {r : Service π ρ ω × List (Key × Effect)}
      (h : Handled { s with intents := rest } intent.key (some intent.caller) none r)
      (hw : s.work = none) (hheard : ∀ key, s.hears (.run tick) key = none) :
      Turned s (.run tick, now) r
  | asdu {routed : CommonAddress × Asdu} {rest : List (CommonAddress × Asdu)}
      (ha : s.asdus = routed :: rest) (tick : Option (List Key)) (now : Instant) {k : Key}
      {heard : Option SessionInput} {r : Service π ρ ω × List (Key × Effect)}
      (h : Handled { s with asdus := rest } k none heard r) (hw : s.work = none)
      (hheard : ∀ key, s.hears (.run tick) key = if key = k then heard else none) :
      Turned s (.run tick, now) r
  | other (tick : Option (List Key)) (now : Instant) {k : Key}
      {r : Service π ρ ω × List (Key × Effect)} (h : Handled s k none none r)
      (hw : s.work = none) (hheard : ∀ key, s.hears (.run tick) key = none) :
      Turned s (.run tick, now) r

theorem turned_step (s : Service π ρ ω) (i : ServiceInput × Instant) : s.Turned i (s.step i) := by
  obtain ⟨input, now⟩ := i
  obtain ⟨provider, world, config, sessions, intents, asdus, work⟩ := s
  cases input with
  | submit intent => exact .submit intent now
  | route ca asdu => exact .route ca asdu now
  | run tick =>
    cases work with
    | some w => exact .work rfl tick now
    | none =>
      cases intents with
      | cons intent rest =>
        cases intent with
        | fetch ca nof reply =>
          exact .intent rfl tick now (handled_onFetch now reply) rfl fun _ => rfl
        | push ca nof reply =>
          exact .intent rfl tick now (handled_onPush now reply) rfl fun _ => rfl
      | nil =>
        cases asdus with
        | cons routed rest =>
          obtain ⟨k, heard, h, hheard⟩ := exists_handled_onIncoming
            (s := ⟨provider, world, config, sessions, [], rest, none⟩) now rfl
            routed.1 routed.2
          exact .asdu rfl tick now h rfl hheard
        | nil =>
          cases tick with
          | none => exact .other none now (k := (⟨0⟩, ⟨0⟩)) (.quiet .refl) rfl fun _ => rfl
          | some order =>
            obtain ⟨k, h⟩ := exists_handled_onTick
              (s := ⟨provider, world, config, sessions, [], [], none⟩) now order
            exact .other (some order) now h rfl fun _ => rfl

/-- **Every turn of the service is a turn of each of its threads.** -/
theorem thread_step (s : Service π ρ ω) (i : ServiceInput × Instant) (key : Key) :
    Thread.Turn s.provider s.config key (s.thread key) (s.hears i.1 key)
      (effectsAt key (s.step i).2) ((s.step i).1.thread key) := by
  have h := turned_step s i
  generalize s.step i = r at h ⊢
  cases h with
  | submit | route => exact Or.inl ⟨rfl, rfl, rfl⟩
  | work hw tick now =>
    have hheard : s.hears (.run tick) key = none := by simp only [Service.hears, hw]
    rw [hheard]
    exact turn_onWork hw now key
  | intent hi tick now h hw hheard | other tick now h hw hheard =>
    have hturn := (h.toLocal hw).turn key
    rw [ite_self] at hturn
    rw [hheard, thread_of_rest s hw]
    exact hturn
  | asdu ha tick now h hw hheard =>
    rw [hheard, thread_of_rest s hw]
    exact (h.toLocal hw).turn key

/-! ## Runs -/

/-- A call of the service, in a history. -/
abbrev ServiceCall (π ρ ω : Type) :=
  Machine.Call (Service π ρ ω) (ServiceInput × Instant) (Key × Effect)

/-- The effects of a history. -/
def effects (h : List (ServiceCall π ρ ω)) : List (Key × Effect) :=
  h.flatMap Machine.Call.actions

theorem effects_snoc (h : List (ServiceCall π ρ ω)) (s : Service π ρ ω)
    (i : ServiceInput × Instant) :
    effects (h ++ [call Service.step s i]) = effects h ++ (s.step i).2 := by
  simp [effects]

/-- What never changes: the provider and the parameters. -/
def Service.setting (s : Service π ρ ω) : Provider π ρ ω × FileTransferConfig :=
  (s.provider, s.config)

/-- What the work on a session leaves alone: the provider, the parameters and
the channels. -/
def Service.frame (s : Service π ρ ω) :
    Provider π ρ ω × FileTransferConfig × List Intent × List (CommonAddress × Asdu) :=
  (s.provider, s.config, s.intents, s.asdus)

section Frame

variable (s : Service π ρ ω) (key : Key) (now : Instant)

theorem frame_stepSession (input : SessionInput) (ticks : List Key) :
    (s.stepSession key input now ticks).frame = s.frame := by
  unfold Service.stepSession
  split <;> rfl

/-- What is handled leaves the channels alone. -/
theorem Handled.frame {s : Service π ρ ω} {k : Key} {asked : Option ℕ}
    {heard : Option SessionInput} {r : Service π ρ ω × List (Key × Effect)}
    (h : Handled s k asked heard r) : r.1.frame = s.frame := by
  cases h with
  | hears | ticks => exact frame_stepSession ..
  | _ => rfl

theorem frame_onWork (w : Work) : (s.onWork w now).1.frame = s.frame := by
  unfold Service.onWork
  split
  · rfl
  · exact frame_stepSession ..
  · rfl

theorem setting_of_frame {s t : Service π ρ ω} (h : s.frame = t.frame) : s.setting = t.setting :=
  congrArg (fun f => (f.1, f.2.1)) h

theorem asdus_of_frame {s t : Service π ρ ω} (h : s.frame = t.frame) : s.asdus = t.asdus :=
  congrArg (fun f => f.2.2.2) h

/-- The provider and the parameters stay as they are. -/
theorem setting_step (i : ServiceInput × Instant) : (s.step i).1.setting = s.setting := by
  have h := turned_step s i
  generalize s.step i = r at h ⊢
  cases h with
  | submit | route => rfl
  | work hw tick now => exact setting_of_frame (frame_onWork ..)
  | intent hi tick now h | asdu ha tick now h => exact (setting_of_frame h.frame).trans rfl
  | other tick now h => exact setting_of_frame h.frame

/-- A turn of the task takes at most one ASDU from the channel. -/
theorem asdus_run (tick : Option (List Key)) :
    (s.step (.run tick, now)).1.asdus.length ≤ s.asdus.length := by
  have h := turned_step s (.run tick, now)
  generalize s.step (.run tick, now) = r at h ⊢
  cases h with
  | work hw tick now => exact (congrArg List.length (asdus_of_frame (frame_onWork ..))).le
  | intent hi tick now h | other tick now h =>
    exact (congrArg List.length (asdus_of_frame h.frame)).le
  | asdu ha tick now h =>
    rw [asdus_of_frame h.frame, ha]
    exact Nat.le_succ _

end Frame

section Invariant

variable {P : Provider π ρ ω} {world : π} {config : FileTransferConfig}
  {h : List (ServiceCall π ρ ω)} {s : Service π ρ ω}
  (r : Run Service.step (.init P world config) h s)

include r

theorem setting_of_run : s.setting = (P, config) := by
  induction r with
  | nil => rfl
  | snoc r i ih => exact (setting_step _ i).trans ih

/-- **The invariant rule of threads**: what holds of the thread of a key before
anything has happened, and is kept by its steps, holds in every run of the
service. -/
theorem thread_invariant (key : Key) {I : List Effect → Thread ρ ω → Prop}
    (init : I [] ⟨none, []⟩) (keep : ∀ {es t heard es' t'}, I es t →
      Thread.Step P config key t heard es' t' → I (es ++ es') t') :
    I (effectsAt key (effects h)) (s.thread key) := by
  induction r with
  | nil => exact init
  | @snoc h s r i ih =>
    have hset := setting_of_run r
    have hstep := thread_step s i key
    rw [show s.provider = P from congrArg Prod.fst hset,
      show s.config = config from congrArg Prod.snd hset] at hstep
    rw [effects_snoc, effectsAt_append]
    obtain ⟨-, hes, ht⟩ | hstep := hstep
    · rw [hes, ht, List.append_nil]
      exact ih
    · exact keep ih hstep

end Invariant

/-! ## The shape of the queue -/

namespace SessionAction

/-- The actions that end a session. -/
def isFinal : SessionAction → Bool
  | .completed _ | .failed _ => true
  | _ => false

/-- The actions that send an ASDU. -/
def isSend : SessionAction → Bool
  | .requestNextSegment _ | .deliverSegment _ | .completed _ | .failed _ => false
  | _ => true

end SessionAction

/-- How a session ends with an action. -/
def SessionAction.outcome? : SessionAction → Option FileTransferOutcome
  | .completed bytes => some (.completed bytes)
  | .failed reason => some (.failed reason)
  | _ => none

/-- What is told at the end of a session. -/
def told (reply : Option ℕ) (outcome : FileTransferOutcome) : List Effect :=
  (reply.map fun caller => .replied caller outcome.result).toList ++ [.finished outcome]

/-- **What performing an action does to the session in the map.** -/
inductive Performs (P : Provider π ρ ω) (key : Key) (active : ActiveSession ρ ω)
    (world : π) (now : Instant) : SessionAction → Performed π ρ ω → Prop
  | send {action : SessionAction} (h : action.isSend = true) :
      Performs P key active world now action
        ⟨some active, [], world, ((message key.1 action).map Effect.command).toList⟩
  | noReader (maxBytes : ℕ) (h : active.reader = none) :
      Performs P key active world now (.requestNextSegment maxBytes) ⟨some active, [], world, []⟩
  /-- A chunk is read and handed to the session. -/
  | read (maxBytes : ℕ) {reader : ρ} (h : active.reader = some reader)
      {r : (Except FileTransferError (Option Bytes) × ρ) × π}
      (hr : r = P.readSegment reader maxBytes world) (chunk : Bytes)
      {next : Session × List SessionAction}
      (hnext : next = active.session.step (.segmentReady chunk, now))
      (hchunk : r.1.1 = .ok (some chunk) ∨ chunk = [] ∧ ∀ c, r.1.1 ≠ .ok (some c)) :
      Performs P key active world now (.requestNextSegment maxBytes)
        ⟨some { active with session := next.1, reader := some r.1.2 }, next.2, r.2,
          [.read r.1.1]⟩
  | noWriter (data : Bytes) (h : active.writer = none) :
      Performs P key active world now (.deliverSegment data)
        ⟨some active, [], world, [.segmentTransferred (UInt32.ofNat data.length)]⟩
  | write (data : Bytes) {writer : ω} (h : active.writer = some writer)
      {r : (Except FileTransferError Unit × ω) × π}
      (hr : r = P.writeSegment writer data world) :
      Performs P key active world now (.deliverSegment data)
        ⟨some { active with writer := some r.1.2 }, [], r.2,
          [.wrote data r.1.1, .segmentTransferred (UInt32.ofNat data.length)]⟩
  /-- The session ends. -/
  | finish {action : SessionAction} (hfinal : action.isFinal = true)
      (outcome : FileTransferOutcome) (h : active.writer = none)
      (houtcome : action.outcome? = some outcome) :
      Performs P key active world now action ⟨none, [], world, told active.reply outcome⟩
  /-- The session ends, and its writer is closed. -/
  | finalize {action : SessionAction} (hfinal : action.isFinal = true)
      (outcome : FileTransferOutcome) {writer : ω} (h : active.writer = some writer)
      {r : Except FileTransferError Unit × π}
      (hr : r = P.finalize writer outcome.success world)
      (houtcome : action.outcome? = some outcome) :
      Performs P key active world now action
        ⟨none, [], r.2, .finalized outcome.success r.1 :: told active.reply outcome⟩

section Performs

variable (P : Provider π ρ ω) (key : Key) (active : ActiveSession ρ ω) (world : π) (now : Instant)

theorem performs_pumpReader (maxBytes : ℕ) :
    Performs P key active world now (.requestNextSegment maxBytes)
      (pumpReader P (some active) world maxBytes now) := by
  unfold pumpReader
  dsimp only
  split
  · exact .noReader maxBytes ‹_›
  · refine .read maxBytes ‹_› rfl _ rfl ?_
    -- an error, like the end of the file, is an empty chunk
    split
    · exact Or.inl ‹_›
    · exact Or.inr ⟨rfl, by simp_all⟩
    · exact Or.inr ⟨rfl, by simp_all⟩

theorem performs_deliverSegment (data : Bytes) :
    Performs P key active world now (.deliverSegment data)
      (deliverSegment P (some active) world data) := by
  unfold deliverSegment
  dsimp only
  split
  · exact .noWriter data ‹_›
  · exact .write data ‹_› rfl

theorem performs_finalizeSession {action : SessionAction} (hfinal : action.isFinal = true)
    {outcome : FileTransferOutcome} (houtcome : action.outcome? = some outcome) :
    Performs P key active world now action (finalizeSession P (some active) world outcome) := by
  unfold finalizeSession
  dsimp only
  split
  · exact .finish hfinal outcome ‹_› houtcome
  · exact .finalize hfinal outcome ‹_› rfl houtcome

theorem performs (action : SessionAction) : Performs P key active world now action
      (perform P key (some active) world action now) := by
  cases action with
  | requestNextSegment maxBytes => exact performs_pumpReader P key active world now maxBytes
  | deliverSegment data => exact performs_deliverSegment P key active world now data
  | completed | failed => exact performs_finalizeSession P key active world now rfl rfl
  | _ => exact .send rfl

omit active in
/-- Without a session in the map there is at most an ASDU to send. -/
theorem perform_none (action : SessionAction) : ∃ asdu, perform P key none world action now
      = ⟨none, [], world, (Option.map Effect.command asdu).toList⟩ := by
  cases action with
  | requestNextSegment | deliverSegment | completed | failed => exact ⟨none, rfl⟩
  | _ => exact ⟨some _, rfl⟩

omit active in
variable {P key world now} in
/-- What is sent when an action is performed is its message. -/
theorem message_of_perform {entry : Option (ActiveSession ρ ω)} {action : SessionAction}
    {m : Bytes} (hm : .command m ∈ (perform P key entry world action now).effects) :
    message key.1 action = some m := by
  cases entry with
  | none =>
    cases action with
    | requestNextSegment | deliverSegment | completed | failed => exact absurd hm List.not_mem_nil
    | _ => simpa [perform] using hm
  | some active =>
    have hp := performs P key active world now action
    generalize perform P key (some active) world action now = p at hp hm
    cases hp with
    | send h => simpa using hm
    | _ => simp [told] at hm

omit active in
variable {P key world now} in
/-- What is performed opens no session. -/
theorem started_notMem_perform (entry : Option (ActiveSession ρ ω)) (action : SessionAction)
    (role : Role) : .started role ∉ (perform P key entry world action now).effects := by
  cases entry with
  | none =>
    obtain ⟨asdu, hnone⟩ := perform_none P key world now action
    simp [hnone]
  | some active =>
    have hp := performs P key active world now action
    generalize perform P key (some active) world action now = p at hp ⊢
    cases hp <;> simp [told]

end Performs

/-! ### What sessions keep -/

/-- The inputs that a new session is opened with. -/
def Opens : Role → SessionInput → Prop
  | _, .start _ => True
  | .receiver, .fileReady _ => True
  | _, _ => False

/-- **What the session of a thread keeps**, and what it asks for. -/
structure Thread.Keeps (S : Session → Prop) (A : SessionAction → Prop) (t : Thread ρ ω) :
    Prop where
  session : ∀ active, t.entry = some active → S active.session
  queue : ∀ x ∈ t.queue, A x

namespace Thread.Keeps

variable {S : Session → Prop} {A : SessionAction → Prop}

theorem of_some {active : ActiveSession ρ ω} {q : List SessionAction}
    (hs : S active.session) (hq : ∀ x ∈ q, A x) : Keeps S A ⟨some active, q⟩ where
  session a ha := by
    cases ha
    exact hs
  queue := hq

theorem of_none {q : List SessionAction} (hq : ∀ x ∈ q, A x) :
    Keeps S A (⟨none, q⟩ : Thread ρ ω) where
  session a ha := by cases ha
  queue := hq

variable {P : Provider π ρ ω} {config : FileTransferConfig} {key : Key} {G : SessionInput → Prop}
  (hS : ∀ s i, S s → G i.1 → S (Session.step s i).1 ∧ ∀ x ∈ (Session.step s i).2, A x)
  (hread : ∀ n reader world chunk, A (.requestNextSegment n) →
    (P.readSegment reader n world).1.1 = .ok (some chunk) ∨ chunk = [] → G (.segmentReady chunk))

include hS

theorem of_step {s : Session} (hs : S s) {input : SessionInput} (hi : G input) (now : Instant)
    (reader : Option ρ) (writer : Option ω) (reply : Option ℕ) :
    Keeps S A ⟨some ⟨(s.step (input, now)).1, reader, writer, reply⟩, (s.step (input, now)).2⟩ :=
  of_some (hS s _ hs hi).1 (hS s _ hs hi).2

include hread

theorem perform {entry : Option (ActiveSession ρ ω)} {x : SessionAction}
    {q : List SessionAction} (h : Keeps S A ⟨entry, x :: q⟩) (world : π) (now : Instant) :
    Keeps S A ⟨(FileTransfer.perform P key entry world x now).entry,
      q ++ (FileTransfer.perform P key entry world x now).extra⟩ := by
  have hq : ∀ y ∈ q, A y := fun y hy => h.queue y (List.mem_cons_of_mem x hy)
  cases entry with
  | none =>
    obtain ⟨asdu, hp⟩ := perform_none P key world now x
    rw [hp, List.append_nil]
    exact of_none hq
  | some active =>
    have hs := h.session active rfl
    have hp := performs P key active world now x
    generalize FileTransfer.perform P key (some active) world x now = p at hp ⊢
    cases hp with
    | read maxBytes hreader hr chunk hnext hchunk =>
      subst hnext hr
      have hgood := hread maxBytes _ world chunk (h.queue _ List.mem_cons_self)
        (hchunk.imp_right And.left)
      obtain ⟨hs', hq'⟩ := hS _ (.segmentReady chunk, now) hs hgood
      exact of_some hs' (List.forall_mem_append.mpr ⟨hq, hq'⟩)
    | finish | finalize =>
      rw [List.append_nil]
      exact of_none hq
    | _ =>
      rw [List.append_nil]
      exact of_some hs hq

variable {t t' : Thread ρ ω} {heard : Option SessionInput} {es : List Effect}

/-- **What every call of a session keeps** that is given good chunks, a thread keeps,
if the first call gives it. -/
theorem step_of_first (hG : ∀ input, (∀ data, input ≠ .segmentReady data) → G input)
    (h : t.Keeps S A) (hfirst : ∀ role input now, .started role ∈ es → Opens role input →
      S ((Session.new role key.2 config.sessionConfig).step (input, now)).1
        ∧ ∀ x ∈ ((Session.new role key.2 config.sessionConfig).step (input, now)).2, A x)
    (hstep : Thread.Step P config key t heard es t') : t'.Keeps S A := by
  cases hstep with
  | refuse t caller e => exact h
  | fetch writer caller now hr =>
    subst hr
    obtain ⟨hs, hq⟩ := hfirst .receiver (.start 0) now (List.mem_singleton_self _) trivial
    exact of_some hs hq
  | announced writer fr now hfr hr =>
    subst hr
    obtain ⟨hs, hq⟩ := hfirst .receiver (.fileReady fr) now (List.mem_singleton_self _) trivial
    exact of_some hs hq
  | push reader caller length now hr =>
    subst hr
    obtain ⟨hs, hq⟩ := hfirst .sender (.start length) now (List.mem_singleton_self _) trivial
    exact of_some hs hq
  | selected reader sc length now hr =>
    subst hr
    obtain ⟨hs, -⟩ := hfirst .sender (.start length) now (List.mem_singleton_self _) trivial
    exact of_step hS hs (hG (.selectCall sc) nofun) _ _ _ _
  | halfSelected reader length now =>
    obtain ⟨hs, -⟩ := hfirst .sender (.start length) now (List.mem_singleton_self _) trivial
    exact of_some hs (List.forall_mem_nil _)
  | hear active input now hi hr =>
    subst hr
    obtain ⟨asdu, hi⟩ := hi
    refine of_step hS (h.session active rfl) (hG input fun data hd => ?_) _ _ _ _
    exact decodeFtAsdu_ne_segmentReady asdu data (hd ▸ hi)
  | tick active now hr =>
    subst hr
    exact of_step hS (h.session active rfl) (hG .tick nofun) _ _ _ _
  | perform entry action queue world now hp =>
    subst hp
    exact h.perform hS hread world now

omit hS hread in
/-- **What every call of a session keeps**, a thread keeps, if a new session has it. -/
theorem step (hS : ∀ s i, S s → S (Session.step s i).1 ∧ ∀ x ∈ (Session.step s i).2, A x)
    (h : t.Keeps S A)
    (hnew : ∀ role, .started role ∈ es → S (Session.new role key.2 config.sessionConfig))
    (hstep : Thread.Step P config key t heard es t') : t'.Keeps S A :=
  step_of_first (G := fun _ => True) (fun s i hs _ => hS s i hs) (fun _ _ _ _ _ _ => trivial)
    (fun _ _ => trivial) h (fun role _ _ hmem _ => hS _ _ (hnew role hmem)) hstep

end Thread.Keeps

/-- **A session and what is left of its queue**: a live session has nothing in
it that ends it, and one that is over has one such action, at the end. In
front of a completion everything is only sent. -/
inductive Ending (s : Session) : List SessionAction → Prop
  | nil (hs : s.isTerminal = false) : Ending s []
  | last {x : SessionAction} (hx : x.isFinal = true) (hs : s.isTerminal = true) : Ending s [x]
  | cons {x : SessionAction} {q : List SessionAction} (hx : x.isFinal = false)
      (hsend : x.isSend = true ∨ ∀ bytes, .completed bytes ∉ q)
      (h : Ending s q) : Ending s (x :: q)

namespace Ending

variable {s s' : Session} {x : SessionAction} {q : List SessionAction}

/-- Only whether the session is over matters. -/
theorem congr (h : Ending s q) (hs : s'.isTerminal = s.isTerminal) : Ending s' q := by
  induction h with
  | nil h => exact .nil (hs.trans h)
  | last hx h => exact .last hx (hs.trans h)
  | cons hx hsend _ ih => exact .cons hx hsend ih

/-- With an empty queue the session is live. -/
theorem live_of_nil (h : Ending s []) : s.isTerminal = false := by
  cases h with
  | nil hs => exact hs

/-- An action that does not end the session is taken off. -/
theorem tail (h : Ending s (x :: q)) (hx : x.isFinal = false) : Ending s q := by
  cases h with
  | last hx' hs => rw [hx] at hx'; cases hx'
  | cons hx' hsend h => exact h

/-- An action that ends the session is the last one. -/
theorem eq_nil (h : Ending s (x :: q)) (hx : x.isFinal = true) : q = [] := by
  cases h with
  | last hx' hs => rfl
  | cons hx' hsend h => rw [hx] at hx'; cases hx'

/-- In front of a completion everything is sent. -/
theorem not_completed (h : Ending s (x :: q)) (hx : x.isSend = false)
    (bytes : UInt32) : .completed bytes ∉ q := by
  cases h with
  | last hx' hs => exact List.not_mem_nil
  | cons hx' hsend h =>
    obtain hsend | hnone := hsend
    · rw [hx] at hsend
      cases hsend
    · exact hnone bytes

/-- A live session is stepped while there is still something in its queue. -/
theorem append (h : Ending s q) (hs : s.isTerminal = false)
    {acts : List SessionAction} (hacts : Ending s' acts)
    (hnone : ∀ bytes, .completed bytes ∉ acts) : Ending s' (q ++ acts) := by
  induction h with
  | nil _ => exact hacts
  | last hx hs' => rw [hs] at hs'; cases hs'
  | cons hx hsend h ih =>
    refine .cons hx (hsend.imp_right fun hq bytes hb => ?_) ih
    exact (List.mem_append.mp hb).elim (hq bytes) (hnone bytes)

end Ending

/-- The inputs that complete a session. -/
def Session.completes (s : Session) : SessionInput → Bool
  | .lastSection asdu => s.fits (.lastSection asdu)
  | .ackFile asdu => s.fits (.ackFile asdu)
  | _ => false

section Step

variable {s : Session} (hs : s.actions = []) (hlive : s.isTerminal = false)

include hs hlive

theorem ending_onInput (input : SessionInput) (now : Instant) :
    Ending (s.onInput input now) (s.onInput input now).actions := by
  have h := course_onInput hlive input now
  generalize s.onInput input now = d at h ⊢
  cases h with
  | ignore h => rw [hs]; exact .nil hlive
  | refuse | acked => rw [hs]; exact .last rfl rfl
  | select | announce | selected | eof => rw [hs]; exact .cons rfl (Or.inl rfl) (.nil rfl)
  | fileReady asdu hr hst hn =>
    rw [hs]
    exact .cons rfl (Or.inl rfl) (.nil rfl)
  | sectionReady asdu hr hst hn => rw [hs]; exact .nil rfl
  | segment asdu hr hst =>
    rw [hs]
    exact .cons rfl (Or.inr fun _ => List.not_mem_nil) (.nil hlive)
  | last | mismatch =>
    rw [hs]
    exact .cons rfl (Or.inl rfl) (.last rfl rfl)
  | requested asdu hr hst ha =>
    rw [hs]
    refine .cons rfl (Or.inl rfl) ?_
    split
    · exact .nil rfl
    · exact .cons rfl (Or.inr fun _ => List.not_mem_nil) (.nil rfl)
  | chunk data hr hst hd =>
    rw [hs]
    exact .cons rfl (Or.inl rfl) (.cons rfl (Or.inr fun _ => List.not_mem_nil) (.nil hlive))

/-- **The queue of a call has its shape.** -/
theorem ending_step (i : SessionInput × Instant) : Ending (s.step i).1 (s.step i).2 := by
  have h := ending_onInput hs hlive i.1 i.2
  rw [step_of_live hlive]
  obtain ⟨progress, ht⟩ | ⟨hd, ht⟩ :=
    checkTimeout_cases (s.onInput i.1 i.2) i.2
  · rw [ht]
    exact h.congr rfl
  · rw [ht]
    refine h.append hd (.last rfl rfl) fun bytes hb => ?_
    cases List.mem_singleton.mp hb

end Step

section Completes

variable {s : Session}

/-- An input that completes a session fits it. -/
theorem completes_of_not_fits {input : SessionInput} (h : s.fits input = false) :
    s.completes input = false := by
  cases input with
  | lastSection | ackFile => exact h
  | _ => rfl

theorem completed_mem_onInput (hs : s.actions = []) (hlive : s.isTerminal = false)
    (input : SessionInput) (now : Instant) :
    (∃ bytes, .completed bytes ∈ (s.onInput input now).actions) ↔ s.completes input = true := by
  have h := course_onInput hlive input now
  generalize s.onInput input now = d at h ⊢
  cases h with
  | ignore h =>
    rw [completes_of_not_fits (fits_of_ignores h)]
    simp [hs]
  | refuse hf reason h =>
    rw [completes_of_not_fits hf]
    simp [hs]
  | last asdu hr hst hc =>
    refine iff_of_true ⟨s.bytesTransferred, by simp⟩ ?_
    exact decide_eq_true ⟨hr, hst, hc⟩
  | mismatch asdu hr hst hc =>
    refine iff_of_false (by simp [hs]) fun h => ?_
    exact hc (of_decide_eq_true h).2.2
  | acked asdu hr hst ha =>
    refine iff_of_true ⟨s.bytesTransferred, by simp⟩ ?_
    exact decide_eq_true ⟨hr, hst, ha⟩
  | requested asdu hr hst ha =>
    refine iff_of_false ?_ Bool.false_ne_true
    rintro ⟨bytes, hb⟩
    rw [hs] at hb
    split at hb <;> simp at hb
  | _ => exact iff_of_false (by simp [hs]) Bool.false_ne_true

/-- **A call reports a completion exactly if its input completes the
session.** -/
theorem completed_mem_step (hs : s.actions = []) (i : SessionInput × Instant) :
    (∃ bytes, .completed bytes ∈ (s.step i).2) ↔ s.completes i.1 = true := by
  cases hlive : s.isTerminal with
  | true =>
    rw [step_of_terminal hlive, completes_of_not_fits (fits_of_terminal hlive)]
    simp
  | false =>
    rw [← completed_mem_onInput hs hlive i.1 i.2]
    obtain ⟨progress, h⟩ | h := step_cases hlive i
    · rw [h]
    · simp [h]

end Completes

/-- **The shape of a thread.** -/
structure Thread.Shape (t : Thread ρ ω) : Prop where
  unmapped : t.entry = none → t.queue = []
  mapped : ∀ active, t.entry = some active →
    active.session.actions = [] ∧ Ending active.session t.queue

section Shape

variable {P : Provider π ρ ω} {config : FileTransferConfig} {key : Key}
  {active : ActiveSession ρ ω}

theorem Thread.Shape.of_some {q : List SessionAction}
    (ha : active.session.actions = []) (he : Ending active.session q) :
    Thread.Shape ⟨some active, q⟩ where
  unmapped h := nomatch h
  mapped a h := by
    cases h
    exact ⟨ha, he⟩

/-- A live session is stepped. -/
theorem Thread.Shape.of_step {s : Session} (hs : s.actions = [])
    (hlive : s.isTerminal = false) (i : SessionInput × Instant) (reader : Option ρ)
    (writer : Option ω) (reply : Option ℕ) :
    Thread.Shape ⟨some ⟨(s.step i).1, reader, writer, reply⟩, (s.step i).2⟩ :=
  .of_some (actions_step hs i) (ending_step hs hlive i)

/-- A session that has ended is not in the map any more. -/
theorem Thread.Shape.of_none {q : List SessionAction} (hq : q = []) :
    Thread.Shape (⟨none, q⟩ : Thread ρ ω) where
  unmapped _ := hq
  mapped _ h := nomatch h

/-- An action that sends does not end the session. -/
theorem SessionAction.not_isFinal_of_isSend {action : SessionAction}
    (h : action.isSend = true) : action.isFinal = false := by
  cases action <;> first | rfl | cases h

/-- A chunk is handed to the session. -/
theorem Thread.Shape.of_read {q : List SessionAction} (ha : active.session.actions = [])
    (hq : Ending active.session q) (chunk : Bytes) (now : Instant) (reader : Option ρ) :
    Thread.Shape ⟨some { active with
        session := (active.session.step (.segmentReady chunk, now)).1
        reader := reader }, q ++ (active.session.step (.segmentReady chunk, now)).2⟩ := by
  refine .of_some (actions_step ha _) ?_
  cases hlive : active.session.isTerminal with
  | true =>
    rw [step_of_terminal hlive, List.append_nil]
    exact hq
  | false =>
    refine hq.append hlive (ending_step ha hlive _) fun bytes hb => ?_
    exact absurd ((completed_mem_step ha _).mp ⟨bytes, hb⟩) Bool.false_ne_true

/-- Performing an action keeps the shape. -/
theorem Thread.Shape.perform {entry : Option (ActiveSession ρ ω)}
    {action : SessionAction} {q : List SessionAction}
    (h : Thread.Shape ⟨entry, action :: q⟩) (world : π) (now : Instant) :
    Thread.Shape ⟨(FileTransfer.perform P key entry world action now).entry,
      q ++ (FileTransfer.perform P key entry world action now).extra⟩ := by
  cases entry with
  | none => exact absurd (h.unmapped rfl) (List.cons_ne_nil _ _)
  | some active =>
    obtain ⟨ha, he⟩ := h.mapped active rfl
    have hp := performs P key active world now action
    generalize FileTransfer.perform P key (some active) world action now = p at hp ⊢
    -- what is left of the queue is as it was, unless a chunk is read
    cases hp with
    | send hsend =>
      rw [List.append_nil]
      exact .of_some ha (he.tail (SessionAction.not_isFinal_of_isSend hsend))
    | noReader | noWriter | write =>
      rw [List.append_nil]
      exact .of_some ha (he.tail rfl)
    | read maxBytes hr hread chunk hnext =>
      subst hnext
      exact .of_read ha (he.tail rfl) chunk now _
    | finish hfinal | finalize hfinal => exact .of_none (by rw [he.eq_nil hfinal]; rfl)

/-- **A thread keeps its shape.** -/
theorem Thread.Shape.step {t t' : Thread ρ ω} {heard : Option SessionInput}
    {es : List Effect} (h : t.Shape) (hstep : Thread.Step P config key t heard es t') :
    t'.Shape := by
  cases hstep with
  | refuse t caller e => exact h
  | fetch writer caller now hr | push reader caller length now hr
  | announced writer fr now hfr hr | selected reader sc length now hr =>
    subst hr; exact .of_step rfl rfl _ _ _ _
  | halfSelected reader length now => exact .of_some rfl (.nil rfl)
  | hear active input now hi hr | tick active now hr =>
    subst hr
    obtain ⟨ha, he⟩ := h.mapped active rfl
    exact .of_step ha he.live_of_nil _ _ _ _
  | perform entry action queue world now hp =>
    subst hp
    exact h.perform world now

/-- Every thread of a run has its shape. -/
theorem shape_of_run {world : π} {h : List (ServiceCall π ρ ω)} {s : Service π ρ ω}
    (r : Run Service.step (.init P world config) h s) (key : Key) :
    (s.thread key).Shape :=
  thread_invariant (I := fun _ t => t.Shape) r key
    ⟨fun _ => rfl, fun _ h => nomatch h⟩ fun ht hstep => ht.step hstep

end Shape

end FileTransfer
