import Iec60870.FileTransferThread

/-!
# Storage failures

The provider may fail in the middle of a transfer: `read_segment`,
`write_segment` and `finalize` all return a result. The service looks at none
of them. An error of the reader counts as the end of the file, so that the
section is closed early and, once the peer has acknowledged what it got, the
transfer is reported as completed; an error of the writer is logged, and the
session goes on as if the segment had been stored; and the result of
`finalize` comes after the outcome has been decided.

`faulty` says that a call made for the current session of a key has failed,
and `Honest` that no success is reported then. What decides are the inputs
that complete a session – a positive acknowledgement for a sender, a last
section with the right checksum for a receiver: the reports are honest
exactly if none of them comes after a failed call, and `finalize` does not
fail a completed session (`success_honest_iff`).
-/

namespace FileTransfer

open Iec60870 Machine

variable {π ρ ω : Type}

namespace Effect

/-- A call of the provider that failed. -/
def fails : Effect → Bool
  | .read (.error _) | .wrote _ (.error _) | .finalized _ (.error _) => true
  | _ => false

/-- **The transfer is reported as a success**: to the caller, in an event, or
to the writer. -/
def reportsSuccess : Effect → Bool
  | .replied _ (.ok _) | .finished (.completed _) | .finalized true _ => true
  | _ => false

/-- Whether a call made for the session has failed, after one more effect. A
new session starts afresh. -/
def track (faulty : Bool) : Effect → Bool
  | .started _ => false
  | e => faulty || e.fails

end Effect

/-- **A call made for the current session of a key has failed.** -/
def faulty (es : List Effect) : Bool := es.foldl Effect.track false

/-- **No success is reported for a session that had a failed call**, the call
that reports it included. -/
def Honest (es : List Effect) : Prop :=
  Throughout (fun before e => e.reportsSuccess = true → faulty (before ++ [e]) = false) es

theorem faulty_append (es fs : List Effect) :
    faulty (es ++ fs) = fs.foldl Effect.track (faulty es) :=
  List.foldl_append

/-- **A turn is sound for a key**: an input that completes the session comes
without a failed call before it, and no `finalize` fails a completed
session. -/
def SoundAt (key : Key) (before : List (ServiceCall π ρ ω))
    (c : ServiceCall π ρ ω) : Prop :=
  (∀ input active, c.before.hears c.input.1 key = some input →
    c.before.sessions.lookup key = some active →
    active.session.completes input = true →
    faulty (effectsAt key (effects before)) = false)
  ∧ ∀ e, .finalized true (.error e) ∉ effectsAt key c.actions

/-! ## Lists of effects -/

section Lists

variable (es : List Effect) {fs : List Effect}

/-- Effects that report no success change nothing. -/
theorem honest_append_quiet (h : ∀ e ∈ fs, e.reportsSuccess = false) :
    Honest (es ++ fs) ↔ Honest es := by
  induction fs using List.reverseRecOn with
  | nil => rw [List.append_nil]
  | append_singleton fs e ih =>
    have hfs : ∀ e ∈ fs, e.reportsSuccess = false := fun e he =>
      h e (List.mem_append_left _ he)
    have he : e.reportsSuccess = false :=
      h e List.mem_concat_self
    rw [← List.append_assoc, Honest, throughout_snoc, he]
    refine (and_iff_left fun h => absurd h Bool.false_ne_true).trans (ih hfs)

/-- The effects that tell of a completed session. -/
def Effect.tells (e : Effect) : Prop :=
  e.reportsSuccess = true ∧ ∀ b, e.track b = b

theorem faulty_append_tells (h : ∀ e ∈ fs, e.tells) : faulty (es ++ fs) = faulty es := by
  rw [faulty_append]
  generalize faulty es = b
  induction fs with
  | nil => rfl
  | cons e fs ih =>
    rw [List.foldl_cons, (h e List.mem_cons_self).2]
    exact ih fun e he => h e (List.mem_cons_of_mem _ he)

/-- Telling of a success is honest if nothing has failed. -/
theorem honest_append_tells (h : ∀ e ∈ fs, e.tells) (hne : fs ≠ []) :
    Honest (es ++ fs) ↔ Honest es ∧ faulty es = false := by
  induction fs using List.reverseRecOn with
  | nil => exact absurd rfl hne
  | append_singleton fs e ih =>
    have hfs : ∀ e ∈ fs, e.tells := fun e he => h e (List.mem_append_left _ he)
    have hsucc : e.reportsSuccess = true :=
      (h e List.mem_concat_self).1
    have hlast : Honest (es ++ (fs ++ [e])) ↔ Honest (es ++ fs) ∧ faulty es = false := by
      rw [← List.append_assoc, Honest, throughout_snoc, List.append_assoc, faulty_append_tells es h]
      exact and_congr_right fun _ => ⟨fun h => h hsucc, fun h _ => h⟩
    rw [hlast]
    by_cases hnil : fs = []
    · rw [hnil, List.append_nil]
    · rw [ih hfs hnil, and_assoc, and_self]

end Lists

/-! ## One step of a thread -/

/-- A completion is still to be performed. -/
def Thread.Pending (t : Thread ρ ω) : Prop := ∃ bytes, .completed bytes ∈ t.queue

/-- What holds of the effects and the thread of a key: the reports are honest,
and so will be the report of a completion that is still to be performed. -/
def HonestSoFar (es : List Effect) (t : Thread ρ ω) : Prop :=
  Honest es ∧ (t.Pending → faulty es = false)

/-- A step is sound: see `SoundAt`. -/
def Thread.Sound (t : Thread ρ ω) (es : List Effect) (heard : Option SessionInput)
    (es' : List Effect) : Prop :=
  (∀ input active, heard = some input → t.entry = some active →
    active.session.completes input = true → faulty es = false)
  ∧ ∀ e, .finalized true (.error e) ∉ es'

/-- A step that reports no success and in which nothing is heard is sound. -/
theorem Thread.sound_quiet (t : Thread ρ ω) (es : List Effect) {es' : List Effect}
    (hq : ∀ e ∈ es', e.reportsSuccess = false) : t.Sound es none es' :=
  ⟨(fun _ _ h => nomatch h), fun _ he => absurd (hq _ he) (Ne.symm Bool.false_ne_true)⟩

section Quiet

variable (es : List Effect) {t t' : Thread ρ ω} {es' : List Effect}
  (hq : ∀ e ∈ es', e.reportsSuccess = false)

include hq

/-- A step that reports no success, and after which a completion is as honest as before. -/
theorem honestSoFar_of_quiet
    (h : (t'.Pending → faulty (es ++ es') = false) ↔ (t.Pending → faulty es = false)) :
    HonestSoFar (es ++ es') t' ↔ HonestSoFar es t ∧ t.Sound es none es' := by
  rw [and_iff_left (t.sound_quiet es hq)]
  unfold HonestSoFar
  rw [honest_append_quiet es hq, h]

/-- There is no completion before and after it. -/
theorem honestSoFar_quiet (hp : ¬ t.Pending) (hp' : ¬ t'.Pending) :
    HonestSoFar (es ++ es') t' ↔ HonestSoFar es t ∧ t.Sound es none es' :=
  honestSoFar_of_quiet es hq (iff_of_true (fun h => absurd h hp') fun h => absurd h hp)

/-- Nothing has failed after it, and there is no completion before it. -/
theorem honestSoFar_fresh (hp : ¬ t.Pending) (hf : faulty (es ++ es') = false) :
    HonestSoFar (es ++ es') t' ↔ HonestSoFar es t ∧ t.Sound es none es' :=
  honestSoFar_of_quiet es hq (iff_of_true (fun _ => hf) fun h => absurd h hp)

/-- It does not fail, and leaves the completion where it is. -/
theorem honestSoFar_same (hp : t'.Pending ↔ t.Pending) (hf : faulty (es ++ es') = faulty es) :
    HonestSoFar (es ++ es') t' ↔ HonestSoFar es t ∧ t.Sound es none es' :=
  honestSoFar_of_quiet es hq (by rw [hf, hp])

end Quiet

section Perform

variable {P : Provider π ρ ω} {key : Key} (es : List Effect)
  {active : ActiveSession ρ ω} {queue : List SessionAction} (world : π)
  (now : Instant)

/-- A session is opened. -/
theorem honestSoFar_opens (role : Role) (t' : Thread ρ ω) :
    HonestSoFar (es ++ [.started role]) t' ↔ HonestSoFar es (⟨none, []⟩ : Thread ρ ω)
        ∧ Thread.Sound (⟨none, []⟩ : Thread ρ ω) es none [.started role] := by
  refine honestSoFar_fresh es (fun e he => ?_) (fun ⟨_, hb⟩ => ?_) ?_
  · rw [List.mem_singleton.mp he]
    rfl
  · exact absurd hb List.not_mem_nil
  · rw [faulty_append]
    rfl

/-- A session hears something. -/
theorem honestSoFar_hear (ha : active.session.actions = []) (i : SessionInput × Instant) :
    HonestSoFar (es ++ []) (⟨some { active with session := (active.session.step i).1 },
        (active.session.step i).2⟩ : Thread ρ ω)
      ↔ HonestSoFar es (⟨some active, []⟩ : Thread ρ ω)
        ∧ Thread.Sound (⟨some active, []⟩ : Thread ρ ω) es (some i.1) [] := by
  have hpend : ¬ Thread.Pending (⟨some active, []⟩ : Thread ρ ω) :=
    fun ⟨_, hb⟩ => absurd hb List.not_mem_nil
  have hpend' : Thread.Pending (⟨some { active with
      session := (active.session.step i).1 }, (active.session.step i).2⟩ : Thread ρ ω)
      ↔ active.session.completes i.1 = true := completed_mem_step ha i
  unfold HonestSoFar
  rw [List.append_nil, hpend', and_assoc]
  refine and_congr_right fun _ => ⟨fun h => ⟨fun hp => absurd hp hpend, ?_, ?_⟩, ?_⟩
  · rintro input a ⟨⟩ ⟨⟩ hc
    exact h hc
  · exact fun _ => List.not_mem_nil
  · rintro ⟨-, h, -⟩ hc
    exact h i.1 active rfl rfl hc

/-- The timer does not complete a session. -/
theorem honestSoFar_tick (ha : active.session.actions = []) : HonestSoFar (es ++ [])
        (⟨some { active with session := (active.session.step (.tick, now)).1 },
          (active.session.step (.tick, now)).2⟩ : Thread ρ ω)
      ↔ HonestSoFar es (⟨some active, []⟩ : Thread ρ ω)
        ∧ Thread.Sound (⟨some active, []⟩ : Thread ρ ω) es none [] := by
  refine honestSoFar_quiet es (fun _ he => absurd he List.not_mem_nil)
    (fun ⟨_, hb⟩ => absurd hb List.not_mem_nil) fun hp => ?_
  exact absurd ((completed_mem_step ha (.tick, now)).mp hp) Bool.false_ne_true

/-- There is no completion behind an action that is not only sent. -/
theorem not_pending_of_not_isSend {x : SessionAction}
    (he : Ending active.session (x :: queue)) (hx : x.isSend = false)
    (hc : ∀ bytes, x ≠ .completed bytes) :
    ¬ Thread.Pending (⟨some active, x :: queue⟩ : Thread ρ ω) := by
  rintro ⟨bytes, hb⟩
  obtain hb | hb := List.mem_cons.mp hb
  · exact hc bytes hb.symm
  · exact he.not_completed hx bytes hb

/-- What tells of a completion. -/
theorem tells_completed (reply : Option ℕ) (bytes : UInt32) :
    ∀ e ∈ told reply (.completed bytes), e.tells := by
  have hfinished : (Effect.finished (.completed bytes)).tells :=
    ⟨rfl, fun b => Bool.or_false b⟩
  cases reply with
  | none =>
    intro e he
    rw [List.mem_singleton.mp he]
    exact hfinished
  | some caller =>
    intro e he
    obtain rfl | he := List.mem_cons.mp he
    · exact ⟨rfl, fun b => Bool.or_false b⟩
    · rw [List.mem_singleton.mp he]
      exact hfinished

/-- What tells of a failure reports no success. -/
theorem reportsSuccess_failed (reply : Option ℕ) (reason : FailureReason) :
    ∀ e ∈ told reply (.failed reason), e.reportsSuccess = false := by
  cases reply <;> simp [told, Effect.reportsSuccess, FileTransferOutcome.result]

/-- What tells of a completion is no failed call of `finalize`. -/
theorem finalized_error_not_mem {told : List Effect} (htold : ∀ e ∈ told, e.tells)
    (e : FileTransferError) : .finalized true (.error e) ∉ told := by
  intro hmem
  have htrack := (htold _ hmem).2 false
  simp [Effect.track, Effect.fails] at htrack

/-- Closing the writer and telling of a completion is honest if nothing has
failed, the closing included. -/
theorem honest_append_finalized (result : Except FileTransferError Unit)
    {told : List Effect} (htold : ∀ e ∈ told, e.tells) (hne : told ≠ []) :
    Honest (es ++ .finalized true result :: told) ↔ Honest es ∧ faulty es = false
      ∧ ∀ e, .finalized true (.error e) ∉ Effect.finalized true result :: told := by
  have hfaulty : faulty (es ++ [.finalized true result])
      = (faulty es || (Effect.finalized true result).fails) := faulty_append es _
  -- The call of `finalize` is itself a report of success, and what is told
  -- after it adds nothing.
  have hlast : Honest (es ++ [.finalized true result])
      ↔ Honest es ∧ faulty (es ++ [.finalized true result]) = false := by
    rw [Honest, throughout_snoc]
    exact and_congr_right fun _ => ⟨fun h => h rfl, fun h _ => h⟩
  rw [List.append_cons, honest_append_tells _ htold hne, hlast, and_assoc, and_self, hfaulty]
  refine and_congr_right fun _ => ?_
  cases result with
  | ok | error => simp [Effect.fails, finalized_error_not_mem htold]

/-- With a completion to perform, a step in which nothing is heard is sound if
nothing has failed and the step does not call `finalize` in vain. -/
theorem honestSoFar_and_sound_iff {t : Thread ρ ω} (hp : t.Pending)
    (es' : List Effect) : HonestSoFar es t ∧ t.Sound es none es'
      ↔ Honest es ∧ faulty es = false ∧ ∀ e, .finalized true (.error e) ∉ es' := by
  unfold HonestSoFar Thread.Sound
  rw [and_assoc]
  exact and_congr_right fun _ => and_congr ⟨fun h => h hp, fun h _ => h⟩
    (and_iff_right fun _ _ h => nomatch h)

/-- **A session completes**: this is honest if what it adds is, after nothing has
failed. -/
theorem honestSoFar_completed {bytes : UInt32} {es' : List Effect}
    (he : Ending active.session (.completed bytes :: queue))
    (h : Honest (es ++ es')
      ↔ Honest es ∧ faulty es = false ∧ ∀ e, .finalized true (.error e) ∉ es') :
    HonestSoFar (es ++ es') (⟨none, queue ++ []⟩ : Thread ρ ω)
      ↔ HonestSoFar es (⟨some active, .completed bytes :: queue⟩ : Thread ρ ω)
        ∧ Thread.Sound (⟨some active, .completed bytes :: queue⟩ : Thread ρ ω) es none es' := by
  obtain rfl := he.eq_nil rfl
  rw [honestSoFar_and_sound_iff es ⟨bytes, List.mem_singleton_self _⟩, ← h]
  exact and_iff_left fun ⟨_, hb⟩ => absurd hb List.not_mem_nil

/-- What is done to a session is sound for what is reported. -/
theorem honestSoFar_performs {action : SessionAction} {p : Performed π ρ ω}
    (ha : active.session.actions = []) (he : Ending active.session (action :: queue))
    (hp : Performs P key active world now action p) :
    HonestSoFar (es ++ p.effects) ⟨p.entry, queue ++ p.extra⟩
      ↔ HonestSoFar es ⟨some active, action :: queue⟩
        ∧ Thread.Sound ⟨some active, action :: queue⟩ es none p.effects := by
  -- no completion, and no success is reported
  have hquiet (hx : action.isSend = false) (hc : ∀ bytes, action ≠ .completed bytes)
      (hq : ∀ e ∈ p.effects, e.reportsSuccess = false)
      (hextra : ∀ bytes, .completed bytes ∉ p.extra) :
      HonestSoFar (es ++ p.effects) (⟨p.entry, queue ++ p.extra⟩ : Thread ρ ω) ↔ _ :=
    honestSoFar_quiet es hq
      (not_pending_of_not_isSend he hx hc) fun ⟨bytes, hb⟩ =>
        (List.mem_append.mp hb).elim (he.not_completed hx bytes) (hextra bytes)
  cases hp with
  | send hsend =>
    have hne (bytes : UInt32) : .completed bytes ≠ action := by
      rintro rfl
      cases hsend
    refine honestSoFar_same es ?_ ?_ ?_
    · simp [Effect.reportsSuccess]
    · simp [Thread.Pending, hne]
    · cases message key.1 action with
      | none => exact congrArg faulty (List.append_nil es)
      | some m => exact (faulty_append es [.command m]).trans (Bool.or_false _)
  | noReader | noWriter | write =>
    exact hquiet rfl (fun _ h => by cases h) (by simp [Effect.reportsSuccess]) (by simp)
  | read maxBytes hreader hr chunk hnext =>
    subst hnext
    refine hquiet rfl (fun _ h => by cases h) (by simp [Effect.reportsSuccess]) fun bytes hb => ?_
    exact absurd ((completed_mem_step ha _).mp ⟨bytes, hb⟩) Bool.false_ne_true
  | finish hfinal outcome hw houtcome =>
    cases action with
    | completed bytes =>
      cases houtcome
      have htells := tells_completed active.reply bytes
      refine honestSoFar_completed es he ((honest_append_tells es htells (by simp [told])).trans ?_)
      exact and_congr_right fun _ => (and_iff_left (finalized_error_not_mem htells)).symm
    | failed reason =>
      cases houtcome
      exact hquiet rfl (fun _ h => by cases h) (reportsSuccess_failed active.reply reason) (by simp)
    | _ => cases hfinal
  | finalize hfinal outcome hw hr houtcome =>
    cases action with
    | completed bytes =>
      cases houtcome
      have htells := tells_completed active.reply bytes
      exact honestSoFar_completed es he (honest_append_finalized es _ htells (by simp [told]))
    | failed reason =>
      cases houtcome
      refine hquiet rfl (fun _ h => by cases h) (List.forall_mem_cons.mpr ⟨rfl, ?_⟩) (by simp)
      exact reportsSuccess_failed active.reply reason
    | _ => cases hfinal

/-- **Performing an action is sound for what is reported.** -/
theorem honestSoFar_perform {entry : Option (ActiveSession ρ ω)}
    {action : SessionAction} (h : Thread.Shape ⟨entry, action :: queue⟩) :
    HonestSoFar (es ++ (perform P key entry world action now).effects)
        ⟨(perform P key entry world action now).entry,
          queue ++ (perform P key entry world action now).extra⟩
      ↔ HonestSoFar es ⟨entry, action :: queue⟩ ∧ Thread.Sound ⟨entry, action :: queue⟩ es none
          (perform P key entry world action now).effects := by
  cases entry with
  | none => exact absurd (h.unmapped rfl) (List.cons_ne_nil _ _)
  | some active =>
    obtain ⟨ha, he⟩ := h.mapped active rfl
    exact honestSoFar_performs es world now ha he (performs P key active world now action)

end Perform

/-- **A step of a thread keeps its reports honest exactly if it is sound.** -/
theorem honestSoFar_step {P : Provider π ρ ω} {config : FileTransferConfig} {key : Key}
    (es : List Effect) {t t' : Thread ρ ω} {heard : Option SessionInput}
    {es' : List Effect} (h : t.Shape)
    (hstep : Thread.Step P config key t heard es' t') :
    HonestSoFar (es ++ es') t' ↔ HonestSoFar es t ∧ t.Sound es heard es' := by
  cases hstep with
  | refuse t caller e =>
    refine honestSoFar_same es (fun e he => ?_) Iff.rfl ?_
    · rw [List.mem_singleton.mp he]
      rfl
    · rw [faulty_append]
      exact Bool.or_false _
  | fetch | push | announced | selected | halfSelected => exact honestSoFar_opens es _ _
  | hear active input now hi hr =>
    subst hr
    exact honestSoFar_hear es (h.mapped active rfl).1 (input, now)
  | tick active now hr =>
    subst hr
    exact honestSoFar_tick es now (h.mapped active rfl).1
  | perform entry action queue world now hp =>
    subst hp
    exact honestSoFar_perform es world now h

/-! ## Every run -/

section Run

variable {P : Provider π ρ ω} {world : π} {config : FileTransferConfig}
  {h : List (ServiceCall π ρ ω)} {s : Service π ρ ω}

/-- At every point of a run the reports of a key are honest, and a pending one
will be, exactly if the turns so far were sound for it. -/
theorem honestSoFar_iff (r : Run Service.step (.init P world config) h s)
    (key : Key) : HonestSoFar (effectsAt key (effects h)) (s.thread key)
      ↔ Throughout (SoundAt key) h := by
  induction r with
  | nil =>
    refine iff_of_true ⟨throughout_nil _, fun ⟨_, hb⟩ => ?_⟩ (throughout_nil _)
    exact absurd hb List.not_mem_nil
  | @snoc h s r i ih =>
    have hshape := shape_of_run r key
    rw [effects_snoc, effectsAt_append, throughout_snoc, ← ih]
    obtain ⟨hheard, hes, ht⟩ | hstep := thread_step s i key
    · rw [hes, ht, List.append_nil]
      refine (and_iff_left ⟨fun input active hi => ?_, fun e he => ?_⟩).symm
      · exact absurd (hheard.symm.trans hi) nofun
      · exact absurd (hes ▸ he) List.not_mem_nil
    · exact honestSoFar_step _ hshape hstep

/-- **A success is reported honestly exactly if no transfer is completed after
a failed call.** For every provider and every run of the service that has
worked off what it was given: no session is reported as a success – to its
caller, in an event or to its writer – that had a failed call of
`read_segment`, `write_segment` or `finalize`, if and only if every positive
acknowledgement or last section that completes a session finds no failed call
before it, and `finalize` fails no completed session. -/
theorem success_honest_iff (r : Run Service.step (.init P world config) h s)
    (hrest : s.work = none) : (∀ key, Honest (effectsAt key (effects h)))
      ↔ ∀ key, Throughout (SoundAt key) h := by
  refine forall_congr' fun key => ?_
  rw [← honestSoFar_iff r key, thread_of_rest s hrest]
  refine (and_iff_left fun ⟨_, hb⟩ => ?_).symm
  exact absurd hb List.not_mem_nil

end Run

instance (es : List Effect) : Decidable (Honest es) :=
  inferInstanceAs (Decidable (Throughout _ es))

/-! ## Scripted providers -/

/-- The answers of a provider, in order. -/
structure Script where
  reads : List (Except FileTransferError (Option Bytes))
  writes : List (Except FileTransferError Unit)
  finals : List (Except FileTransferError Unit)

/-- A provider that has every file, of length `length`, and answers from a
script. -/
def scripted (length : UInt32) : Provider Script Unit Unit where
  lookup _ w := (.ok (some ⟨length⟩), w)
  openRead _ w := (.ok (), w)
  openWrite _ _ w := (.ok (), w)
  readSegment _ _ w :=
    ((w.reads.headD (.ok none), ()), { w with reads := w.reads.tail })
  writeSegment _ _ w :=
    ((w.writes.headD (.ok ()), ()), { w with writes := w.writes.tail })
  finalize _ _ w := (w.finals.headD (.ok ()), { w with finals := w.finals.tail })

/-- An ASDU of the peer. -/
def peerAsdu {Q : Type} (T : Payload Q) (p : Q) : ServiceInput × Instant :=
  (.route ⟨1⟩ (Asdu.fromPayload T (Cot.of Cause.fileTransfer) ⟨1⟩ (Vsq.single 1) p
    AsduAddressing.iec104), 0)

/-- The peer fetches a file of one chunk, and acknowledges it. -/
def servedFile : List (ServiceInput × Instant) :=
  [peerAsdu F_SC_NA_1.payload ⟨⟨0⟩, ⟨7⟩, ⟨0⟩, Scq.of .selectFile 0⟩, (.run none, 0), (.run none, 0),
    peerAsdu F_SC_NA_1.payload ⟨⟨0⟩, ⟨7⟩, ⟨0⟩, Scq.of .requestFile 0⟩,
    (.run none, 0), (.run none, 0), (.run none, 0), (.run none, 0), (.run none, 0),
    (.run none, 0),
    peerAsdu F_AF_NA_1.payload ⟨⟨0⟩, ⟨7⟩, ⟨1⟩, Afq.of .positiveFile 0⟩,
    (.run none, 0), (.run none, 0)]

/-- A file that is read without an error is reported as served, honestly. -/
theorem success_honest_served :
    let run := exec Service.step
      (.init (scripted 1) ⟨[.ok (some [42])], [], []⟩ .default) servedFile
    ((⟨1⟩, ⟨7⟩), .finished (.completed 1)) ∈ effects run.1
      ∧ Honest (effectsAt (⟨1⟩, ⟨7⟩) (effects run.1))
      ∧ ((∀ key, Honest (effectsAt key (effects run.1)))
        ↔ ∀ key, Throughout (SoundAt key) run.1) := by
  intro run
  have hrest : run.2.work = none := by decide +kernel
  exact ⟨by decide +kernel, by decide +kernel,
    success_honest_iff (run_exec _ _ _) hrest⟩

/-- **A reader that fails is reported as served**: the second call of
`read_segment` returns an error, and the transfer is completed with the first
chunk. -/
theorem success_dishonest_readError : ∃ h s, Run Service.step
        (.init (scripted 2) ⟨[.ok (some [42]), .error .permissionDenied], [], []⟩
          .default) h s ∧ s.work = none
      ∧ ((⟨1⟩, ⟨7⟩), .read (.error .permissionDenied)) ∈ effects h
      ∧ ((⟨1⟩, ⟨7⟩), .finished (.completed 1)) ∈ effects h
      ∧ ¬ Honest (effectsAt (⟨1⟩, ⟨7⟩) (effects h)) :=
  ⟨_, _, run_exec _ _ servedFile, by decide +kernel, by decide +kernel,
    by decide +kernel, by decide +kernel⟩

end FileTransfer
