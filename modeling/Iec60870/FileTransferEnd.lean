import Iec60870.FileTransferThread

/-!
# How a session ends

A session ends in a dozen places: every handler may fail it, two of them
complete it, and after each of them, in the same call, the timeout is checked.
Whoever runs the session counts on hearing of the end once, and of nothing after
it. `Ending` says this of the actions of one call; over a run the actions are
appended, and what is appended to the actions of a session that is over is
empty.

What `Ending` does not say is which of the two ends is reported.
`state_step_eq_completed_iff` ties the state to the input in the same way in
which `completed_mem_step` ties the report to it.

A sender has at most one request at its provider: it asks when the file is
requested, and then once for each chunk that it takes.
-/

namespace FileTransfer

open Iec60870 Machine

/-- The actions of a history, in order. -/
def emitted (h : List Call) : List SessionAction := h.flatMap Machine.Call.actions

theorem emitted_snoc (h : List Call) (s : Session) (i : SessionInput × Instant) :
    emitted (h ++ [call Session.step s i]) = emitted h ++ (s.step i).2 := by
  simp [emitted]

/-- How often the session has taken a chunk, or the end of the file, from its
provider. -/
def consumed (h : List Call) : ℕ :=
  h.countP fun c => c.input.1.isAnswer && c.before.fits c.input.1

theorem consumed_snoc (h : List Call) (s : Session) (i : SessionInput × Instant) :
    consumed (h ++ [call Session.step s i])
      = consumed h + if i.1.isAnswer && s.fits i.1 then 1 else 0 := by
  rw [consumed, List.countP_append, List.countP_singleton]
  rfl

/-! ## What ends a session comes last -/

/-- **Actions of a session that may be over**: if it is, the one that ends it is
the last one, and otherwise there is none. -/
inductive Closes : Bool → List SessionAction → Prop
  | live {acts : List SessionAction} (h : ∀ a ∈ acts, a.isFinal = false) : Closes false acts
  | ended {front : List SessionAction} (h : ∀ a ∈ front, a.isFinal = false)
      {x : SessionAction} (hx : x.isFinal = true) : Closes true (front ++ [x])

namespace Closes

variable {ended : Bool} {acts acts' : List SessionAction}

theorem of_ending {s : Session} (h : Ending s acts) : Closes s.isTerminal acts := by
  induction h with
  | nil hs => rw [hs]; exact .live (List.forall_mem_nil _)
  | last hx hs => rw [hs]; exact .ended (List.forall_mem_nil _) hx
  | @cons x q hx hsend h ih =>
    generalize s.isTerminal = ended at ih ⊢
    cases ih with
    | live hq => exact .live (List.forall_mem_cons.mpr ⟨hx, hq⟩)
    | @ended front hq y hy =>
      have hfront : ∀ a ∈ x :: front, a.isFinal = false :=
        List.forall_mem_cons.mpr ⟨hx, hq⟩
      exact .ended hfront hy

/-- Before the session is over nothing has ended it. -/
theorem append (h : Closes false acts) (h' : Closes ended acts') :
    Closes ended (acts ++ acts') := by
  cases h with
  | live h =>
    cases h' with
    | live h' => exact .live (List.forall_mem_append.mpr ⟨h, h'⟩)
    | @ended front h' x hx =>
      rw [← List.append_assoc]
      exact .ended (List.forall_mem_append.mpr ⟨h, h'⟩) hx

theorem countP_le_one (h : Closes ended acts) : acts.countP SessionAction.isFinal ≤ 1 := by
  have hnone {acts : List SessionAction} (h : ∀ a ∈ acts, a.isFinal = false) :
      acts.countP SessionAction.isFinal = 0 :=
    List.countP_eq_zero.mpr fun a ha => by rw [h a ha]; decide
  cases h with
  | live h => rw [hnone h]; exact Nat.zero_le 1
  | ended h hx => rw [List.countP_append, hnone h, Nat.zero_add, List.countP_singleton, if_pos hx]

/-- Behind an action that ends the session there is none. -/
theorem eq_nil {front rest : List SessionAction} {a : SessionAction}
    (h : Closes ended (front ++ a :: rest)) (ha : a.isFinal = true) : rest = [] := by
  have hmem : a ∈ front ++ a :: rest := List.mem_append_right _ List.mem_cons_self
  generalize hacts : front ++ a :: rest = acts at h hmem
  cases h with
  | live h => rw [h a hmem] at ha; cases ha
  | @ended front' h x hx =>
    cases rest using List.reverseRecOn with
    | nil => rfl
    | append_singleton rest y =>
      -- the last action is `y`, so that `a` stands in front of it
      rw [← List.cons_append, ← List.append_assoc] at hacts
      have hfront := (List.append_inj' hacts rfl).1
      have hin : a ∈ front' := by
        rw [← hfront]
        exact List.mem_append_right _ List.mem_cons_self
      rw [h a hin] at ha
      cases ha

end Closes

/-! ## One call -/

namespace Session

variable {s : Session}

/-- A session that is over is completed or failed. -/
theorem isTerminal_iff : s.isTerminal = true ↔ s.state = .completed ∨ s.state = .failed := by
  rw [isTerminal]
  cases s.state <;> simp

/-- A live session is completed by an input that completes it. -/
theorem state_onInput_eq_completed_iff (hlive : s.isTerminal = false)
    (input : SessionInput) (now : Instant) :
    (s.onInput input now).state = .completed ↔ s.completes input = true := by
  have hstate : s.state ≠ .completed := by
    intro h
    rw [isTerminal, h] at hlive
    cases hlive
  have h := course_onInput hlive input now
  generalize s.onInput input now = d at h ⊢
  cases h with
  | ignore h =>
    rw [completes_of_not_fits (fits_of_ignores h)]
    exact iff_of_false hstate Bool.false_ne_true
  | refuse hf reason h =>
    rw [completes_of_not_fits hf]
    exact iff_of_false (fun h => by cases h) Bool.false_ne_true
  | segment | chunk => exact iff_of_false hstate Bool.false_ne_true
  | last asdu hr hst hc => exact iff_of_true rfl (decide_eq_true ⟨hr, hst, hc⟩)
  | mismatch asdu hr hst hc =>
    exact iff_of_false (fun h => by cases h) fun h => hc (of_decide_eq_true h).2.2
  | acked asdu hr hst ha => exact iff_of_true rfl (decide_eq_true ⟨hr, hst, ha⟩)
  | _ => exact iff_of_false (fun h => by cases h) Bool.false_ne_true

/-- A live session is completed in a call whose input completes it: the timeout
does not come after that. -/
theorem state_step_eq_completed_iff (hlive : s.isTerminal = false) (i : SessionInput × Instant) :
    (s.step i).1.state = .completed ↔ s.completes i.1 = true := by
  have h := state_onInput_eq_completed_iff hlive i.1 i.2
  rw [step_of_live hlive]
  obtain ⟨progress, ht⟩ | ⟨hd, ht⟩ := checkTimeout_cases (s.onInput i.1 i.2) i.2
  · rw [ht]
    exact h
  · rw [ht, ← h]
    refine iff_of_false (fun h => by cases h) fun h => ?_
    rw [isTerminal, h] at hd
    cases hd

/-- **The call that ends a session reports how.** -/
structure ReportsEnd (s : Session) (i : SessionInput × Instant) : Prop where
  completed : (∃ bytes, .completed bytes ∈ (s.step i).2)
    ↔ s.state ≠ .completed ∧ (s.step i).1.state = .completed
  failed : (∃ reason, .failed reason ∈ (s.step i).2)
    ↔ s.state ≠ .failed ∧ (s.step i).1.state = .failed

theorem reportsEnd (hs : s.actions = []) (i : SessionInput × Instant) : s.ReportsEnd i := by
  cases hlive : s.isTerminal with
  | true =>
    constructor
    · rw [step_of_terminal hlive]
      exact iff_of_false (fun ⟨_, h⟩ => List.not_mem_nil h) fun h => h.1 h.2
    · rw [step_of_terminal hlive]
      exact iff_of_false (fun ⟨_, h⟩ => List.not_mem_nil h) fun h => h.1 h.2
  | false =>
    have hne : s.state ≠ .completed ∧ s.state ≠ .failed := by
      rw [← not_or, ← isTerminal_iff, hlive]
      exact Bool.false_ne_true
    have hcompleted : (∃ bytes, .completed bytes ∈ (s.step i).2)
        ↔ (s.step i).1.state = .completed :=
      (completed_mem_step hs i).trans (state_step_eq_completed_iff hlive i).symm
    refine ⟨hcompleted.trans (and_iff_right hne.1).symm, Iff.trans ?_ (and_iff_right hne.2).symm⟩
    have hcloses := Closes.of_ending (ending_step hs hlive i)
    have hover := isTerminal_iff (s := (s.step i).1)
    generalize (s.step i).2 = acts at hcloses hcompleted ⊢
    generalize (s.step i).1.isTerminal = ended at hcloses hover
    cases hcloses with
    | live h =>
      refine iff_of_false (fun ⟨_, hmem⟩ => Bool.false_ne_true (h _ hmem).symm) fun hst => ?_
      exact Bool.false_ne_true (hover.mpr (Or.inr hst))
    | @ended front h x hx =>
      -- the last action says which of the two ends it is
      cases x with
      | completed bytes =>
        refine iff_of_false ?_ ?_
        · rintro ⟨reason, hmem⟩
          obtain hmem | hmem := List.mem_append.mp hmem
          · exact Bool.false_ne_true (h _ hmem).symm
          · cases List.mem_singleton.mp hmem
        · rw [hcompleted.mp ⟨bytes, List.mem_concat_self⟩]
          exact fun h => by cases h
      | failed reason =>
        refine iff_of_true ⟨reason, List.mem_concat_self⟩ ?_
        refine (hover.mp rfl).resolve_left fun hst => ?_
        obtain ⟨bytes, hmem⟩ := hcompleted.mpr hst
        obtain hmem | hmem := List.mem_append.mp hmem
        · exact Bool.false_ne_true (h _ hmem).symm
        · cases List.mem_singleton.mp hmem
      | _ => cases hx

/-! ## The requests of a call -/

/-- The requests that a session may make before it gets an answer: one, until it
has made it, and none while it waits for the answer or is over. -/
def room (s : Session) : ℕ :=
  if s.state = .txSendingSegments ∨ s.isTerminal = true then 0 else 1

theorem room_le_one (s : Session) : s.room ≤ 1 := by
  rw [room]
  split <;> decide

/-- **An input is answered with no more requests than there is room for.** -/
theorem requests_onInput (hs : s.actions = []) (hlive : s.isTerminal = false)
    (input : SessionInput) (now : Instant) :
    (s.onInput input now).actions.countP SessionAction.isRequest + (s.onInput input now).room
      ≤ s.room + if input.isAnswer && s.fits input then 1 else 0 := by
  have hroom (h : s.state ≠ .txSendingSegments) : s.room = 1 := by
    rw [room, if_neg]
    rintro (h' | h')
    · exact h h'
    · rw [hlive] at h'
      cases h'
  -- outside of the loop over the chunks only the first request is made
  have hquiet {d : Session} {n : ℕ} (hst : s.state ≠ .txSendingSegments)
      (hd : d.actions.countP SessionAction.isRequest = 0) :
      d.actions.countP SessionAction.isRequest + d.room ≤ s.room + n := by
    rw [hd, hroom hst, Nat.zero_add]
    exact (room_le_one d).trans (Nat.le_add_right 1 n)
  have h := course_onInput hlive input now
  generalize s.onInput input now = d at h ⊢
  cases h with
  | ignore h =>
    rw [hs]
    exact (Nat.zero_add _).trans_le (Nat.le_add_right _ _)
  | refuse hf reason h =>
    rw [hs]
    exact Nat.zero_le _
  | requested asdu hr hst ha =>
    rw [hroom (by rw [hst]; decide), hs]
    refine Nat.le_add_right_of_le ?_
    cases s.awaitingProvider with
    | true => exact Nat.zero_le 1
    | false => exact Nat.le_refl 1
  | chunk data hr hst hd =>
    rw [hs, fits, decide_eq_true ⟨hr, hst⟩]
    have hwait : s.room = 0 := if_pos (Or.inl hst)
    rw [hwait]
    exact (congrArg (1 + ·) (if_pos (Or.inl hst))).le
  | eof hr hst =>
    rw [hs, fits, decide_eq_true ⟨hr, hst⟩]
    exact Nat.le_add_left 1 s.room
  | selected asdu hr hst ha =>
    refine hquiet ?_ (by rw [hs]; rfl)
    rintro h
    rw [h] at hst
    obtain hst | hst := hst <;> cases hst
  | select length hr hst | fileReady asdu hr hst | sectionReady asdu hr hst
  | segment asdu hr hst | last asdu hr hst | mismatch asdu hr hst | announce length hr hst
  | acked asdu hr hst => exact hquiet (by rw [hst]; decide) (by rw [hs]; rfl)

/-- The timeout asks for nothing. -/
theorem requests_step (hs : s.actions = []) (i : SessionInput × Instant) :
    (s.step i).2.countP SessionAction.isRequest + (s.step i).1.room
      ≤ s.room + if i.1.isAnswer && s.fits i.1 then 1 else 0 := by
  cases hlive : s.isTerminal with
  | true =>
    rw [step_of_terminal hlive]
    exact (Nat.zero_add _).trans_le (Nat.le_add_right _ _)
  | false =>
    have h := requests_onInput hs hlive i.1 i.2
    obtain ⟨progress, hstep⟩ | hstep := step_cases hlive i
    · rw [hstep]
      exact h
    · rw [hstep, List.countP_append]
      exact (Nat.le_add_right _ _).trans h

end Session

/-! ## Every run -/

section Run

variable {role : Role} {nof : NameOfFile} {config : SessionConfig} {h : List Call}
  {s : Session}

/-- What ends a session is the last of all its actions. -/
theorem closes_of_run (r : Run Session.step (.new role nof config) h s) :
    Closes s.isTerminal (emitted h) := by
  induction r with
  | nil => exact .live (List.forall_mem_nil _)
  | @snoc h s r i ih =>
    rw [emitted_snoc]
    cases hlive : s.isTerminal with
    | true =>
      rw [Session.step_of_terminal hlive, List.append_nil]
      exact ih
    | false =>
      rw [hlive] at ih
      exact ih.append (.of_ending (ending_step (actions_of_run r) hlive i))

/-- There is room for what a sender has asked for. -/
theorem requested_of_run (r : Run Session.step (.new role nof config) h s) :
    requested h + s.room ≤ consumed h + 1 := by
  induction r with
  | nil => exact Nat.le_refl 1
  | @snoc h s r i ih =>
    have hstep := Session.requests_step (actions_of_run r) i
    rw [requested_snoc, consumed_snoc]
    omega

/-- **The end of a session is reported once.** For every role, all parameters, and
every sequence of inputs and clock readings: at most one action ends the session,
and no action comes after it; it is a completion or a failure, and comes in the
call in which the session becomes completed or failed; and the session asks its
provider at most once more than it has taken an answer. -/
theorem end_reported_once (r : Run Session.step (.new role nof config) h s) :
    (emitted h).countP SessionAction.isFinal ≤ 1
      ∧ (∀ front a rest, emitted h = front ++ a :: rest → a.isFinal = true → rest = [])
      ∧ (∀ c ∈ h, c.before.ReportsEnd c.input) ∧ requested h ≤ consumed h + 1 := by
  have hcloses := closes_of_run r
  refine ⟨hcloses.countP_le_one, fun front a rest h ha => ?_, fun c hc => ?_, ?_⟩
  · rw [h] at hcloses
    exact hcloses.eq_nil ha
  · obtain ⟨⟨g, hg⟩, -⟩ := r.of_mem hc
    exact Session.reportsEnd (actions_of_run hg) c.input
  · exact (Nat.le_add_right _ _).trans (requested_of_run r)

end Run

/-- A sender that is asked for a file of one octet, and reads, sends and closes
it; it is acknowledged, and then everything is aborted twice. -/
def sentAndAborted : List (SessionInput × Instant) :=
  [(.start 1, 0), (.selectCall ⟨⟨0⟩, ⟨7⟩, ⟨0⟩, Scq.of .selectFile 0⟩, 0),
    (.selectCall ⟨⟨0⟩, ⟨7⟩, ⟨0⟩, Scq.of .requestFile 0⟩, 0), (.segmentReady [42], 0),
    (.segmentReady [], 0), (.ackFile ⟨⟨0⟩, ⟨7⟩, ⟨1⟩, Afq.of .positiveFile 0⟩, 0),
    (.abort, 0), (.abort, 0)]

theorem end_reported_once_acked :
    let run := exec Session.step (.new .sender ⟨7⟩ ⟨240, 30, ⟨0⟩⟩) sentAndAborted
    run.2.state = .completed
      ∧ (emitted run.1).filter SessionAction.isFinal = [.completed 1]
      ∧ requested run.1 = 2 ∧ consumed run.1 = 2
      ∧ (emitted run.1).countP SessionAction.isFinal ≤ 1
      ∧ ∀ c ∈ run.1, c.before.ReportsEnd c.input := by
  intro run
  have h := end_reported_once (run_exec Session.step (.new .sender ⟨7⟩ ⟨240, 30, ⟨0⟩⟩)
    sentAndAborted)
  exact ⟨by decide +kernel, by decide +kernel, by decide +kernel, by decide +kernel, h.1,
    h.2.2.1⟩

end FileTransfer
