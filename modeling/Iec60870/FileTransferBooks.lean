import Iec60870.FileTransferFailure

/-!
# The books of the service

The service opens sessions on three paths – an intent of the application, a
file that the peer announces, one that the peer selects – and closes them in
one place, `finalize_session`, in the middle of a queue that it goes on to work
off. Nothing may be lost or done twice on the way: a caller waits for its
reply, a writer has to be finalized, and a session that stays in the map for
ever is a slot less for the others.

What a session holds until it ends – its place in the map, its writer, its
caller – is an `Account`, with the effect that gives it back. Performing an
action keeps every account (`Account.perform`), so over a run what has been
taken is what has been given back and what the session in the map still holds
(`Account.balance`, and `replies_of_run` for the callers, whose intents come in
through a queue). A turn that takes a session out of the map gives back all of
it, each once (`settled_of_removed`). Together with the bound on the map and
with what is known of a session in it, this is `books_of_run`.
-/

namespace FileTransfer

open Iec60870 Machine

variable {π ρ ω : Type} {P : Provider π ρ ω} {world : π} {config : FileTransferConfig}
  {h : List (ServiceCall π ρ ω)} {s : Service π ρ ω}

/-! ## Sessions in the map -/

namespace Session

variable {s : Session}

/-- A call does not change the file name, and no session goes back to `Idle`. -/
theorem name_step (i : SessionInput × Instant) :
    (s.step i).1.nof = s.nof ∧ (s.state ≠ .idle → (s.step i).1.state ≠ .idle) := by
  have honInput (input : SessionInput) (now : Instant) (hlive : s.isTerminal = false) :
      (s.onInput input now).nof = s.nof
        ∧ (s.state ≠ .idle → (s.onInput input now).state ≠ .idle) := by
    have h := course_onInput hlive input now
    generalize s.onInput input now = d at h ⊢
    cases h with
    | ignore | segment | chunk => exact ⟨rfl, id⟩
    | _ => exact ⟨rfl, fun _ => nofun⟩
  cases hlive : s.isTerminal with
  | true =>
    rw [step_of_terminal hlive]
    exact ⟨rfl, id⟩
  | false =>
    obtain ⟨progress, h⟩ | h := step_cases hlive i
    · rw [h]
      exact honInput i.1 i.2 hlive
    · rw [h]
      exact ⟨(honInput i.1 i.2 hlive).1, fun _ => nofun⟩

/-- A call leaves a session that is under way with its timer running. -/
theorem timer_step (i : SessionInput × Instant) (hlive : (s.step i).1.isTerminal = false)
    (hstate : (s.step i).1.state ≠ .idle) : (s.step i).1.lastProgress ≠ none := by
  cases hs : s.isTerminal with
  | true =>
    rw [step_of_terminal hs] at hlive
    exact absurd (hlive.symm.trans hs) Bool.false_ne_true
  | false =>
    rw [step_of_live hs] at hlive hstate ⊢
    generalize s.onInput i.1 i.2 = d at hlive hstate ⊢
    dsimp only at hstate ⊢
    unfold checkTimeout at hlive hstate ⊢
    split
    · rename_i hd
      rw [if_pos hd] at hlive
      exact absurd (hlive.symm.trans hd) Bool.false_ne_true
    · rename_i hd
      rw [if_neg hd] at hstate
      split
      · rename_i hidle
        rw [if_pos hidle] at hstate
        exact absurd hidle hstate
      · split
        · rename_i last hlast
          split
          · rw [fail_of_live (Bool.not_eq_true _ ▸ hd)]
            exact hlast ▸ Option.some_ne_none last
          · exact hlast ▸ Option.some_ne_none last
        · exact Option.some_ne_none i.2

/-- **The idle timeout applies** to a session that is under way. -/
theorem tick_of_idle {last now : Instant} (hlive : s.isTerminal = false)
    (hstate : s.state ≠ .idle) (hs : s.actions = []) (hlast : s.lastProgress = some last)
    (hnow : now - last ≥ s.config.idleTimeout) :
    (s.step (.tick, now)).2 = [.failed .timeout] := by
  have htick : s.onInput .tick now = s := rfl
  rw [step_of_live hlive]
  show ((s.onInput .tick now).checkTimeout now).actions = _
  rw [htick, checkTimeout, if_neg (by rw [hlive]; decide), if_neg hstate, hlast]
  dsimp only
  rw [if_pos hnow, fail_of_live hlive, hs]
  rfl

end Session

/-- **A session at a key is under way**: it has the file name of the key and
has left `Idle`, and while it lives its timer runs. -/
structure Session.Underway (key : Key) (s : Session) : Prop where
  nof : s.nof = key.2
  state : s.state ≠ .idle
  timer : s.isTerminal = false → s.lastProgress ≠ none

section Underway

variable {P : Provider π ρ ω} {config : FileTransferConfig} {key : Key} {s : Session}

theorem Session.Underway.step (h : s.Underway key)
    (i : SessionInput × Instant) : (s.step i).1.Underway key where
  nof := (name_step i).1.trans h.nof
  state := (name_step i).2 h.state
  timer hlive := timer_step i hlive ((name_step i).2 h.state)

/-- The first call of a session sets it going. -/
theorem Session.Underway.first {i : SessionInput × Instant}
    (state : SessionState) (hnof : s.nof = key.2) (hs : (s.step i).1.state = state)
    (hstate : state ≠ .idle) : (s.step i).1.Underway key where
  nof := (name_step i).1.trans hnof
  state := hs ▸ hstate
  timer hlive := timer_step i hlive (hs ▸ hstate)

/-- **A step keeps the session of a thread under way.** -/
theorem underway_step {t t' : Thread ρ ω} {heard : Option SessionInput}
    {es : List Effect} (h : ∀ active ∈ t.entry, active.session.Underway key)
    (hstep : Thread.Step P config key t heard es t') :
    ∀ active ∈ t'.entry, active.session.Underway key := by
  have hkeeps : t.Keeps (Session.Underway key) fun _ => True := ⟨h, fun _ _ => trivial⟩
  refine (hkeeps.step_of_first (G := fun _ => True)
    (fun s i hs _ => ⟨hs.step i, fun _ _ => trivial⟩) (fun _ _ _ _ _ _ => trivial)
    (fun _ _ => trivial) (fun role input now _ hopens => ⟨?_, fun _ _ => trivial⟩) hstep).session
  cases input with
  | start length =>
    cases role with
    | sender => exact .first .txAwaitSelect rfl rfl (by decide)
    | receiver => exact .first .rxAwaitFileReady rfl rfl (by decide)
  | fileReady fr =>
    cases role with
    | sender => cases hopens
    | receiver =>
      -- a receiver that has asked for nothing takes the announcement for an error
      exact .first .failed rfl rfl (by decide)
  | _ => cases role <;> cases hopens

end Underway

/-! ## The number of sessions -/

section Keys

variable {α : Type} {β : α → Type} [DecidableEq α] (m : AList β) {a : α}

theorem length_keys_erase_le : (m.erase a).keys.length ≤ m.keys.length := by
  rw [AList.keys_erase]
  exact List.length_erase_le

theorem length_keys_insert_le (b : β a) : (m.insert a b).keys.length ≤ m.keys.length + 1 := by
  rw [AList.keys_insert, List.length_cons]
  exact Nat.succ_le_succ List.length_erase_le

theorem length_keys_insert_of_mem (h : a ∈ m) (b : β a) :
    (m.insert a b).keys.length = m.keys.length := by
  have hmem : a ∈ m.keys := AList.mem_keys.mpr h
  rw [AList.keys_insert, List.length_cons, List.length_erase_of_mem hmem]
  exact Nat.sub_add_cancel (List.length_pos_of_mem hmem)

end Keys

section Size

variable (s : Service π ρ ω) {k : Key}

theorem size_put_of_mem (hk : k ∈ s.sessions) (entry : Option (ActiveSession ρ ω)) :
    (s.put k entry).sessions.keys.length ≤ s.sessions.keys.length := by
  cases entry with
  | none => exact length_keys_erase_le _
  | some active => exact (length_keys_insert_of_mem _ hk _).le

theorem mem_of_lookup {active : ActiveSession ρ ω} (h : s.sessions.lookup k = some active) :
    k ∈ s.sessions :=
  AList.lookup_isSome.mp (by rw [h]; rfl)

theorem size_stepSession (input : SessionInput) (now : Instant) (ticks : List Key) :
    (s.stepSession k input now ticks).sessions.keys.length ≤ s.sessions.keys.length := by
  unfold Service.stepSession
  split
  · rename_i active hactive
    exact size_put_of_mem s (mem_of_lookup s hactive) (some _)
  · exact le_rfl

theorem size_onWork (w : Work) (now : Instant) :
    (s.onWork w now).1.sessions.keys.length ≤ s.sessions.keys.length := by
  unfold Service.onWork
  split
  · rename_i action queue _
    cases hl : s.sessions.lookup w.key with
    | none =>
      obtain ⟨asdu, hnone⟩ := perform_none s.provider w.key s.world now action
      dsimp only
      rw [hnone]
      exact length_keys_erase_le s.sessions
    | some active =>
      exact size_put_of_mem { s with world := _ } (mem_of_lookup s hl) _
  · exact size_stepSession ..
  · exact le_rfl

/-- The map is within its bound. -/
def Service.Bounded : Prop :=
  s.sessions.keys.length ≤ s.config.maxConcurrentSessions

variable {s}

theorem bounded_of_frame {t : Service π ρ ω} (hframe : t.frame = s.frame)
    (h : t.sessions.keys.length ≤ s.config.maxConcurrentSessions) : t.Bounded := by
  unfold Service.Bounded
  rwa [show t.config = s.config from congrArg (fun f => f.2.1) hframe]

/-- A session is opened where there is room for it. -/
theorem bounded_openSession (hroom : s.isFull = false) (world : π)
    (active : ActiveSession ρ ω) (actions : List SessionAction) (now : Instant) :
    (Service.openSession { s with world := world } k active actions now).Bounded :=
  (length_keys_insert_le s.sessions active).trans (not_le.mp (of_decide_eq_false hroom))

theorem Handled.bounded {asked : Option ℕ} {heard : Option SessionInput}
    {r : Service π ρ ω × List (Key × Effect)} (h : Handled s k asked heard r)
    (hs : s.Bounded) : r.1.Bounded := by
  cases h with
  | quiet | refuse => exact hs
  | receives hk hroom | serves hk hroom => exact bounded_openSession hroom ..
  | hears | ticks =>
    exact bounded_of_frame (frame_stepSession ..) ((size_stepSession ..).trans hs)

/-- **A turn keeps the map within its bound.** -/
theorem bounded_step (hs : s.Bounded) (i : ServiceInput × Instant) : (s.step i).1.Bounded := by
  have h := turned_step s i
  generalize s.step i = r at h ⊢
  cases h with
  | submit | route => exact hs
  | work hw tick now => exact bounded_of_frame (frame_onWork ..) ((size_onWork ..).trans hs)
  | intent hi tick now h | asdu ha tick now h | other tick now h => exact h.bounded hs

end Size

/-- The map is within its bound in every run. -/
theorem bounded_of_run (r : Run Service.step (.init P world config) h s) :
    s.sessions.keys.length ≤ config.maxConcurrentSessions := by
  have hbounded : s.Bounded := by
    induction r with
    | nil => exact Nat.zero_le _
    | snoc r i ih => exact bounded_step ih i
  rwa [Service.Bounded, show s.config = config from congrArg Prod.snd (setting_of_run r)]
    at hbounded

/-! ## What a session holds -/

namespace Effect

def isStarted : Effect → Bool
  | .started _ => true
  | _ => false

/-- A session starts with a writer. -/
def startsReceiver : Effect → Bool
  | .started .receiver => true
  | _ => false

def isFinished : Effect → Bool
  | .finished _ => true
  | _ => false

def isFinalized : Effect → Bool
  | .finalized _ _ => true
  | _ => false

/-- A reply to a caller. -/
def repliesTo (caller : ℕ) : Effect → Bool
  | .replied c _ => decide (c = caller)
  | _ => false

/-- What `finalize_session` does. -/
def isClosing : Effect → Bool
  | .finished _ | .replied _ _ | .finalized _ _ => true
  | _ => false

/-- What happens in the course of a transfer. -/
def isInner : Effect → Bool
  | .command _ | .segmentTransferred _ | .read _ | .wrote _ _ => true
  | _ => false

end Effect

/-- **The end of a session**, with a writer and a caller or without. -/
def closing (writer : Bool) (reply : Option ℕ) (outcome : FileTransferOutcome)
    (result : Except FileTransferError Unit) : List Effect :=
  (if writer then [.finalized outcome.success result] else []) ++ told reply outcome

/-- **Something a session holds until it ends**, and the effect that gives it
back. It depends on whether the session has a writer, and on its caller. -/
structure Account where
  held : Bool → Option ℕ → Bool
  gives : Effect → Bool
  isClosing_of_gives : ∀ e, gives e = true → e.isClosing = true
  count_closing : ∀ writer reply outcome result,
    (closing writer reply outcome result).countP gives = (held writer reply).toNat

namespace Account

/-- Its place in the map. -/
def session : Account where
  held _ _ := true
  gives := Effect.isFinished
  isClosing_of_gives e he := by
    cases e <;> first | rfl | cases he
  count_closing writer reply outcome result := by
    cases writer <;> cases reply <;> rfl

/-- Its writer. -/
def writer : Account where
  held writer _ := writer
  gives := Effect.isFinalized
  isClosing_of_gives e he := by
    cases e <;> first | rfl | cases he
  count_closing writer reply outcome result := by
    cases writer <;> cases reply <;> rfl

/-- A caller that waits for its reply. -/
def reply (caller : ℕ) : Account where
  held _ reply := decide (reply = some caller)
  gives := Effect.repliesTo caller
  isClosing_of_gives e he := by
    cases e <;> first | rfl | cases he
  count_closing writer reply outcome result := by
    have hnone : (if writer then [Effect.finalized outcome.success result] else []).countP
        (Effect.repliesTo caller) = 0 := by
      cases writer <;> rfl
    rw [closing, List.countP_append, hnone]
    cases reply with
    | none => rfl
    | some c => by_cases hc : c = caller <;> simp [told, Effect.repliesTo, hc]

/-- What the session at a key holds of it. -/
def holds (A : Account) : Option (ActiveSession ρ ω) → ℕ
  | some active => (A.held active.writer.isSome active.reply).toNat
  | none => 0

variable (A : Account)

theorem not_gives_of_inner {e : Effect} (h : e.isInner = true) : A.gives e = false := by
  refine Bool.eq_false_iff.mpr fun hg => ?_
  have hc := A.isClosing_of_gives e hg
  cases e <;> cases h <;> cases hc

theorem count_inner {es : List Effect} (h : ∀ e ∈ es, e.isInner = true) : es.countP A.gives = 0 :=
  List.countP_eq_zero.mpr fun e he hg =>
    Bool.false_ne_true ((A.not_gives_of_inner (h e he)).symm.trans hg)

end Account

theorem inner_command (asdu : Option Bytes) :
    ∀ e ∈ (asdu.map Effect.command).toList, e.isInner = true := by
  intro e he
  obtain ⟨asdu, -, rfl⟩ := Option.map_eq_some_iff.mp (Option.mem_toList.mp he)
  rfl

section Perform

variable (P : Provider π ρ ω) (key : Key) (world : π)

/-- **What performing an action leaves of a session**: it ends, or it stays in the
map with its writer and its caller. -/
theorem perform_some (active : ActiveSession ρ ω) (action : SessionAction) (now : Instant) :
    (∃ outcome result, (perform P key (some active) world action now).entry = none
        ∧ (perform P key (some active) world action now).effects
          = closing active.writer.isSome active.reply outcome result)
      ∨ ∃ active', (perform P key (some active) world action now).entry = some active'
        ∧ active'.writer.isSome = active.writer.isSome ∧ active'.reply = active.reply
        ∧ ∀ e ∈ (perform P key (some active) world action now).effects, e.isInner = true := by
  have hp := performs P key active world now action
  generalize perform P key (some active) world action now = p at hp ⊢
  cases hp with
  | send hsend => exact Or.inr ⟨active, rfl, rfl, rfl, inner_command _⟩
  | noReader maxBytes hr => exact Or.inr ⟨active, rfl, rfl, rfl, fun e he => nomatch he⟩
  | read maxBytes hr hread chunk hnext =>
    refine Or.inr ⟨_, rfl, rfl, rfl, fun e he => ?_⟩
    rw [List.mem_singleton.mp he]
    rfl
  | noWriter data hw =>
    refine Or.inr ⟨active, rfl, rfl, rfl, fun e he => ?_⟩
    rw [List.mem_singleton.mp he]
    rfl
  | write data hw hr =>
    refine Or.inr ⟨_, rfl, by rw [hw]; rfl, rfl, fun e he => ?_⟩
    obtain rfl | he := List.mem_cons.mp he
    · rfl
    · rw [List.mem_singleton.mp he]
      rfl
  | finish hfinal outcome hw => exact Or.inl ⟨outcome, .ok (), rfl, by rw [hw]; rfl⟩
  | finalize hfinal outcome hw hr => exact Or.inl ⟨outcome, _, rfl, by rw [hw]; rfl⟩

/-- **Performing an action keeps every account.** -/
theorem Account.perform (A : Account) (entry : Option (ActiveSession ρ ω))
    (action : SessionAction) (now : Instant) :
    A.holds entry = (FileTransfer.perform P key entry world action now).effects.countP A.gives
      + A.holds (FileTransfer.perform P key entry world action now).entry := by
  cases entry with
  | none =>
    obtain ⟨asdu, hnone⟩ := perform_none P key world now action
    rw [hnone, A.count_inner (inner_command asdu), Nat.zero_add]
  | some active =>
    obtain ⟨outcome, result, hentry, heffects⟩ | ⟨active', hentry, hw, hr, hinner⟩ :=
      perform_some P key world active action now
    · rw [hentry, heffects, A.count_closing]
      rfl
    · rw [hentry, A.count_inner hinner, Nat.zero_add]
      unfold Account.holds
      dsimp only
      rw [hw, hr]

end Perform

/-! ## What shows in the effects -/

/-- **An account whose opening shows**: the session takes it when it starts,
by its role alone. -/
structure Account.Shown (A : Account) (takes : Effect → Bool) : Prop where
  isStarted_of_takes : ∀ e, takes e = true → e.isStarted = true
  takes_started : ∀ role reply, takes (.started role) = A.held (decide (role = .receiver)) reply
  not_gives_replied : ∀ caller result, A.gives (.replied caller result) = false

theorem Account.session_shown : Account.session.Shown Effect.isStarted where
  isStarted_of_takes _ he := he
  takes_started _ _ := rfl
  not_gives_replied _ _ := rfl

theorem Account.writer_shown : Account.writer.Shown Effect.startsReceiver where
  isStarted_of_takes e he := by
    cases e <;> first | rfl | cases he
  takes_started role _ := by
    cases role <;> rfl
  not_gives_replied _ _ := rfl

section Balance

variable {A : Account} {takes : Effect → Bool} (hA : A.Shown takes) {P : Provider π ρ ω}
  {config : FileTransferConfig}

include hA

/-- A session is opened. -/
theorem Account.balance_open (role : Role) {active : ActiveSession ρ ω}
    (hw : active.writer.isSome = decide (role = .receiver)) :
    [Effect.started role].countP takes + A.holds (none : Option (ActiveSession ρ ω))
      = [Effect.started role].countP A.gives + A.holds (some active) := by
  have hgives : [Effect.started role].countP A.gives = 0 := by
    refine List.countP_eq_zero.mpr fun e he hg => ?_
    rw [List.mem_singleton.mp he] at hg
    cases A.isClosing_of_gives _ hg
  rw [hgives, List.countP_singleton, hA.takes_started role active.reply, ← hw]
  unfold Account.holds
  dsimp only
  cases A.held active.writer.isSome active.reply <;> rfl

/-- What is performed opens nothing. -/
theorem Account.count_takes_perform (P : Provider π ρ ω) (key : Key)
    (entry : Option (ActiveSession ρ ω)) (world : π) (action : SessionAction)
    (now : Instant) :
    (FileTransfer.perform P key entry world action now).effects.countP takes = 0 := by
  refine List.countP_eq_zero.mpr fun e he ht => ?_
  have hs := hA.isStarted_of_takes e ht
  cases e with
  | started role => exact started_notMem_perform entry action role he
  | _ => cases hs

/-- A step of a thread keeps an account that shows. -/
theorem Account.balance_step {key : Key}
    {t t' : Thread ρ ω} {heard : Option SessionInput} {es : List Effect}
    (hstep : Thread.Step P config key t heard es t') :
    es.countP takes + A.holds t.entry = es.countP A.gives + A.holds t'.entry := by
  cases hstep with
  | refuse t caller e =>
    have ht : takes (.replied caller (.error e)) = false :=
      Bool.eq_false_iff.mpr fun h => nomatch hA.isStarted_of_takes _ h
    rw [List.countP_singleton, List.countP_singleton, ht, hA.not_gives_replied]
  | fetch | announced => exact balance_open hA .receiver rfl
  | push | selected | halfSelected => exact balance_open hA .sender rfl
  | hear | tick => rfl
  | perform entry action queue world now hp =>
    subst hp
    rw [count_takes_perform hA, Nat.zero_add]
    exact A.perform P key world entry action now

/-- **The balance of an account that shows**: over a run, what was taken is
what was given back and what the session in the map still holds. -/
theorem Account.balance {world : π} {h : List (ServiceCall π ρ ω)} {s : Service π ρ ω}
    (r : Run Service.step (.init P world config) h s) (key : Key) :
    (effectsAt key (effects h)).countP takes
      = (effectsAt key (effects h)).countP A.gives + A.holds (s.sessions.lookup key) := by
  refine thread_invariant
    (I := fun es t => es.countP takes = es.countP A.gives + A.holds t.entry) r key rfl ?_
  intro es t heard es' t' ih hstep
  have := balance_step hA hstep
  rw [List.countP_append, List.countP_append]
  omega

end Balance

/-! ## Replies -/

/-- An intent of a caller for a key. -/
def Intent.asks (key : Key) (caller : ℕ) (intent : Intent) : Bool :=
  decide (intent.key = key ∧ intent.caller = caller)

/-- The intent that an input submits. -/
def ServiceInput.submits : ServiceInput → Option Intent
  | .submit intent => some intent
  | _ => none

/-- The intents of a history. -/
def submitted (h : List (ServiceCall π ρ ω)) : List Intent :=
  h.filterMap fun c => c.input.1.submits

/-- **A turn that takes an intent of a caller, or none, keeps its account**: the
caller is answered, or it waits for a session. -/
def Settles (asked : Bool) (key : Key) (caller : ℕ) (s : Service π ρ ω)
    (r : Service π ρ ω × List (Key × Effect)) : Prop :=
  asked.toNat + (Account.reply caller).holds (s.sessions.lookup key)
    = (effectsAt key r.2).countP (Effect.repliesTo caller)
      + (Account.reply caller).holds (r.1.sessions.lookup key)

section Replies

variable (s : Service π ρ ω) {k key : Key} {caller : ℕ} (now : Instant) {t : Service π ρ ω}
  {heard : Option SessionInput} {r : Service π ρ ω × List (Key × Effect)}

theorem holds_put (A : Account) (entry : Option (ActiveSession ρ ω)) :
    A.holds ((s.put k entry).sessions.lookup key)
      = if k = key then A.holds entry else A.holds (s.sessions.lookup key) := by
  by_cases hk : k = key
  · subst hk
    rw [if_pos rfl, lookup_put_self]
  · rw [if_neg hk, lookup_put_ne s (Ne.symm hk)]

theorem holds_stepSession (A : Account) (input : SessionInput) (ticks : List Key) :
    A.holds ((s.stepSession k input now ticks).sessions.lookup key)
      = A.holds (s.sessions.lookup key) := by
  unfold Service.stepSession
  cases hl : s.sessions.lookup k with
  | none => rfl
  | some active =>
    show A.holds ((s.put k (some _)).sessions.lookup key) = _
    rw [holds_put]
    by_cases hk : k = key
    · rw [if_pos hk, ← hk, hl]
      rfl
    · rw [if_neg hk]

/-- Nothing is asked for, and nobody is answered. -/
theorem Settles.quiet (h : (Account.reply caller).holds (t.sessions.lookup key)
      = (Account.reply caller).holds (s.sessions.lookup key)) :
    Settles false key caller s (t, []) := by
  show 0 + _ = 0 + _
  rw [h]

variable {s}

/-- A session is opened, for a caller or for nobody. -/
theorem Settles.opens (hk : k ∉ s.sessions) (world : π) (active : ActiveSession ρ ω)
    (actions : List SessionAction) (now : Instant) (role : Role) :
    Settles (decide (k = key ∧ active.reply = some caller)) key caller s
      (Service.openSession { s with world := world } k active actions now,
        [(k, .started role)]) := by
  unfold Settles
  show _ = _ + Account.holds _ ((s.put k (some active)).sessions.lookup key)
  rw [holds_put]
  by_cases hkey : k = key
  · subst hkey
    rw [if_pos rfl, lookup_of_notMem hk]
    simp [effectsAt, Effect.repliesTo, Account.holds, Account.reply]
  · rw [if_neg hkey]
    simp [effectsAt, hkey]

/-- **What is handled keeps the account of every caller.** -/
theorem Handled.settles {asked : Option ℕ} (h : Handled s k asked heard r) :
    Settles (decide (k = key ∧ asked = some caller)) key caller s r := by
  cases h with
  | @quiet world hlook =>
    have h : Settles false key caller s ({ s with world := world }, []) := .quiet s rfl
    simpa using h
  | refuse hlook c e =>
    unfold Settles
    by_cases hk : k = key <;> by_cases hc : c = caller <;>
      simp [effectsAt, Effect.repliesTo, hk, hc]
  | receives hk hroom hopen hwriter now hstep => exact .opens hk _ _ _ now .receiver
  | serves hk hroom hlook hwriter now => exact .opens hk _ _ _ now .sender
  | hears | ticks => simpa using Settles.quiet s (holds_stepSession ..)

theorem Handled.settles_none (h : Handled s k none heard r) : Settles false key caller s r := by
  simpa using h.settles

variable (s)

/-- Working off the queue. -/
theorem settles_onWork (w : Work) : Settles false key caller s (s.onWork w now) := by
  unfold Service.onWork
  split
  · rename_i action queue _
    unfold Settles
    show 0 + _ = _
      + Account.holds _ ((Service.put { s with world := _ } w.key _).sessions.lookup key)
    rw [holds_put, Nat.zero_add]
    by_cases hk : w.key = key
    · rw [if_pos hk, ← hk, effectsAt_map_self]
      exact (Account.reply caller).perform s.provider w.key s.world _ action now
    · rw [if_neg hk, effectsAt_map_ne hk]
      exact (Nat.zero_add _).symm
  · exact .quiet s (holds_stepSession ..)
  · exact .quiet s rfl

theorem intents_of_frame {s t : Service π ρ ω} (h : s.frame = t.frame) : s.intents = t.intents :=
  congrArg (fun f => f.2.2.1) h

/-- A turn with the intents that are left in the channel. -/
theorem Settles.count {asked : Bool} (h : Settles asked key caller t r)
    (hframe : r.1.frame = t.frame) :
    asked.toNat + t.intents.countP (Intent.asks key caller)
        + (Account.reply caller).holds (t.sessions.lookup key)
      = (effectsAt key r.2).countP (Effect.repliesTo caller)
        + r.1.intents.countP (Intent.asks key caller)
        + (Account.reply caller).holds (r.1.sessions.lookup key) := by
  rw [intents_of_frame hframe]
  unfold Settles at h
  omega

variable (key caller) in
/-- **A turn keeps the account of a caller**: its intents are in the channel,
or it waits for a session, or it is answered. -/
theorem replies_step (i : ServiceInput × Instant) :
    i.1.submits.toList.countP (Intent.asks key caller) + s.intents.countP (Intent.asks key caller)
        + (Account.reply caller).holds (s.sessions.lookup key)
      = (effectsAt key (s.step i).2).countP (Effect.repliesTo caller)
        + (s.step i).1.intents.countP (Intent.asks key caller)
        + (Account.reply caller).holds ((s.step i).1.sessions.lookup key) := by
  have h := turned_step s i
  generalize s.step i = r at h ⊢
  cases h with
  | submit intent now =>
    show [intent].countP _ + s.intents.countP _ + Account.holds _ (s.sessions.lookup key)
      = 0 + (s.intents ++ [intent]).countP _ + Account.holds _ (s.sessions.lookup key)
    rw [List.countP_append]
    omega
  | route ca asdu now => rfl
  | work hw tick now => exact (settles_onWork s now _).count (frame_onWork ..)
  | @intent intent rest hi tick now r h =>
    have hcons : 0 + s.intents.countP (Intent.asks key caller)
        = (intent.asks key caller).toNat + rest.countP (Intent.asks key caller) := by
      rw [hi, List.countP_cons, Nat.zero_add, Nat.add_comm]
      cases intent.asks key caller <;> rfl
    have hsettles : Settles (intent.asks key caller) key caller { s with intents := rest } r := by
      simpa [Intent.asks] using h.settles
    show 0 + s.intents.countP _ + _ = _
    rw [hcons]
    exact hsettles.count h.frame
  | asdu ha tick now h | other tick now h => exact h.settles_none.count h.frame

end Replies

/-- **The callers of a run**: an intent of a caller for a key is in the channel,
or the caller waits for the session in the map, or it has been answered. -/
theorem replies_of_run (r : Run Service.step (.init P world config) h s) (key : Key) (caller : ℕ) :
    (submitted h).countP (Intent.asks key caller)
      = (effectsAt key (effects h)).countP (Effect.repliesTo caller)
        + s.intents.countP (Intent.asks key caller)
        + (Account.reply caller).holds (s.sessions.lookup key) := by
  induction r with
  | nil => rfl
  | @snoc h s r i ih =>
    have hstep := replies_step s key caller i
    have hsub : submitted (h ++ [call Service.step s i]) = submitted h ++ i.1.submits.toList := by
      unfold submitted
      rw [List.filterMap_append]
      cases hi : i.1.submits <;> simp [call, hi]
    rw [hsub, List.countP_append, effects_snoc, effectsAt_append, List.countP_append]
    omega

/-! ## The books -/

/-- **What the end of a session gives back**: its place in the map, its writer
and its caller, if it has them, each once. -/
structure Settled (active : ActiveSession ρ ω) (es : List Effect) : Prop where
  finished : es.countP Effect.isFinished = 1
  finalized : es.countP Effect.isFinalized = active.writer.isSome.toNat
  replied : ∀ caller, es.countP (Effect.repliesTo caller)
    = (decide (active.reply = some caller)).toNat

section Removed

variable {s : Service π ρ ω} {key : Key} {active : ActiveSession ρ ω}

/-- Only the end of a session takes it out of the map. -/
theorem closing_of_removed (i : ServiceInput × Instant)
    (hbefore : s.sessions.lookup key = some active)
    (hafter : (s.step i).1.sessions.lookup key = none) :
    ∃ outcome result, effectsAt key (s.step i).2
      = closing active.writer.isSome active.reply outcome result := by
  have hentry : (s.thread key).entry = some active := hbefore
  have hentry' : ((s.step i).1.thread key).entry = none := hafter
  obtain ⟨-, -, ht⟩ | hstep := thread_step s i key
  · rw [ht, hentry] at hentry'
    cases hentry'
  · generalize s.thread key = t at hstep hentry
    generalize (s.step i).1.thread key = t' at hstep hentry'
    generalize effectsAt key (s.step i).2 = es at hstep ⊢
    generalize s.hears i.1 key = heard at hstep
    cases hstep with
    | refuse t caller e => exact absurd (hentry.symm.trans hentry') nofun
    | perform entry action queue world now hp =>
      subst hp
      obtain rfl : entry = some active := hentry
      obtain ⟨outcome, result, -, heffects⟩ | ⟨active', hsome, -⟩ :=
        perform_some s.provider key world active action now
      · exact ⟨outcome, result, heffects⟩
      · exact absurd (hsome.symm.trans hentry') nofun
    | _ => cases hentry'

/-- **A session that is taken out of the map has given back what it held.** -/
theorem settled_of_removed (i : ServiceInput × Instant)
    (hbefore : s.sessions.lookup key = some active)
    (hafter : (s.step i).1.sessions.lookup key = none) :
    Settled active (effectsAt key (s.step i).2) := by
  obtain ⟨outcome, result, heffects⟩ := closing_of_removed i hbefore hafter
  rw [heffects]
  exact ⟨Account.session.count_closing .., Account.writer.count_closing ..,
    fun caller => (Account.reply caller).count_closing ..⟩

end Removed

/-- **The books of the service**, after a history. -/
structure Books (config : FileTransferConfig) (h : List (ServiceCall π ρ ω))
    (s : Service π ρ ω) : Prop where
  /-- The map is within its bound. -/
  bounded : s.sessions.keys.length ≤ config.maxConcurrentSessions
  /-- When the service has worked off what it was given, the sessions in the
  map live and are under way, with the file name of their key. -/
  mapped : s.work = none → ∀ key active, s.sessions.lookup key = some active →
    active.session.isTerminal = false ∧ active.session.state ≠ .idle ∧ active.session.nof = key.2
  /-- The idle timeout applies to them. -/
  timed : s.work = none → ∀ key active, s.sessions.lookup key = some active →
    ∃ last, active.session.lastProgress = some last
      ∧ ∀ now, now - last ≥ active.session.config.idleTimeout →
        (active.session.step (.tick, now)).2 = [.failed .timeout]
  /-- Of the sessions that have started at a key all have finished but the one
  in the map. -/
  started : ∀ key, (effectsAt key (effects h)).countP Effect.isStarted
    = (effectsAt key (effects h)).countP Effect.isFinished + if key ∈ s.sessions then 1 else 0
  /-- Of the writers that were opened all have been finalized but that of the
  session in the map. -/
  writers : ∀ key, (effectsAt key (effects h)).countP Effect.startsReceiver
    = (effectsAt key (effects h)).countP Effect.isFinalized
      + if ∃ active ∈ s.sessions.lookup key, active.writer.isSome then 1 else 0
  /-- Of the intents of a caller all have been answered but those in the channel
  and that of the session in the map. -/
  replies : ∀ key caller, (submitted h).countP (Intent.asks key caller)
    = (effectsAt key (effects h)).countP (Effect.repliesTo caller)
      + s.intents.countP (Intent.asks key caller)
      + if ∃ active ∈ s.sessions.lookup key, active.reply = some caller then 1 else 0
  /-- A turn that takes a session out of the map finalizes its writer and
  answers its caller, once. -/
  removed : ∀ i key active, s.sessions.lookup key = some active →
    (s.step i).1.sessions.lookup key = none → Settled active (effectsAt key (s.step i).2)

theorem Account.holds_eq_ite (A : Account) (entry : Option (ActiveSession ρ ω)) : A.holds entry
      = if ∃ active ∈ entry, A.held active.writer.isSome active.reply then 1 else 0 := by
  cases entry with
  | none => simp [Account.holds]
  | some active =>
    cases h : A.held active.writer.isSome active.reply <;> simp [Account.holds, h]

/-- **The books are kept**, in every run of the service, over every provider. -/
theorem books_of_run {P : Provider π ρ ω} {world : π} {config : FileTransferConfig}
    {h : List (ServiceCall π ρ ω)} {s : Service π ρ ω}
    (r : Run Service.step (.init P world config) h s) : Books config h s := by
  have hunderway (key : Key) :
      ∀ active ∈ s.sessions.lookup key, active.session.Underway key :=
    thread_invariant (I := fun _ t => ∀ active ∈ t.entry, active.session.Underway key) r key
      (fun _ h => nomatch h) fun h hstep => underway_step h hstep
  have hlive (hrest : s.work = none) (key : Key) (active : ActiveSession ρ ω)
      (ha : s.sessions.lookup key = some active) :
      active.session.actions = [] ∧ active.session.isTerminal = false := by
    have hshape := shape_of_run r key
    rw [thread_of_rest s hrest] at hshape
    obtain ⟨hactions, hend⟩ := hshape.mapped active ha
    exact ⟨hactions, hend.live_of_nil⟩
  refine ⟨bounded_of_run r, fun hrest key active ha => ?_, fun hrest key active ha => ?_,
    fun key => ?_, fun key => ?_, fun key caller => ?_, fun i key active => ?_⟩
  · have hu := hunderway key active ha
    exact ⟨(hlive hrest key active ha).2, hu.state, hu.nof⟩
  · have hu := hunderway key active ha
    obtain ⟨hactions, hlive⟩ := hlive hrest key active ha
    obtain ⟨last, hlast⟩ := Option.ne_none_iff_exists'.mp (hu.timer hlive)
    exact ⟨last, hlast, fun now => Session.tick_of_idle hlive hu.state hactions hlast⟩
  · have hmem : (∃ active ∈ s.sessions.lookup key,
        Account.session.held active.writer.isSome active.reply) ↔ key ∈ s.sessions := by
      rw [← AList.lookup_isSome, Option.isSome_iff_exists]
      exact exists_congr fun active => and_iff_left rfl
    have h := Account.balance Account.session_shown r key
    rwa [Account.holds_eq_ite, if_congr hmem rfl rfl] at h
  · have h := Account.balance Account.writer_shown r key
    rwa [Account.holds_eq_ite] at h
  · have h := replies_of_run r key caller
    rw [Account.holds_eq_ite] at h
    simpa [Account.reply] using h
  · exact settled_of_removed i

/-- A fetch that the peer does not answer. -/
def unansweredFetch : List (ServiceInput × Instant) :=
  [(.submit (.fetch ⟨1⟩ ⟨7⟩ 3), 0), (.run none, 0), (.run none, 0),
    (.run (some [(⟨1⟩, ⟨7⟩)]), 30), (.run none, 30)]

/-- The fetch has timed out: its caller is told, its writer is closed, and the
map is empty. -/
theorem books_unansweredFetch :
    let run := exec Service.step (.init (scripted 0) ⟨[], [], []⟩ .default) unansweredFetch
    (effectsAt (⟨1⟩, ⟨7⟩) (effects run.1)).filter Effect.isClosing
        = [.finalized false (.ok ()), .replied 3 (.error (.other "idle timeout")),
          .finished (.failed .timeout)]
      ∧ run.2.sessions.keys = []
      ∧ Books .default run.1 run.2 := by
  intro run
  exact ⟨by decide +kernel, by decide +kernel, books_of_run (run_exec _ _ _)⟩

end FileTransfer
