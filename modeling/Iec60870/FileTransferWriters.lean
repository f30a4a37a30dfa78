import Iec60870.FileTransferThread

/-!
# The writers of the service

A session that receives a file has a writer of the provider, and the service has
as many of them open as there are such sessions. What it does with them is a
sequence of calls, one session's between those of the others, in the order in
which the peer's ASDUs come in: `Access` lists the calls there can be, and every
turn of the service is one of them (`access_step`). A statement about every
interleaving of the calls of several sessions is therefore proved along
`Access`; the protocol, the queues and the channels do not occur in such a
proof, nor does what the provider is asked for on the side (`Looks`).
-/

namespace FileTransfer

open Iec60870 Machine

variable {π ρ ω : Type}

/-- **The provider, and the writers of the sessions in the map.** -/
structure Sinks (π ω : Type) where
  world : π
  writers : Key → Option ω

def Service.sinks (s : Service π ρ ω) : Sinks π ω where
  world := s.world
  writers key := (s.sessions.lookup key).bind ActiveSession.writer

/-- The effects that concern a writer. -/
def Effect.isSink : Effect → Bool
  | .started .receiver | .wrote _ _ | .finalized _ _ => true
  | _ => false

/-- **What a turn of the service can do with its writers**, with the effects. -/
inductive Access (P : Provider π ρ ω) :
    Sinks π ω → List (Key × Effect) → Sinks π ω → Prop
  | look {world world' : π} (writers : Key → Option ω) (h : Looks P world world')
      {es : List (Key × Effect)} (hes : ∀ e ∈ es, e.2.isSink = false) :
      Access P ⟨world, writers⟩ es ⟨world', writers⟩
  | openWrite (world : π) {writers : Key → Option ω} {key : Key} {writer : ω}
      (hkey : writers key = none) (h : (P.openWrite key.2 0 world).1 = .ok writer) :
      Access P ⟨world, writers⟩ [(key, .started .receiver)]
        ⟨(P.openWrite key.2 0 world).2, Function.update writers key (some writer)⟩
  | writeSegment (world : π) {writers : Key → Option ω} {key : Key} {writer : ω}
      (hkey : writers key = some writer) (data : Bytes)
      {r : (Except FileTransferError Unit × ω) × π}
      (hr : r = P.writeSegment writer data world) {es : List (Key × Effect)}
      (hes : ∀ e ∈ es, e.2.isSink = false) :
      Access P ⟨world, writers⟩ ((key, .wrote data r.1.1) :: es)
        ⟨r.2, Function.update writers key (some r.1.2)⟩
  | finalize (world : π) {writers : Key → Option ω} {key : Key} {writer : ω}
      (hkey : writers key = some writer) (success : Bool)
      {r : Except FileTransferError Unit × π} (hr : r = P.finalize writer success world)
      {es : List (Key × Effect)} (hes : ∀ e ∈ es, e.2.isSink = false) :
      Access P ⟨world, writers⟩ ((key, .finalized success r.1) :: es)
        ⟨r.2, Function.update writers key none⟩

/-! ## The handlers -/

section Handlers

variable (s : Service π ρ ω) {k : Key} (now : Instant)

theorem sinks_put (entry : Option (ActiveSession ρ ω)) : (s.put k entry).sinks
      = ⟨s.world, Function.update s.sinks.writers k (entry.bind ActiveSession.writer)⟩ := by
  have hwriters : (s.put k entry).sinks.writers
      = Function.update s.sinks.writers k (entry.bind ActiveSession.writer) := by
    funext key
    by_cases hk : key = k
    · subst hk
      rw [Function.update_self]
      exact congrArg (Option.bind · _) (lookup_put_self s key entry)
    · rw [Function.update_of_ne hk]
      exact congrArg (Option.bind · _) (lookup_put_ne s hk entry)
  rw [← hwriters]
  rfl

/-- A session is put in the place of one with the same writer. -/
theorem sinks_put_of_writer (entry : Option (ActiveSession ρ ω))
    (h : entry.bind ActiveSession.writer = s.sinks.writers k) :
    (s.put k entry).sinks = s.sinks := by
  rw [sinks_put, h, Function.update_eq_self]
  rfl

theorem sinks_stepSession (input : SessionInput) (ticks : List Key) :
    (s.stepSession k input now ticks).sinks = s.sinks := by
  unfold Service.stepSession
  split
  · rename_i active hactive
    refine sinks_put_of_writer s (some _) ?_
    exact (congrArg (Option.bind · ActiveSession.writer) hactive).symm
  · rfl

/-- Nothing is done with a writer. -/
theorem Access.quiet {t : Service π ρ ω} (h : t.sinks = s.sinks)
    {es : List (Key × Effect)} (hes : ∀ e ∈ es, e.2.isSink = false) :
    Access s.provider s.sinks es t.sinks := by
  rw [h]
  exact .look s.sinks.writers .refl hes

theorem writers_of_notMem {s : Service π ρ ω} (hk : k ∉ s.sessions) : s.sinks.writers k = none :=
  congrArg (Option.bind · ActiveSession.writer) (lookup_of_notMem hk)

/-- **What is handled is an access.** -/
theorem Handled.access {s : Service π ρ ω} {asked : Option ℕ} {heard : Option SessionInput}
    {r : Service π ρ ω × List (Key × Effect)} (h : Handled s k asked heard r) :
    Access s.provider s.sinks r.2 r.1.sinks := by
  cases h with
  | quiet hlook => exact .look s.sinks.writers hlook fun e he => nomatch he
  | refuse hlook caller e =>
    refine .look s.sinks.writers hlook fun e he => ?_
    rw [List.mem_singleton.mp he]
    rfl
  | @receives hk hroom writer hopen active hwriter actions now hstep =>
    show Access _ _ _ (Service.put { s with world := _ } k (some active)).sinks
    rw [sinks_put, Option.bind_some, hwriter]
    exact .openWrite s.world (writers_of_notMem hk) hopen
  | @serves hk hroom world hlook active hwriter actions now =>
    show Access _ _ _ (Service.put { s with world := world } k (some active)).sinks
    have hput : (Service.put { s with world := world } k (some active)).sinks
        = ⟨world, s.sinks.writers⟩ := by
      refine (sinks_put_of_writer _ _ ?_).trans rfl
      exact hwriter.trans (writers_of_notMem hk).symm
    rw [hput]
    refine .look s.sinks.writers hlook fun e he => ?_
    rw [List.mem_singleton.mp he]
    rfl
  | hears | ticks => exact .quiet s (sinks_stepSession ..) fun e he => nomatch he

end Handlers

/-! ## The actions -/

section Perform

variable (P : Provider π ρ ω) {writers : Key → Option ω} {key : Key}
  {entry : Option (ActiveSession ρ ω)}
  (hentry : entry.bind ActiveSession.writer = writers key) (world : π)

/-- The session keeps its writer, and nothing is done with it. -/
theorem Access.keep (hentry : entry.bind ActiveSession.writer = writers key) {world' : π}
    (hlook : Looks P world world') {es : List Effect} (hes : ∀ e ∈ es, e.isSink = false) :
    Access P ⟨world, writers⟩ (es.map fun e => (key, e))
      ⟨world', Function.update writers key (entry.bind ActiveSession.writer)⟩ := by
  rw [hentry, Function.update_eq_self]
  refine .look writers hlook fun e he => ?_
  obtain ⟨e', he', rfl⟩ := List.mem_map.mp he
  exact hes e' he'

include hentry

/-- **Performing an action is an access.** -/
theorem access_perform (action : SessionAction) (now : Instant) {p : Performed π ρ ω}
    (hp : p = perform P key entry world action now) :
    Access P ⟨world, writers⟩ (p.effects.map fun e => (key, e))
      ⟨p.world, Function.update writers key (p.entry.bind ActiveSession.writer)⟩ := by
  have hcommand (asdu : Option Bytes) :
      ∀ e ∈ (asdu.map Effect.command).toList, e.isSink = false := by
    intro e he
    obtain ⟨bytes, -, rfl⟩ := Option.map_eq_some_iff.mp (Option.mem_toList.mp he)
    rfl
  subst hp
  cases entry with
  | none =>
    obtain ⟨asdu, hnone⟩ := perform_none P key world now action
    rw [hnone]
    exact .keep P world hentry .refl (hcommand asdu)
  | some active =>
    have htold (outcome : FileTransferOutcome) :
        ∀ e ∈ told active.reply outcome, e.isSink = false := by
      intro e he
      obtain he | he := List.mem_append.mp he
      · obtain ⟨caller, -, rfl⟩ := Option.map_eq_some_iff.mp (Option.mem_toList.mp he)
        rfl
      · rw [List.mem_singleton.mp he]
        rfl
    have hp := performs P key active world now action
    generalize perform P key (some active) world action now = p at hp ⊢
    cases hp with
    | send hsend => exact .keep P world hentry .refl (hcommand _)
    | noReader maxBytes hr => exact .keep P world hentry .refl fun e he => nomatch he
    | read maxBytes hr hread chunk hnext =>
      subst hread
      refine .keep P world hentry (.readSegment .refl _ maxBytes) fun e he => ?_
      rw [List.mem_singleton.mp he]
      rfl
    | noWriter data hw =>
      refine .keep P world hentry .refl fun e he => ?_
      rw [List.mem_singleton.mp he]
      rfl
    | write data hw hr =>
      refine .writeSegment world (hentry.symm.trans hw) data hr fun e he => ?_
      rw [List.mem_singleton.mp he]
      rfl
    | finish hfinal outcome hw =>
      have hnone : (none : Option (ActiveSession ρ ω)).bind ActiveSession.writer = writers key :=
        hw.symm.trans hentry
      exact .keep P world hnone .refl (htold outcome)
    | finalize hfinal outcome hw hr =>
      refine .finalize world (hentry.symm.trans hw) outcome.success hr fun e he => ?_
      obtain ⟨e', he', rfl⟩ := List.mem_map.mp he
      exact htold outcome e' he'

end Perform

/-! ## The turns -/

theorem access_onWork (s : Service π ρ ω) (w : Work) (now : Instant) :
    Access s.provider s.sinks (s.onWork w now).2 (s.onWork w now).1.sinks := by
  unfold Service.onWork
  split
  · rename_i action queue _
    show Access s.provider s.sinks _ (Service.put { s with world := _ } w.key _).sinks
    rw [sinks_put]
    exact access_perform s.provider rfl s.world action now rfl
  · exact .quiet s (sinks_stepSession ..) fun e he => nomatch he
  · exact .quiet s rfl fun e he => nomatch he

/-- **Every turn of the service is an access to its writers.** -/
theorem access_step (s : Service π ρ ω) (i : ServiceInput × Instant) :
    Access s.provider s.sinks (s.step i).2 (s.step i).1.sinks := by
  have h := turned_step s i
  generalize s.step i = r at h ⊢
  cases h with
  | submit | route => exact .quiet s rfl fun e he => nomatch he
  | work hw tick now => exact access_onWork s _ now
  | intent hi tick now h | asdu ha tick now h | other tick now h => exact h.access

/-! ## Runs -/

/-- **What the session at a key has been given to write** since it was opened. -/
def ownSegments (es : List Effect) : Bytes :=
  es.foldl (fun data e => match e with
    | .started .receiver => []
    | .wrote segment _ => data ++ segment
    | _ => data) []

theorem ownSegments_append_quiet (es : List Effect) {fs : List Effect}
    (h : ∀ e ∈ fs, e.isSink = false) : ownSegments (es ++ fs) = ownSegments es := by
  induction fs using List.reverseRecOn with
  | nil => rw [List.append_nil]
  | append_singleton fs e ih =>
    have he := h e (List.mem_append_right fs (List.mem_singleton_self e))
    have ih := ih fun e he => h e (List.mem_append_left [_] he)
    rw [← List.append_assoc, ← ih]
    unfold ownSegments
    rw [List.foldl_append]
    cases e with
    | started role =>
      cases role with
      | sender => rfl
      | receiver => cases he
    | wrote | finalized => cases he
    | _ => rfl

section OwnSegments

variable {key k : Key} {es : List (Key × Effect)} (hes : ∀ e ∈ es, e.2.isSink = false)
  (before : List Effect)

include hes

theorem ownSegments_quiet : ownSegments (before ++ effectsAt key es) = ownSegments before := by
  refine ownSegments_append_quiet before fun e he => ?_
  exact hes _ (mem_of_mem_effectsAt he)

/-- The segments of the session that is concerned. -/
theorem ownSegments_self (e : Effect) :
    ownSegments (before ++ effectsAt key ((key, e) :: es)) = ownSegments (before ++ [e]) := by
  have hcons : effectsAt key ((key, e) :: es) = [e] ++ effectsAt key es :=
    effectsAt_append key [(key, e)] es ▸ congrArg (· ++ _) (effectsAt_map_self key [e])
  rw [hcons, ← List.append_assoc]
  exact ownSegments_quiet hes _

/-- The segments of the others. -/
theorem ownSegments_other (hk : k ≠ key) (e : Effect) :
    ownSegments (before ++ effectsAt k ((key, e) :: es)) = ownSegments before := by
  have hcons : effectsAt k ((key, e) :: es) = [] ++ effectsAt k es :=
    effectsAt_append k [(key, e)] es ▸ congrArg (· ++ _) (effectsAt_map_ne hk.symm [e])
  rw [hcons]
  exact ownSegments_quiet hes _

end OwnSegments

theorem ownSegments_opened (before : List Effect) :
    ownSegments (before ++ [.started .receiver]) = [] := by
  unfold ownSegments
  rw [List.foldl_append]
  rfl

theorem ownSegments_wrote (before : List Effect) (data : Bytes)
    (result : Except FileTransferError Unit) :
    ownSegments (before ++ [.wrote data result]) = ownSegments before ++ data := by
  unfold ownSegments
  rw [List.foldl_append]
  rfl

end FileTransfer
