import Iec60870.FileTransferSession

/-!
# What a receiver reports

A receiver that completes reports how many octets it took. Whether it
completes is decided by `on_last_section` alone, and the only thing that
handler looks at is the 8-bit checksum of the octets so far: the length of
the section, which `on_section_ready` has stored, and the length of the
file, which `on_file_ready` has stored, are read by no one. A section that
is closed early, or late, is completed all the same as long as the sum of
its octets fits.

`admitted` reads off a history what its fitting inputs brought: the segments
(`taken`) and the announced lengths (`announcedFile`, `announcedSection`).
`Receiving` relates them to the fields of the session, and from it follows
`reportsWhole_iff`: the reported successes are complete files exactly if the
peer closes no section before it has sent as many octets as it had
announced.
-/

namespace FileTransfer

open Iec60870 Machine Session

/-! ## What the inputs bring -/

namespace SessionInput

/-- The payload of a segment. -/
def segment? : SessionInput → Option Bytes
  | .segment asdu => some asdu.segment
  | _ => none

/-- The length in the announcement of a file. -/
def fileLength? : SessionInput → Option UInt32
  | .fileReady asdu => some asdu.lof.raw
  | _ => none

/-- The length in the announcement of a section. -/
def sectionLength? : SessionInput → Option UInt32
  | .sectionReady asdu => some asdu.los.raw
  | _ => none

/-- Whether the input ends a section. -/
def isLastSection : SessionInput → Bool
  | .lastSection _ => true
  | _ => false

end SessionInput

/-- What an input brings, if it fits the state. -/
def Session.admits {β : Type} (s : Session) (f : SessionInput → Option β)
    (input : SessionInput) : Option β :=
  if s.fits input then f input else none

/-- The inputs that complete a receiver: a last section that fits, and so
carries the right checksum. -/
def Session.closes (s : Session) (input : SessionInput) : Bool :=
  input.isLastSection && s.fits input

/-- What the fitting inputs of a history brought, in order. -/
def admitted {β : Type} (f : SessionInput → Option β) (h : List Call) : List β :=
  h.filterMap fun c => c.before.admits f c.input.1

/-- The segments a receiver has taken, in order. -/
def taken (h : List Call) : List Bytes := admitted SessionInput.segment? h

/-- The length of the file in the last announcement accepted. -/
def announcedFile (h : List Call) : Option UInt32 :=
  (admitted SessionInput.fileLength? h).getLast?

/-- The length of the section in the last announcement accepted. -/
def announcedSection (h : List Call) : Option UInt32 :=
  (admitted SessionInput.sectionLength? h).getLast?

section Admitted

variable {β : Type} (f : SessionInput → Option β) (h : List Call) (s : Session)
  (i : SessionInput × Instant)

theorem admitted_snoc : admitted f (h ++ [call Session.step s i])
      = admitted f h ++ (s.admits f i.1).toList := by
  rw [admitted, List.filterMap_append, filterMap_singleton]
  rfl

theorem getLast?_admitted_snoc : (admitted f (h ++ [call Session.step s i])).getLast?
      = (s.admits f i.1).or (admitted f h).getLast? := by
  rw [admitted_snoc, List.getLast?_append]
  cases s.admits f i.1 <;> rfl

end Admitted

namespace Session

section Fits

variable {β : Type} {s : Session} {f : SessionInput → Option β} {input : SessionInput}

theorem admits_of_fits (h : s.fits input = true) : s.admits f input = f input :=
  if_pos h

theorem admits_of_not_fits (h : s.fits input = false) : s.admits f input = none :=
  if_neg (by rw [h]; decide)

theorem admits_of_none (h : f input = none) : s.admits f input = none := by
  rw [admits, h, ite_self]

theorem closes_of_not_fits (h : s.fits input = false) : s.closes input = false := by
  rw [closes, h, Bool.and_false]

end Fits

/-! ## What a call hands out -/

section Actions

variable {s : Session} (hs : s.actions = []) (input : SessionInput) (now : Instant)

include hs

/-- **An input delivers what it brings.** -/
theorem delivered_onInput (hlive : s.isTerminal = false) :
    (s.onInput input now).actions.filterMap SessionAction.delivered?
      = (s.admits SessionInput.segment? input).toList := by
  have h := course_onInput hlive input now
  generalize s.onInput input now = d at h ⊢
  cases h with
  | ignore h => rw [admits_of_not_fits (fits_of_ignores h), hs]; rfl
  | refuse hf reason h => rw [admits_of_not_fits hf, hs]; rfl
  | segment asdu hr hst =>
    have hf : s.fits (.segment asdu) = true := decide_eq_true ⟨hr, hst⟩
    rw [admits_of_fits hf, hs]
    rfl
  | requested asdu hr hst ha =>
    rw [admits_of_none, hs]
    · dsimp only
      cases s.awaitingProvider <;> rfl
    · rfl
  | _ =>
    rw [admits_of_none, hs]
    · rfl
    · rfl

/-- **A receiver reports a success where it is closed.** -/
theorem reported_onInput (hlive : s.isTerminal = false) (hr : s.role = .receiver) :
    (s.onInput input now).actions.filterMap SessionAction.bytes?
      = if s.closes input then [s.bytesTransferred] else [] := by
  have h := course_onInput hlive input now
  generalize s.onInput input now = d at h ⊢
  cases h with
  | ignore h => rw [closes_of_not_fits (fits_of_ignores h), hs]; rfl
  | refuse hf reason h => rw [closes_of_not_fits hf, hs]; rfl
  | last asdu hr hst hc =>
    have hcl : s.closes (.lastSection asdu) = true := decide_eq_true ⟨hr, hst, hc⟩
    rw [hcl, hs]
    rfl
  | mismatch asdu hr hst hc =>
    have hcl : s.closes (.lastSection asdu) = false :=
      decide_eq_false fun hf => hc hf.2.2
    rw [hcl, hs]
    rfl
  | requested asdu hr' | acked asdu hr' => rw [hr] at hr'; cases hr'
  | _ => rw [hs]; rfl

end Actions

end Session

/-! ## What the session knows -/

/-- **A receiver and what it has taken**: the segments `D` and the accepted
announcements of the file and of the section. -/
structure Receiving (D : List Bytes) (file part : Option UInt32)
    (s : Session) : Prop where
  role : s.role = .receiver
  knows : match s.state with
    | .idle | .rxAwaitFileReady => D = []
    | .rxAwaitSectionReady => D = [] ∧ file = some s.fileLength
    | .rxReceivingSegments =>
      file = some s.fileLength ∧ part = some s.sectionLength
        -- the count is right as long as it fits
        ∧ (D.flatten.length < 2 ^ 32 → s.bytesTransferred.toNat = D.flatten.length)
    | _ => True

theorem toNat_saturatingAdd_eq_min (a b : UInt32) :
    (saturatingAdd a b).toNat = min (a.toNat + b.toNat) (2 ^ 32 - 1) := by
  unfold saturatingAdd
  split
  · rename_i h
    rw [UInt32.toNat_add, Nat.mod_eq_of_lt h, Nat.min_eq_left (Nat.le_sub_one_of_lt h)]
  · rename_i h
    rw [Nat.min_eq_right ((Nat.sub_le _ _).trans (Nat.not_lt.mp h))]
    rfl

/-- Counting a segment, as long as the count fits. -/
theorem toNat_saturatingAdd {a : UInt32} {n : ℕ} (h : a.toNat + n < 2 ^ 32) :
    (saturatingAdd a (UInt32.ofNat n)).toNat = a.toNat + n := by
  have hn : (UInt32.ofNat n).toNat = n := UInt32.toNat_ofNat_of_lt'
    (lt_of_le_of_lt (Nat.le_add_left _ _) h)
  rw [toNat_saturatingAdd_eq_min, hn]
  exact Nat.min_eq_left (Nat.le_sub_one_of_lt h)

namespace Receiving

variable {D : List Bytes} {file part : Option UInt32} {s : Session}

/-- **An input keeps the relation.** -/
theorem onInput (hk : Receiving D file part s) (hlive : s.isTerminal = false)
    (input : SessionInput) (now : Instant) :
    Receiving (D ++ (s.admits SessionInput.segment? input).toList)
      ((s.admits SessionInput.fileLength? input).or file)
      ((s.admits SessionInput.sectionLength? input).or part)
      (s.onInput input now) := by
  obtain ⟨hrole, hk⟩ := hk
  have h := course_onInput hlive input now
  generalize s.onInput input now = d at h ⊢
  cases h with
  | ignore h =>
    have hf := fits_of_ignores h
    rw [admits_of_not_fits hf, admits_of_not_fits hf,
      admits_of_not_fits hf, Option.toList_none, List.append_nil]
    exact ⟨hrole, hk⟩
  | refuse hf reason h => exact ⟨hrole, trivial⟩
  | select length hr hs =>
    rw [hs] at hk
    refine ⟨hr, ?_⟩
    rw [admits_of_none rfl, Option.toList_none, List.append_nil]
    exact hk
  | fileReady asdu hr hs hn =>
    rw [hs] at hk
    have hf : s.fits (.fileReady asdu) = true := decide_eq_true ⟨hr, hs, hn⟩
    refine ⟨hr, ?_⟩
    rw [admits_of_none rfl, Option.toList_none, List.append_nil, admits_of_fits hf]
    exact ⟨hk, rfl⟩
  | sectionReady asdu hr hs hn =>
    rw [hs] at hk
    have hf : s.fits (.sectionReady asdu) = true := decide_eq_true ⟨hr, hs, hn⟩
    have hf₁ : s.admits SessionInput.segment? (.sectionReady asdu) = none :=
      admits_of_none rfl
    have hf₂ : s.admits SessionInput.fileLength? (.sectionReady asdu) = none :=
      admits_of_none rfl
    refine ⟨hr, ?_⟩
    rw [hf₁, hf₂, admits_of_fits hf, hk.1]
    exact ⟨hk.2, rfl, fun _ => rfl⟩
  | segment asdu hr hs =>
    have hf : s.fits (.segment asdu) = true := decide_eq_true ⟨hr, hs⟩
    have hf₁ : s.admits SessionInput.fileLength? (.segment asdu) = none :=
      admits_of_none rfl
    have hf₂ : s.admits SessionInput.sectionLength? (.segment asdu) = none :=
      admits_of_none rfl
    rw [hs] at hk
    refine ⟨hr, ?_⟩
    rw [hf₁, hf₂, admits_of_fits hf]
    dsimp only
    rw [hs]
    refine ⟨hk.1, hk.2.1, fun hlt => ?_⟩
    have hlen : (D ++ [asdu.segment]).flatten.length = D.flatten.length + asdu.segment.length := by
      rw [List.flatten_append, List.length_append, List.flatten_singleton]
    have hc := hk.2.2 (lt_of_le_of_lt (hlen ▸ Nat.le_add_right _ _) hlt)
    show (saturatingAdd _ _).toNat = (D ++ [asdu.segment]).flatten.length
    rw [hlen, ← hc, toNat_saturatingAdd]
    rw [hc, ← hlen]
    exact hlt
  | last asdu hr | mismatch asdu hr => exact ⟨hr, trivial⟩
  | announce length hr | selected asdu hr | requested asdu hr | chunk data hr | eof hr
  | acked asdu hr => rw [hrole] at hr; cases hr

/-- **A call keeps the relation.** -/
theorem step (hk : Receiving D file part s) (i : SessionInput × Instant) :
    Receiving (D ++ (s.admits SessionInput.segment? i.1).toList)
      ((s.admits SessionInput.fileLength? i.1).or file)
      ((s.admits SessionInput.sectionLength? i.1).or part) (s.step i).1 := by
  cases hlive : s.isTerminal with
  | true =>
    have hf : s.fits i.1 = false := fits_of_terminal hlive
    rw [step_of_terminal hlive, admits_of_not_fits hf, admits_of_not_fits hf, admits_of_not_fits hf,
      Option.toList_none, List.append_nil]
    exact hk
  | false =>
    have hi := hk.onInput hlive i.1 i.2
    obtain ⟨progress, h⟩ | h := step_cases hlive i
    · rw [h]
      exact ⟨hi.role, hi.knows⟩
    · rw [h]
      exact ⟨hi.role, trivial⟩

end Receiving

namespace Session

variable {s : Session}

/-- **A call delivers what its input brings.** -/
theorem delivered_step (hs : s.actions = []) (i : SessionInput × Instant) :
    (s.step i).2.filterMap SessionAction.delivered?
      = (s.admits SessionInput.segment? i.1).toList := by
  cases hlive : s.isTerminal with
  | true =>
    rw [step_of_terminal hlive, admits_of_not_fits (fits_of_terminal hlive)]
    rfl
  | false =>
    rw [← delivered_onInput hs i.1 i.2 hlive]
    obtain ⟨progress, h⟩ | h := step_cases hlive i
    · rw [h]
    · rw [h, List.filterMap_append]
      exact List.append_nil _

/-- **A call of a receiver reports a success if its input closes it.** -/
theorem reported_step (hs : s.actions = []) (hr : s.role = .receiver)
    (i : SessionInput × Instant) : (s.step i).2.filterMap SessionAction.bytes?
      = if s.closes i.1 then [s.bytesTransferred] else [] := by
  cases hlive : s.isTerminal with
  | true =>
    rw [step_of_terminal hlive, closes_of_not_fits (fits_of_terminal hlive)]
    rfl
  | false =>
    rw [← reported_onInput hs i.1 i.2 hlive hr]
    obtain ⟨progress, h⟩ | h := step_cases hlive i
    · rw [h]
    · rw [h, List.filterMap_append]
      exact List.append_nil _

/-- A closing input finds the receiver taking segments. -/
theorem state_of_closes {input : SessionInput} (h : s.closes input = true) :
    s.state = .rxReceivingSegments := by
  cases input with
  | lastSection asdu => exact (of_decide_eq_true h).2.1
  | _ => exact absurd h Bool.false_ne_true

/-- A closing input brings nothing else. -/
theorem exists_of_closes {input : SessionInput} (h : s.closes input = true) :
    ∃ asdu, input = .lastSection asdu := by
  cases input with
  | lastSection asdu => exact ⟨asdu, rfl⟩
  | _ => exact absurd h Bool.false_ne_true

/-- A closing input ends the session. -/
theorem isTerminal_of_closes {i : SessionInput × Instant}
    (h : s.closes i.1 = true) : (s.step i).1.isTerminal = true := by
  have hlive : s.isTerminal = false := by rw [isTerminal, state_of_closes h]
  have hd : (s.onInput i.1 i.2).isTerminal = true := by
    have hc := course_onInput hlive i.1 i.2
    generalize i.1 = input, s.onInput i.1 i.2 = d at h hc ⊢
    cases hc with
    | ignore hi =>
      rw [closes_of_not_fits (fits_of_ignores hi)] at h
      exact absurd h (by decide)
    | refuse | last | mismatch => rfl
    | _ => exact absurd h Bool.false_ne_true
  obtain ⟨progress, he⟩ | he := step_cases hlive i
  · rw [he]
    exact hd
  · rw [he]
    rfl

end Session

/-! ## The successes of a run -/

section Runs

variable {nof : NameOfFile} {config : SessionConfig} {h : List Call}
  {s : Session}

/-- **The session knows what it has taken.** -/
theorem receiving_of_run (r : Run Session.step (Session.new .receiver nof config) h s) :
    Receiving (taken h) (announcedFile h) (announcedSection h) s := by
  induction r with
  | nil => exact ⟨rfl, rfl⟩
  | snoc r i ih =>
    rw [taken, admitted_snoc, announcedFile, getLast?_admitted_snoc,
      announcedSection, getLast?_admitted_snoc]
    exact ih.step i

/-- **A receiver delivers exactly the segments it takes.** -/
theorem delivered_of_run {role : Role} (r : Run Session.step (Session.new role nof config) h s) :
    delivered h = taken h := by
  induction r with
  | nil => rfl
  | snoc r i ih =>
    rw [delivered_snoc, delivered_step (actions_of_run r), ih, taken, taken, admitted_snoc]

/-- A receiver reports its success with the call that closes it. -/
theorem reported_snoc_of_run (r : Run Session.step (Session.new .receiver nof config) h s)
    (i : SessionInput × Instant) : reported (h ++ [call Session.step s i])
      = reported h ++ if s.closes i.1 then [s.bytesTransferred] else [] := by
  rw [reported_snoc, reported_step (actions_of_run r) (receiving_of_run r).role]

/-- As long as a receiver is live it has reported nothing. -/
theorem reported_of_live (r : Run Session.step (Session.new .receiver nof config) h s)
    (hlive : s.isTerminal = false) : reported h = [] := by
  induction r with
  | nil => rfl
  | @snoc g d r i ih =>
    have hd : d.isTerminal = false := by
      by_contra hd
      rw [step_of_terminal (Bool.not_eq_false _ ▸ hd)] at hlive
      exact hd hlive
    have hc : d.closes i.1 = false := by
      by_contra hc
      rw [isTerminal_of_closes (Bool.not_eq_false _ ▸ hc)] at hlive
      exact absurd hlive (by decide)
    rw [reported_snoc_of_run r, ih hd, hc]
    rfl

end Runs

/-- **Every reported success is a complete file**: its count is the number of
octets delivered, and the length of the section and of the file as they were
announced. -/
def ReportsWhole (h : List Call) : Prop :=
  ∀ bytes ∈ reported h, bytes.toNat = (delivered h).flatten.length
    ∧ announcedSection h = some bytes ∧ announcedFile h = some bytes

/-- **The peer closes no section but whole ones**: where it closes one, it
has sent as many octets as it announced for the section, and announced as
many for the file. -/
def ClosesWhole : List Call → Prop :=
  Throughout fun g k => k.before.closes k.input.1 = true →
    (taken g).flatten.length = k.before.sectionLength.toNat
      ∧ k.before.fileLength = k.before.sectionLength

instance (h : List Call) : Decidable (ClosesWhole h) :=
  inferInstanceAs (Decidable (Throughout _ h))

/-- A call that changes nothing of what a history says leaves its successes
complete. -/
theorem reportsWhole_snoc_of_terminal (h : List Call) {s : Session}
    (hs : s.isTerminal = true) (i : SessionInput × Instant) :
    ReportsWhole (h ++ [call Session.step s i]) ↔ ReportsWhole h := by
  have hf : s.fits i.1 = false := fits_of_terminal hs
  have hdel : delivered (h ++ [call Session.step s i]) = delivered h := by
    rw [delivered_snoc, step_of_terminal hs]
    exact List.append_nil _
  have hrep : reported (h ++ [call Session.step s i]) = reported h := by
    rw [reported_snoc, step_of_terminal hs]
    exact List.append_nil _
  unfold ReportsWhole announcedSection announcedFile
  rw [hdel, hrep, getLast?_admitted_snoc, getLast?_admitted_snoc,
    admits_of_not_fits hf, admits_of_not_fits hf]
  rfl

/-- **The success of a closing call** is complete if the section is whole. -/
theorem reportsWhole_snoc_of_closes {nof : NameOfFile} {config : SessionConfig}
    {h : List Call} {s : Session}
    (r : Run Session.step (Session.new .receiver nof config) h s)
    {i : SessionInput × Instant} (hc : s.closes i.1 = true) :
    ReportsWhole (h ++ [call Session.step s i]) ↔ (taken h).flatten.length = s.sectionLength.toNat
        ∧ s.fileLength = s.sectionLength := by
  obtain ⟨-, hk⟩ := receiving_of_run r
  have hst := state_of_closes hc
  have hlive : s.isTerminal = false := by rw [Session.isTerminal, hst]
  rw [hst] at hk
  obtain ⟨hfile, hpart, hcount⟩ := hk
  obtain ⟨asdu, hin⟩ := exists_of_closes hc
  have hdel : delivered (h ++ [call Session.step s i]) = taken h := by
    rw [delivered_of_run (r.snoc i), taken, admitted_snoc, hin, admits_of_none rfl]
    exact List.append_nil _
  have hrep : reported (h ++ [call Session.step s i]) = [s.bytesTransferred] := by
    rw [reported_snoc_of_run r, reported_of_live r hlive, if_pos hc]
    rfl
  have hsec : announcedSection (h ++ [call Session.step s i]) = some s.sectionLength := by
    rw [announcedSection, getLast?_admitted_snoc, hin, admits_of_none rfl]
    exact hpart
  have hfil : announcedFile (h ++ [call Session.step s i]) = some s.fileLength := by
    rw [announcedFile, getLast?_admitted_snoc, hin, admits_of_none rfl]
    exact hfile
  unfold ReportsWhole
  rw [hdel, hrep, hsec, hfil]
  simp only [List.mem_singleton, forall_eq, Option.some_inj]
  constructor
  · rintro ⟨hlen, hs, hf⟩
    exact ⟨by rw [← hlen, hs], hf.trans hs.symm⟩
  · rintro ⟨hlen, hf⟩
    -- the announced length is a `u32`, so the count has not stopped short
    have hb : s.bytesTransferred.toNat = s.sectionLength.toNat :=
      (hcount (hlen ▸ s.sectionLength.toNat_lt)).trans hlen
    have hb := UInt32.toNat_inj.mp hb
    exact ⟨hb ▸ hlen.symm, hb.symm, hf.trans hb.symm⟩

/-- **A receiver reports only complete files exactly if the peer closes only
whole sections.** -/
theorem reportsWhole_iff {nof : NameOfFile} {config : SessionConfig}
    {h : List Call} {s : Session}
    (r : Run Session.step (Session.new .receiver nof config) h s) :
    ReportsWhole h ↔ ClosesWhole h := by
  induction r with
  | nil => exact ⟨fun _ => throughout_nil _,
      fun _ b hb => absurd hb List.not_mem_nil⟩
  | @snoc g d r i ih =>
    unfold ClosesWhole at ih ⊢
    rw [throughout_snoc, ← ih, call_before, call_input]
    have hnone : d.isTerminal = false → ReportsWhole g := fun hlive b hb => by
      rw [reported_of_live r hlive] at hb
      exact absurd hb List.not_mem_nil
    cases hc : d.closes i.1 with
    | true =>
      have hlive : d.isTerminal = false := by
        rw [Session.isTerminal, Session.state_of_closes hc]
      rw [reportsWhole_snoc_of_closes r hc, and_iff_right (hnone hlive)]
      exact ⟨fun hw _ => hw, fun hw => hw rfl⟩
    | false =>
      rw [and_iff_left (fun h => absurd h Bool.false_ne_true)]
      cases hd : d.isTerminal with
      | true => exact reportsWhole_snoc_of_terminal g hd i
      | false =>
        refine iff_of_true (fun b hb => ?_) (hnone hd)
        rw [reported_snoc_of_run r, reported_of_live r hd, hc] at hb
        exact absurd hb List.not_mem_nil

/-- The dialogue of a file of three octets: it is reported complete. -/
theorem reportsWhole_three_octets :
    let is : List (SessionInput × Instant) :=
      [(.start 0, 0),
       (.fileReady ⟨⟨0⟩, ⟨7⟩, ⟨3⟩, Frq.ready⟩, 1),
       (.sectionReady ⟨⟨0⟩, ⟨7⟩, ⟨1⟩, ⟨3⟩, Srq.ready⟩, 2),
       (.segment ⟨⟨0⟩, ⟨7⟩, ⟨1⟩, [1, 2, 3]⟩, 3),
       (.lastSection ⟨⟨0⟩, ⟨7⟩, ⟨1⟩, .fileWithoutDeactivate, ⟨6⟩⟩, 4)]
    let e := exec Session.step (Session.new .receiver ⟨7⟩ .default) is
    reported e.1 = [3] ∧ ReportsWhole e.1 := by
  intro is e
  exact ⟨by decide, (reportsWhole_iff (run_exec _ _ is)).mpr (by decide)⟩

/-- An empty section is reported as a success, although a hundred octets were
announced. -/
theorem reportsWhole_truncated :
    ¬ ∀ (nof : NameOfFile) (config : SessionConfig) (h : List Call)
      (s : Session), Run Session.step (Session.new .receiver nof config) h s →
      ReportsWhole h := by
  intro h
  have hw := h ⟨7⟩ .default _ _ (run_exec _ _
    [(.start 0, 0),
     (.fileReady ⟨⟨0⟩, ⟨7⟩, ⟨100⟩, Frq.ready⟩, 1),
     (.sectionReady ⟨⟨0⟩, ⟨7⟩, ⟨1⟩, ⟨100⟩, Srq.ready⟩, 2),
     (.lastSection ⟨⟨0⟩, ⟨7⟩, ⟨1⟩, .fileWithoutDeactivate, ⟨0⟩⟩, 3)])
    0 (by decide)
  exact absurd hw.2.1 (by decide)

end FileTransfer
