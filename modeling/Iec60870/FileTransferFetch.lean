import Mathlib.Data.List.GetD
import Iec60870.Duplex
import Iec60870.FileTransferWire

/-!
# Fetching a file, end to end

A receiving session and a sending session joined by the wire: the receiver
is started, the sender is set up as the service sets it up when the first
select arrives, and every message goes through the ASDU codec
(`fetchNet`). The provider answers each request of the sender once, with
the next chunk of the file and with the end of the file after the last
one. Clock readings are arbitrary within a window that is shorter than the
idle timeout.

The exchange is described in three layers. `Turn` is the part of a
session's behaviour an orderly fetch uses, over signals and lists of chunks:
what a session in a given state does on a given event. `Part` says that a
session and its history stand where such an abstract session stands, and
`Part.turn` that the modelled machine takes the turns. `Stage` is the
abstract protocol: where the two abstract sessions can stand together, with
which signals in flight. It is closed under the turns of either side
(`Stage.hears_receiver`, `Stage.hears_sender`, `Stage.answer`), and
`fetch_end_to_end` reads the result off it.
-/

namespace FileTransfer

open Iec60870 Machine

/-! ## What both sessions compute -/

/-- The byte count after a list of segments. -/
def bytesOf (data : List Bytes) : UInt32 :=
  data.foldl (fun n d => saturatingAdd n (UInt32.ofNat d.length)) 0

/-- The checksum after a list of segments. -/
def checksumOf (data : List Bytes) : Checksum :=
  data.foldl Checksum.updateSlice Checksum.zero

theorem bytesOf_concat (data : List Bytes) (d : Bytes) : bytesOf (data ++ [d])
      = saturatingAdd (bytesOf data) (UInt32.ofNat d.length) :=
  List.foldl_concat ..

theorem checksumOf_concat (data : List Bytes) (d : Bytes) :
    checksumOf (data ++ [d]) = (checksumOf data).updateSlice d :=
  List.foldl_concat ..

/-! ## Turns -/

/-- What makes a session move. -/
inductive Event where
  /-- The application starts it. -/
  | start
  /-- A message with this signal arrives. -/
  | hears (σ : Signal)
  /-- The provider answers. -/
  | chunk (data : Bytes)

/-- An input is the event. -/
def Event.Is (input : SessionInput) : Event → Prop
  | .start => ∃ length, input = .start length
  | .hears σ => signal input = some σ
  | .chunk data => input = .segmentReady data

/-- The number of the provider's answers in an event. -/
def Event.answers : Event → ℕ
  | .chunk _ => 1
  | _ => 0

/-- **One turn of a session in an orderly fetch**: with a role and in a
state, with `data` received or sent so far, on an event, it moves to a
state and data and says the signals `out`. -/
inductive Turn : Role → SessionState → List Bytes → Event →
    SessionState → List Bytes → List Signal → Prop
  | select : Turn .receiver .idle [] .start .rxAwaitFileReady [] [.select]
  | fileReady : Turn .receiver .rxAwaitFileReady [] (.hears .fileReady)
      .rxAwaitSectionReady [] [.request]
  | sectionReady : Turn .receiver .rxAwaitSectionReady [] (.hears .sectionReady)
      .rxReceivingSegments [] []
  | segment (data : List Bytes) (d : Bytes) :
      Turn .receiver .rxReceivingSegments data (.hears (.segment d))
        .rxReceivingSegments (data ++ [d]) []
  | last (data : List Bytes) :
      Turn .receiver .rxReceivingSegments data (.hears (.last (checksumOf data)))
        .completed data [.ack]
  | selected : Turn .sender .txAwaitSelect [] (.hears .select) .txAwaitRequest [] [.fileReady]
  | requested : Turn .sender .txAwaitRequest [] (.hears .request)
      .txSendingSegments [] [.sectionReady]
  | chunk (data : List Bytes) (d : Bytes) (hd : d ≠ []) :
      Turn .sender .txSendingSegments data (.chunk d) .txSendingSegments (data ++ [d]) [.segment d]
  | eof (data : List Bytes) : Turn .sender .txSendingSegments data (.chunk [])
        .txAwaitAck data [.last (checksumOf data)]
  | acked (data : List Bytes) : Turn .sender .txAwaitAck data (.hears .ack) .completed data []

/-! ## A session that stands where an abstract one stands -/

/-- A clock reading in the window: the window starts at `a` and is shorter
than the idle timeout. -/
def InWindow (cfg : SessionConfig) (a t : Instant) : Prop :=
  a ≤ t ∧ t < a + cfg.idleTimeout

/-- The requests of the provider that are open in a state. -/
def openRequests : SessionState → ℕ
  | .txSendingSegments => 1
  | _ => 0

/-- **A session stands where an abstract one stands**, and its history has
brought it there: with the role `ρ` and in the state `σ`, having received
or sent `data`, after `n` answers of the provider, without a failure. -/
structure Part (cfg : SessionConfig) (a : Instant) (ρ : Role)
    (σ : SessionState) (data : List Bytes) (n : ℕ) (c : Session)
    (h : List Call) : Prop where
  role : c.role = ρ
  config : c.config = cfg
  state : c.state = σ
  bytes : c.bytesTransferred = bytesOf data
  checksum : c.sectionChecksum = checksumOf data
  awaiting : c.awaitingProvider = decide (openRequests σ = 1)
  timely : ∀ t, c.lastProgress = some t → a ≤ t
  clean : c.actions = []
  answered : answered h = n
  requested : requested h = n + openRequests σ
  delivered : delivered h = if ρ = .receiver then data else []
  reported : reported h = if σ = .completed then [bytesOf data] else []
  unfailed : ∀ k ∈ h, ∀ r, .failed r ∉ k.actions

section Advance

variable {cfg : SessionConfig} {a : Instant} {ρ : Role} {σ τ : SessionState}
  {data data' : List Bytes} {n : ℕ} {c d : Session} {h : List Call}
  {i : SessionInput × Instant} {now : Instant}

/-- Within the window no call times out: beyond what its handler does, it
only starts the timer. -/
theorem step_of_timely (hc : c.isTerminal = false)
    (hd : c.onInput i.1 i.2 = d) (hw : InWindow d.config a i.2)
    (ht : ∀ t, d.lastProgress = some t → a ≤ t) :
    ∃ lp, c.step i = ({ d with lastProgress := lp, actions := [] }, d.actions)
      ∧ ∀ t, lp = some t → a ≤ t := by
  have hcheck : ∃ lp, d.checkTimeout i.2 = { d with lastProgress := lp }
      ∧ ∀ t, lp = some t → a ≤ t := by
    unfold Session.checkTimeout
    split
    · exact ⟨d.lastProgress, rfl, ht⟩
    · split
      · exact ⟨d.lastProgress, rfl, ht⟩
      · split
        · rename_i last hlast
          have hle := ht last hlast
          have hlt : i.2 - last < d.config.idleTimeout :=
            Nat.lt_of_le_of_lt (Nat.sub_le_sub_left hle i.2) (Nat.sub_lt_left_of_lt_add hw.1 hw.2)
          rw [if_neg (Nat.not_le.2 hlt)]
          exact ⟨d.lastProgress, rfl, ht⟩
        · refine ⟨some i.2, rfl, fun t hte => ?_⟩
          rw [← Option.some.inj hte]
          exact hw.1
  obtain ⟨lp, hlp, hle⟩ := hcheck
  refine ⟨lp, ?_, hle⟩
  unfold Session.step
  rw [if_neg (by rw [hc]; decide), hd, hlp]

/-- **What a handler has to do for the session to stand where the abstract
one moves to.** -/
structure Advances (cfg : SessionConfig) (a : Instant) (ρ : Role)
    (σ τ : SessionState) (data data' : List Bytes) (input : SessionInput)
    (d : Session) : Prop where
  role : d.role = ρ
  config : d.config = cfg
  state : d.state = τ
  bytes : d.bytesTransferred = bytesOf data'
  checksum : d.sectionChecksum = checksumOf data'
  awaiting : d.awaitingProvider = decide (openRequests τ = 1)
  timely : ∀ t, d.lastProgress = some t → a ≤ t
  requested : openRequests σ + d.actions.countP SessionAction.isRequest
    = (if input.isAnswer then 1 else 0) + openRequests τ
  delivered : (if ρ = .receiver then data else []) ++ d.actions.filterMap SessionAction.delivered?
    = if ρ = .receiver then data' else []
  reported : d.actions.filterMap SessionAction.bytes?
    = if τ = .completed then [bytesOf data'] else []
  unfailed : ∀ r, .failed r ∉ d.actions

/-- A call whose handler advances the session takes it to where the abstract
one moves, with the handler's actions. -/
theorem Part.advance (p : Part cfg a ρ σ data n c h)
    (hc : c.isTerminal = false) (hw : InWindow cfg a i.2)
    (hd : c.onInput i.1 i.2 = d) (ha : Advances cfg a ρ σ τ data data' i.1 d) :
    Part cfg a ρ τ data' (n + if i.1.isAnswer then 1 else 0) (c.step i).1
        (h ++ [call Session.step c i]) ∧ (c.step i).2 = d.actions := by
  obtain ⟨lp, hs, hlp⟩ := step_of_timely hc hd (by rw [ha.config]; exact hw) ha.timely
  have hσ : σ ≠ .completed := by
    intro hσ
    unfold Session.isTerminal at hc
    rw [p.state, hσ] at hc
    exact absurd hc (by decide)
  refine ⟨?_, by rw [hs]⟩
  constructor
  · rw [hs]; exact ha.role
  · rw [hs]; exact ha.config
  · rw [hs]; exact ha.state
  · rw [hs]; exact ha.bytes
  · rw [hs]; exact ha.checksum
  · rw [hs]; exact ha.awaiting
  · rw [hs]; exact hlp
  · rw [hs]
  · rw [answered_snoc, p.answered]
  · rw [requested_snoc, p.requested, hs, Nat.add_assoc, ha.requested, Nat.add_assoc]
  · rw [delivered_snoc, p.delivered, hs, ha.delivered]
  · rw [reported_snoc, p.reported, hs, if_neg hσ, ha.reported, List.nil_append]
  · intro k hk r
    obtain hk | hk := List.mem_append.1 hk
    · exact p.unfailed k hk r
    · rw [List.mem_singleton.1 hk, call_actions, hs]
      exact ha.unfailed r

/-- The session takes a turn on the input: it stands where the abstract one
has moved to, and its peer will hear the signals. -/
def Moves (cfg : SessionConfig) (a : Instant) (ca : CommonAddress) (ρ : Role)
    (τ : SessionState) (data : List Bytes) (n : ℕ) (out : List Signal)
    (c : Session) (h : List Call) (i : SessionInput × Instant) : Prop :=
  Part cfg a ρ τ data n (c.step i).1 (h ++ [call Session.step c i])
    ∧ ((c.step i).2.filterMap (message ca)).map heard = out.map some

/-- A session in a state that is not final is not over. -/
theorem Part.live (p : Part cfg a ρ σ data n c h) (h₁ : σ ≠ .completed)
    (h₂ : σ ≠ .failed) : c.isTerminal = false := by
  unfold Session.isTerminal
  rw [p.state]
  cases σ with
  | completed => exact absurd rfl h₁
  | failed => exact absurd rfl h₂
  | _ => rfl

/-- Where it stands can be read off it. -/
theorem Part.stands (p : Part cfg a ρ σ data n c h) {role : Role} {state : SessionState}
    (hr : c.role = role) (hs : c.state = state) : ρ = role ∧ σ = state :=
  ⟨p.role.symm.trans hr, p.state.symm.trans hs⟩

/-- A turn from what the handler does. -/
theorem Part.moves {ca : CommonAddress} {out : List Signal}
    {input : SessionInput} (p : Part cfg a ρ σ data n c h)
    (hd : c.onInput input now = d) (hc : c.isTerminal = false)
    (hw : InWindow cfg a now) (ha : Advances cfg a ρ σ τ data data' input d)
    (hs : (d.actions.filterMap (message ca)).map heard = out.map some) :
    Moves cfg a ca ρ τ data' (n + if input.isAnswer then 1 else 0) out c h (input, now) := by
  obtain ⟨hp, hacts⟩ := p.advance (i := (input, now)) hc hw hd ha
  exact ⟨hp, by rw [hacts, hs]⟩

/-- One message is heard. -/
theorem map_heard_singleton {m : Bytes} {x : Signal} (h : heard m = some x) :
    [m].map heard = [x].map some := by
  rw [List.map_singleton, List.map_singleton, h]

/-- Progress within the window is timely. -/
theorem timely_some (hw : InWindow cfg a now) : ∀ t, some now = some t → a ≤ t := by
  rintro t ⟨⟩
  exact hw.1

end Advance

/-! ## The session takes the turns -/

section Turns

variable {cfg : SessionConfig} {a : Instant} {data : List Bytes} {n : ℕ} {c : Session}
  {h : List Call} {now : Instant} {ca : CommonAddress} {ρ : Role} {input : SessionInput}
  {σ : SessionState}

/-- An event whose turn it is fits the session. -/
theorem Turn.fits {τ : SessionState} {data' : List Bytes} {e : Event} {out : List Signal}
    (t : Turn ρ σ data e τ data' out) (he : e.Is input) (p : Part cfg a ρ σ data n c h) :
    c.fits input = true := by
  have hr := p.role
  have hs := p.state
  cases t with
  | select =>
    obtain ⟨length, rfl⟩ := he
    exact decide_eq_true hs
  | chunk | eof =>
    obtain rfl := he
    exact decide_eq_true ⟨hr, hs⟩
  | fileReady | sectionReady =>
    cases of_signal he with
    | _ hn => exact decide_eq_true ⟨hr, hs, hn⟩
  | segment data d =>
    cases of_signal he with
    | segment asdu => exact decide_eq_true ⟨hr, hs⟩
  | last data =>
    cases of_signal he with
    | last hchs => exact decide_eq_true ⟨hr, hs, by rw [hchs, p.checksum]⟩
  | selected =>
    cases of_signal he with
    | select ha => exact decide_eq_true ⟨hr, .inl ⟨.inr hs, ha⟩⟩
  | requested =>
    cases of_signal he with
    | request ha => exact decide_eq_true ⟨hr, .inr ⟨hs, ha⟩⟩
  | acked data =>
    cases of_signal he with
    | ack ha => exact decide_eq_true ⟨hr, hs, ha⟩

/-- **A session takes the turns of the abstract one.** -/
theorem Part.turn {τ : SessionState} {data' : List Bytes} {e : Event} {out : List Signal}
    (p : Part cfg a ρ σ data n c h) (t : Turn ρ σ data e τ data' out)
    (he : e.Is input) (hw : InWindow cfg a now)
    (hlen : ∀ d, e = .chunk d → d.length ≤ 255) :
    Moves cfg a ca ρ τ data' (n + e.answers) out c h (input, now) := by
  have hfits := t.fits he p
  have hlive : c.isTerminal = false :=
    Bool.eq_false_iff.mpr fun hover => by simp [Session.fits_of_terminal hover] at hfits
  have hcourse := Session.course_onInput hlive input now
  generalize hd : c.onInput input now = d at hcourse
  have hnow := timely_some hw
  have hstatus : (0 &&& 0x0F : UInt8) < 16 := by decide
  cases hcourse with
  | ignore hi =>
    rw [Session.fits_of_ignores hi] at hfits
    cases hfits
  | refuse hf =>
    rw [hf] at hfits
    cases hfits
  | select length hr hst =>
    obtain ⟨rfl, rfl⟩ := p.stands hr hst
    cases t
    rw [p.clean] at hd
    exact p.moves hd hlive hw ⟨p.role, p.config, rfl, p.bytes, p.checksum, p.awaiting, p.timely,
      rfl, rfl, rfl, by simp⟩
      (map_heard_singleton (heard_selectCall ca _ ⟨trivial, hstatus⟩))
  | fileReady asdu hr hst hn =>
    obtain ⟨rfl, rfl⟩ := p.stands hr hst
    cases t
    rw [p.clean] at hd
    exact p.moves hd hlive hw ⟨p.role, p.config, rfl, p.bytes, p.checksum, p.awaiting, hnow,
      rfl, rfl, rfl, by simp⟩
      (map_heard_singleton (heard_selectCall ca _ ⟨trivial, hstatus⟩))
  | sectionReady asdu hr hst hn =>
    obtain ⟨rfl, rfl⟩ := p.stands hr hst
    cases t
    rw [p.clean] at hd
    exact p.moves hd hlive hw ⟨p.role, p.config, rfl, rfl, rfl, p.awaiting, hnow, rfl, rfl, rfl,
      by simp⟩ rfl
  | segment asdu hr hst =>
    obtain ⟨rfl, rfl⟩ := p.stands hr hst
    cases t with
    | last => cases he
    | segment =>
      cases he
      rw [p.clean, p.bytes, p.checksum] at hd
      exact p.moves hd hlive hw ⟨p.role, p.config, p.state, (bytesOf_concat _ _).symm,
        (checksumOf_concat _ _).symm, p.awaiting, hnow, rfl, rfl, rfl, by simp⟩ rfl
  | last asdu hr hst hc =>
    obtain ⟨rfl, rfl⟩ := p.stands hr hst
    cases t with
    | segment => cases he
    | last =>
      rw [p.clean, p.bytes] at hd
      exact p.moves hd hlive hw ⟨p.role, p.config, rfl, rfl, p.checksum, p.awaiting, hnow,
        rfl, List.append_nil _, rfl, by simp⟩
        (map_heard_singleton (heard_ackFile ca _ ⟨trivial, hstatus⟩))
  | mismatch asdu hr hst hc => exact absurd (of_decide_eq_true hfits).2.2 hc
  | announce length hr hst =>
    obtain ⟨rfl, rfl⟩ := p.stands hr hst
    cases t
  | selected asdu hr hst ha =>
    obtain ⟨rfl, rfl⟩ | ⟨rfl, rfl⟩ := hst.imp (p.stands hr) (p.stands hr)
    · cases t
    · cases t
      rw [p.clean] at hd
      exact p.moves hd hlive hw ⟨p.role, p.config, rfl, p.bytes, p.checksum, p.awaiting, hnow,
        rfl, rfl, rfl, by simp⟩
        (map_heard_singleton (heard_fileReady ca _ (show (0 : UInt8) ≤ 127 by decide)))
  | requested asdu hr hst ha =>
    obtain ⟨rfl, rfl⟩ := p.stands hr hst
    cases t
    have hasked : c.awaitingProvider = false := p.awaiting
    rw [p.clean, hasked] at hd
    exact p.moves hd hlive hw ⟨p.role, p.config, rfl, rfl, rfl, rfl, hnow, rfl, rfl, rfl,
      by simp⟩ (map_heard_singleton (heard_sectionReady ca _ (show (0 : UInt8) ≤ 127 by decide)))
  | chunk data hr hst hne =>
    obtain ⟨rfl, rfl⟩ := p.stands hr hst
    cases t with
    | eof =>
      cases he
      exact absurd rfl hne
    | chunk =>
      cases he
      rw [p.clean, p.bytes, p.checksum] at hd
      exact p.moves hd hlive hw ⟨p.role, p.config, p.state, (bytesOf_concat _ _).symm,
        (checksumOf_concat _ _).symm, rfl, hnow, rfl, rfl, rfl, by simp⟩
        (map_heard_singleton (heard_segment ca _ (hlen _ rfl)))
  | eof hr hst =>
    obtain ⟨rfl, rfl⟩ := p.stands hr hst
    cases t with
    | chunk _ _ hne => exact absurd (SessionInput.segmentReady.inj he).symm hne
    | eof =>
      rw [p.clean, p.checksum] at hd
      exact p.moves hd hlive hw ⟨p.role, p.config, rfl, p.bytes, rfl, rfl, hnow, rfl,
        rfl, rfl, by simp⟩ (map_heard_singleton (heard_lastSection ca _ trivial))
  | acked asdu hr hst ha =>
    obtain ⟨rfl, rfl⟩ := p.stands hr hst
    cases t
    rw [p.clean, p.bytes] at hd
    exact p.moves hd hlive hw ⟨p.role, p.config, rfl, rfl, p.checksum, p.awaiting, hnow,
      rfl, rfl, rfl, by simp⟩ rfl

/-- A session that is over makes no move. -/
theorem Part.over (p : Part cfg a ρ .completed data n c h)
    {i : SessionInput × Instant} (hi : i.1.isAnswer = false) :
    Moves cfg a ca ρ .completed data n [] c h i := by
  have hs : c.step i = (c, []) := by
    rw [Session.step, if_pos (by rw [Session.isTerminal, p.state])]
  refine ⟨?_, by rw [hs]; rfl⟩
  rw [hs]
  refine ⟨p.role, p.config, p.state, p.bytes, p.checksum, p.awaiting, p.timely,
    p.clean, ?_, ?_, ?_, ?_, ?_⟩
  · rw [answered_snoc, p.answered, hi]
    rfl
  · rw [requested_snoc, p.requested, hs]
    rfl
  · rw [delivered_snoc, p.delivered, hs]
    exact List.append_nil _
  · rw [reported_snoc, p.reported, hs]
    exact List.append_nil _
  · intro k hk r
    obtain hk | hk := List.mem_append.1 hk
    · exact p.unfailed k hk r
    · rw [List.mem_singleton.1 hk, call_actions, hs]
      exact List.not_mem_nil

/-- **A tick within the window, or a start of a session that runs, moves
nothing.** -/
theorem Part.stay (p : Part cfg a ρ σ data n c h) (hσ : σ ≠ .failed)
    (hi : input = .tick ∨ (σ ≠ .idle ∧ ∃ length, input = .start length))
    (hw : InWindow cfg a now) : Moves cfg a ca ρ σ data n [] c h (input, now) := by
  have hans : input.isAnswer = false := by
    obtain rfl | ⟨-, length, rfl⟩ := hi
    · rfl
    · rfl
  have hd : c.onInput input now = c := by
    obtain rfl | ⟨hne, length, rfl⟩ := hi
    · rfl
    · show c.onStart length = c
      rw [Session.onStart, if_pos (by rw [p.state]; exact hne)]
  by_cases hc : σ = .completed
  · subst hc
    exact p.over hans
  · have ha : Advances cfg a ρ σ σ data data input c := by
      refine ⟨p.role, p.config, p.state, p.bytes, p.checksum, p.awaiting, p.timely, ?_, ?_, ?_, ?_⟩
      · rw [p.clean, hans]
        exact Nat.add_comm _ _
      · rw [p.clean]
        exact List.append_nil _
      · rw [p.clean, if_neg hc]
        rfl
      · rw [p.clean]
        exact fun _ => List.not_mem_nil
    have hm : Moves cfg a ca ρ σ data (n + if input.isAnswer then 1 else 0) [] c h (input, now) :=
      p.moves hd (p.live hc hσ) hw ha (by rw [p.clean]; rfl)
    rw [hans] at hm
    exact hm

end Turns

/-! ## The abstract protocol -/

/-- Where the sender of a section stands: its state, what it has sent, how
often the provider has answered, and every signal it has sent after
announcing the section. -/
inductive Source (chunks : List Bytes) :
    SessionState → List Bytes → ℕ → List Signal → Prop
  /-- The first `k` chunks are sent. -/
  | sending (k : ℕ) (hk : k ≤ chunks.length) : Source chunks .txSendingSegments (chunks.take k) k
        ((chunks.take k).map .segment)
  /-- All chunks are sent, and the end. -/
  | ended : Source chunks .txAwaitAck chunks (chunks.length + 1)
        (chunks.map .segment ++ [.last (checksumOf chunks)])

/-- **The stages of an orderly fetch**: the receiver's state and data, the
sender's state, data and count of answers, and what is in flight to the
receiver and to the sender. -/
inductive Stage (chunks : List Bytes) : SessionState → List Bytes →
    SessionState → List Bytes → ℕ → List Signal → List Signal → Prop
  | idle : Stage chunks .idle [] .txAwaitSelect [] 0 [] []
  | selecting : Stage chunks .rxAwaitFileReady [] .txAwaitSelect [] 0 [] [.select]
  | offered : Stage chunks .rxAwaitFileReady [] .txAwaitRequest [] 0 [.fileReady] []
  | requesting : Stage chunks .rxAwaitSectionReady [] .txAwaitRequest [] 0 [] [.request]
  | announced {σ : SessionState} {data : List Bytes} {n : ℕ} {out : List Signal}
      (hs : Source chunks σ data n out) :
      Stage chunks .rxAwaitSectionReady [] σ data n (.sectionReady :: out) []
  | streaming {σ : SessionState} {data : List Bytes} {n : ℕ} {out : List Signal}
      (hs : Source chunks σ data n out) (seen : List Bytes) (rest : List Signal)
      (ho : out = seen.map .segment ++ rest) :
      Stage chunks .rxReceivingSegments seen σ data n rest []
  | acknowledged : Stage chunks .completed chunks .txAwaitAck chunks (chunks.length + 1) [] [.ack]
  | done : Stage chunks .completed chunks .completed chunks (chunks.length + 1) [] []

section Stages

variable {chunks : List Bytes} {σ τ : SessionState} {seen data : List Bytes} {n : ℕ}
  {inL inR out : List Signal} {rest : List Signal} {chs : Checksum} {x : Signal}

/-- Segments followed by the end can be split at a segment or at the end
only. -/
theorem split_at_last {xs ys : List Bytes} {chs chs' : Checksum}
    (h : ys.map Signal.segment ++ [.last chs']
      = xs.map .segment ++ .last chs :: rest) : xs = ys ∧ chs = chs' ∧ rest = [] := by
  induction xs generalizing ys with
  | nil =>
    cases ys with
    | nil =>
      obtain ⟨hl, hr⟩ := List.cons.inj h
      exact ⟨rfl, (Signal.last.inj hl).symm, hr.symm⟩
    | cons y ys => exact absurd (List.cons.inj h).1 (by simp)
  | cons x xs ih =>
    cases ys with
    | nil => exact absurd (List.cons.inj h).1 (by simp)
    | cons y ys =>
      obtain ⟨hxy, hrest⟩ := List.cons.inj h
      obtain ⟨rfl, hchs, hnil⟩ := ih hrest
      exact ⟨by rw [Signal.segment.inj hxy], hchs, hnil⟩

/-- What the sender of a section has sent besides segments is the end, after
all of them. -/
theorem Source.last (hs : Source chunks σ data n out)
    (ho : out = seen.map .segment ++ .last chs :: rest) :
    σ = .txAwaitAck ∧ data = chunks ∧ n = chunks.length + 1 ∧ seen = chunks
      ∧ chs = checksumOf chunks ∧ rest = [] := by
  cases hs with
  | sending k hk =>
    have hm : Signal.last chs ∈ (chunks.take n).map Signal.segment := by
      rw [ho]
      simp
    obtain ⟨d, -, hd⟩ := List.mem_map.1 hm
    exact absurd hd (by simp)
  | ended =>
    obtain ⟨hseen, hchs, hrest⟩ := split_at_last ho
    exact ⟨rfl, rfl, rfl, hseen, hchs, hrest⟩

/-- A section is sent in segments and an end only. -/
theorem Source.mem (hs : Source chunks σ data n out) (hx : x ∈ out) :
    (∃ d, x = .segment d) ∨ ∃ chs, x = .last chs := by
  cases hs with
  | sending k hk =>
    obtain ⟨d, -, rfl⟩ := List.mem_map.1 hx
    exact Or.inl ⟨d, rfl⟩
  | ended =>
    obtain hx | hx := List.mem_append.1 hx
    · obtain ⟨d, -, rfl⟩ := List.mem_map.1 hx
      exact Or.inl ⟨d, rfl⟩
    · exact Or.inr ⟨_, List.mem_singleton.1 hx⟩

/-- **What the receiver hears next is its turn**, and the protocol goes on. -/
theorem Stage.hears_receiver (h : Stage chunks σ seen τ data n (x :: inL) inR) :
    ∃ σ' seen' out, Turn .receiver σ seen (.hears x) σ' seen' out
      ∧ Stage chunks σ' seen' τ data n inL (inR ++ out) := by
  cases h with
  | offered => exact ⟨_, _, _, .fileReady, .requesting⟩
  | announced hs =>
    exact ⟨_, _, _, .sectionReady, .streaming hs [] _ rfl⟩
  | streaming hs _ _ ho =>
    obtain ⟨d, rfl⟩ | ⟨chs, rfl⟩ := hs.mem (x := x) (by rw [ho]; simp)
    · refine ⟨_, _, _, .segment seen d, .streaming hs (seen ++ [d]) _ ?_⟩
      rw [ho, List.map_append, List.append_assoc]
      rfl
    · obtain ⟨rfl, rfl, rfl, rfl, rfl, rfl⟩ := hs.last ho
      exact ⟨_, _, _, .last _, .acknowledged⟩

/-- **What the sender hears next is its turn**, and the protocol goes on. -/
theorem Stage.hears_sender (h : Stage chunks σ seen τ data n inL (x :: inR)) :
    ∃ τ' data' out, Turn .sender τ data (.hears x) τ' data' out
      ∧ Stage chunks σ seen τ' data' n (inL ++ out) inR := by
  cases h with
  | selecting => exact ⟨_, _, _, .selected, .offered⟩
  | requesting =>
    exact ⟨_, _, _, .requested, .announced (.sending 0 (Nat.zero_le _))⟩
  | acknowledged => exact ⟨_, _, _, .acked _, .done⟩

/-- The sender of a section takes the provider's next answer. -/
theorem Source.answer (hne : ∀ d ∈ chunks, d ≠ [])
    (hs : Source chunks .txSendingSegments data n out) :
    ∃ τ' data' more, Turn .sender .txSendingSegments data (.chunk (chunks.getD n [])) τ' data' more
      ∧ Source chunks τ' data' (n + 1) (out ++ more) := by
  cases hs with
  | sending k hk =>
    by_cases hlt : n < chunks.length
    · have hget : chunks.getD n [] = chunks[n] := List.getD_eq_getElem _ _ hlt
      have htake : chunks.take (n + 1) = chunks.take n ++ [chunks[n]] :=
        (List.take_append_getElem hlt).symm
      refine ⟨_, _, _, .chunk _ _ ?_, ?_⟩
      · rw [hget]
        exact hne _ (List.getElem_mem hlt)
      · have hsend : Source chunks _ _ _ _ := .sending (n + 1) hlt
        rw [htake, List.map_append] at hsend
        rw [hget]
        exact hsend
    · have hn : n = chunks.length := Nat.le_antisymm hk (Nat.not_lt.1 hlt)
      have hget : chunks.getD n [] = [] := List.getD_eq_default _ _ (Nat.not_lt.1 hlt)
      rw [hget, hn, List.take_length]
      exact ⟨_, _, _, .eof _, .ended⟩

/-- **The provider's answer to an open request is the sender's turn**, and
the protocol goes on. -/
theorem Stage.answer (hne : ∀ d ∈ chunks, d ≠ [])
    (h : Stage chunks σ seen .txSendingSegments data n inL inR) :
    ∃ τ' data' out, Turn .sender .txSendingSegments data (.chunk (chunks.getD n [])) τ' data' out
      ∧ Stage chunks σ seen τ' data' (n + 1) (inL ++ out) inR := by
  cases h with
  | announced hs =>
    obtain ⟨τ', data', more, ht, hs'⟩ := hs.answer hne
    exact ⟨τ', data', more, ht, .announced hs'⟩
  | streaming hs _ _ ho =>
    obtain ⟨τ', data', more, ht, hs'⟩ := hs.answer hne
    refine ⟨τ', data', more, ht, .streaming hs' seen _ ?_⟩
    rw [ho, List.append_assoc]

/-- The data of a segment signal. -/
def Signal.data? : Signal → Option Bytes
  | .segment d => some d
  | _ => none

theorem filterMap_data_map (ds : List Bytes) :
    (ds.map Signal.segment).filterMap Signal.data? = ds := by
  rw [List.filterMap_map]
  exact List.filterMap_some

/-- The segments of a section are what has been sent, the beginning of the
file. -/
theorem Source.segments (hs : Source chunks σ data n out) :
    out.filterMap Signal.data? = data ∧ data <+: chunks := by
  cases hs with
  | sending k hk =>
    exact ⟨filterMap_data_map _, List.take_prefix _ _⟩
  | ended =>
    rw [List.filterMap_append, filterMap_data_map]
    exact ⟨List.append_nil _, List.prefix_refl _⟩

/-- **The receiver has taken the beginning of the file.** -/
theorem Stage.beginning (h : Stage chunks σ seen τ data n inL inR) : seen <+: chunks := by
  cases h with
  | streaming hs _ _ ho =>
    obtain ⟨hd, hp⟩ := hs.segments
    rw [ho, List.filterMap_append, filterMap_data_map] at hd
    exact List.IsPrefix.trans ⟨_, hd⟩ hp
  | acknowledged | done => exact List.prefix_refl _
  | _ => exact List.nil_prefix

end Stages

/-! ## The net -/

/-- Whether an input starts a session. -/
def SessionInput.isStart : SessionInput → Bool
  | .start _ => true
  | _ => false

theorem exists_of_isStart {input : SessionInput} (h : input.isStart = true) :
    ∃ length, input = .start length := by
  cases input with
  | start length => exact ⟨length, rfl⟩
  | _ => exact absurd h Bool.false_ne_true

/-- **A fetch**: the receiver is `left`, the sender `right`. Each end may be
given a tick at any reading of the window; the receiver may be started; the
provider's answer reaches the sender once for every request, with the next
chunk or, after the last one, with the end of the file. -/
def fetchNet (chunks : List Bytes) (ca : CommonAddress)
    (cfg : Side → SessionConfig) (a : Instant) :
    Net Session (SessionInput × Instant) SessionAction Bytes where
  step := Session.step
  offers x h i := (∀ y, InWindow (cfg y) a i.2) ∧
    match x with
    | .left => i.1 = .tick ∨ i.1.isStart = true
    | .right => i.1 = .tick ∨ (answered h < requested h
        ∧ i.1 = .segmentReady (chunks.getD (answered h) []))
  receives m i := (∀ y, InWindow (cfg y) a i.2) ∧ received m = some i.1
  ignores m := received m = none
  message := message ca
  halts _ := false
  lossy := False

instance (cfg : SessionConfig) (a t : Instant) : Decidable (InWindow cfg a t) :=
  inferInstanceAs (Decidable (_ ∧ _))

instance (chunks : List Bytes) (ca : CommonAddress) (cfg : Side → SessionConfig)
    (a : Instant) (x : Side) (h : List Call) (i : SessionInput × Instant) :
    Decidable ((fetchNet chunks ca cfg a).offers x h i) :=
  match x with
  | .left => inferInstanceAs (Decidable (_ ∧ (_ ∨ _)))
  | .right => inferInstanceAs (Decidable (_ ∧ (_ ∨ (_ ∧ _))))

instance (chunks : List Bytes) (ca : CommonAddress) (cfg : Side → SessionConfig)
    (a : Instant) (m : Bytes) (i : SessionInput × Instant) :
    Decidable ((fetchNet chunks ca cfg a).receives m i) :=
  inferInstanceAs (Decidable (_ ∧ _))

instance (chunks : List Bytes) (ca : CommonAddress) (cfg : Side → SessionConfig)
    (a : Instant) : Decidable (fetchNet chunks ca cfg a).lossy :=
  inferInstanceAs (Decidable False)

/-- The ends of a fetch before it begins: a new receiver, and a sender that
has been given the length of the file, the actions of this call discarded. -/
def fetchInit (nof : NameOfFile) (cfg : Side → SessionConfig)
    (length : UInt32) (t₀ : Instant) : Side → Session
  | .left => Session.new .receiver nof (cfg .left)
  | .right => ((Session.new .sender nof (cfg .right)).step (.start length, t₀)).1

/-- **The invariant of a fetch**: the ends stand where two abstract sessions
stand, and what is in flight is heard as the protocol has it. -/
def FetchInv (chunks : List Bytes) (cfg : Side → SessionConfig) (a : Instant)
    (s : Net.State Session (SessionInput × Instant) SessionAction Bytes) :
    Prop :=
  ∃ σ seen τ data n inL inR, Part (cfg .left) a .receiver σ seen 0 (s.node .left) (s.past .left)
      ∧ Part (cfg .right) a .sender τ data n (s.node .right) (s.past .right)
      ∧ (s.inbox .left).map heard = inL.map some
      ∧ (s.inbox .right).map heard = inR.map some
      ∧ Stage chunks σ seen τ data n inL inR

section Fetch

variable {chunks : List Bytes} {ca : CommonAddress} {cfg : Side → SessionConfig}
  {a : Instant} {nof : NameOfFile} {length : UInt32} {t₀ : Instant}
  {s : Net.State Session (SessionInput × Instant) SessionAction Bytes} {σ τ : SessionState}
  {seen data : List Bytes} {n : ℕ} {inL inR out : List Signal} {i : SessionInput × Instant}
  {m : Bytes} {rest : List Bytes} {input : SessionInput} {now : Instant}

/-- The invariant after a turn of the receiver. -/
theorem fetchInv_left (hm : Moves (cfg .left) a ca .receiver σ seen 0 out (s.node .left)
      (s.past .left) i)
    (hp : Part (cfg .right) a .sender τ data n (s.node .right) (s.past .right))
    (hl : (s.inbox .left).map heard = inL.map some)
    (hr : (s.inbox .right).map heard = inR.map some)
    (hs : Stage chunks σ seen τ data n inL (inR ++ out)) :
    FetchInv chunks cfg a ((fetchNet chunks ca cfg a).perform s .left i) := by
  refine ⟨σ, seen, τ, data, n, inL, inR ++ out, ?_, hp, hl, ?_, hs⟩
  · rw [Net.perform_node_self, Net.perform_past_self]
    exact hm.1
  · show (s.inbox .right ++ ((s.node .left).step i).2.filterMap (message ca)).map heard = _
    rw [List.map_append, hr, hm.2, List.map_append]

/-- The invariant after a turn of the sender. -/
theorem fetchInv_right (hm : Moves (cfg .right) a ca .sender τ data n out (s.node .right)
      (s.past .right) i)
    (hp : Part (cfg .left) a .receiver σ seen 0 (s.node .left) (s.past .left))
    (hl : (s.inbox .left).map heard = inL.map some)
    (hr : (s.inbox .right).map heard = inR.map some)
    (hs : Stage chunks σ seen τ data n (inL ++ out) inR) :
    FetchInv chunks cfg a ((fetchNet chunks ca cfg a).perform s .right i) := by
  refine ⟨σ, seen, τ, data, n, inL ++ out, inR, hp, ?_, ?_, hr, hs⟩
  · rw [Net.perform_node_self, Net.perform_past_self]
    exact hm.1
  · show (s.inbox .left ++ ((s.node .right).step i).2.filterMap (message ca)).map heard = _
    rw [List.map_append, hl, hm.2, List.map_append]

/-- A session of an orderly fetch has not failed. -/
theorem Stage.unfailed (h : Stage chunks σ seen τ data n inL inR) : σ ≠ .failed ∧ τ ≠ .failed := by
  cases h with
  | announced hs | streaming hs => cases hs <;> exact ⟨by decide, by decide⟩
  | _ => exact ⟨by decide, by decide⟩

/-- A start in a stage of the fetch: the receiver selects the file, or runs
already. -/
theorem Stage.start (h : Stage chunks σ seen τ data n inL inR) :
    σ ≠ .idle ∨ ∃ σ' seen' out, Turn .receiver σ seen .start σ' seen' out
      ∧ Stage chunks σ' seen' τ data n inL (inR ++ out) := by
  cases h with
  | idle => exact Or.inr ⟨_, _, _, .select, .selecting⟩
  | _ => exact Or.inl (by decide)

/-- The head of what is in flight is heard as the protocol has it. -/
theorem exists_of_map_heard {ins : List Signal} (h : (m :: rest).map heard = ins.map some) :
    ∃ x ins', ins = x :: ins' ∧ heard m = some x ∧ rest.map heard = ins'.map some := by
  cases ins with
  | nil => exact absurd h (by simp)
  | cons x ins' =>
    obtain ⟨hm, hr⟩ := List.cons.inj h
    exact ⟨x, ins', rfl, hm, hr⟩

/-- A message that is heard is received as an input with its signal. -/
theorem signal_of_heard {x : Signal} (hm : heard m = some x) (hr : received m = some input) :
    signal input = some x := by
  unfold heard at hm
  rwa [hr] at hm

/-- A request is open only while the sender sends segments. -/
theorem sending_of_open {c : Session} {h : List Call} {k : SessionConfig}
    (hp : Part k a .sender τ data n c h) (hlt : answered h < requested h) :
    τ = .txSendingSegments := by
  rw [hp.answered, hp.requested] at hlt
  cases τ with
  | txSendingSegments => rfl
  | _ => exact absurd hlt (Nat.lt_irrefl n)

/-- Every answer of the provider fits a segment. -/
theorem length_getD_le (hlen : ∀ d ∈ chunks, d.length ≤ 255) (n : ℕ) :
    (chunks.getD n []).length ≤ 255 := by
  by_cases hlt : n < chunks.length
  · rw [List.getD_eq_getElem _ _ hlt]
    exact hlen _ (List.getElem_mem hlt)
  · rw [List.getD_eq_default _ _ (Nat.not_lt.1 hlt)]
    exact Nat.zero_le _

/-- The invariant is kept when the receiver is given an input. -/
theorem FetchInv.offer_left (hi : FetchInv chunks cfg a s) (hw : InWindow (cfg .left) a now)
    (ho : input = .tick ∨ ∃ length, input = .start length) : FetchInv chunks cfg a
      ((fetchNet chunks ca cfg a).perform s .left (input, now)) := by
  obtain ⟨σ, seen, τ, data, n, inL, inR, hpl, hpr, hl, hr, hs⟩ := hi
  have hstay : Stage chunks σ seen τ data n inL (inR ++ []) := by
    rw [List.append_nil]
    exact hs
  obtain rfl | ⟨length, rfl⟩ := ho
  · exact fetchInv_left (hpl.stay hs.unfailed.1 (Or.inl rfl) hw) hpr hl hr hstay
  · obtain hrun | ⟨σ', seen', out, ht, hs'⟩ := hs.start
    · exact fetchInv_left (hpl.stay hs.unfailed.1 (Or.inr ⟨hrun, length, rfl⟩) hw) hpr hl hr hstay
    · exact fetchInv_left (hpl.turn ht ⟨length, rfl⟩ hw (fun _ h => nomatch h)) hpr hl hr hs'

/-- The invariant is kept when the sender is given an input. -/
theorem FetchInv.offer_right (hne : ∀ d ∈ chunks, d ≠ [])
    (hlen : ∀ d ∈ chunks, d.length ≤ 255) (hi : FetchInv chunks cfg a s)
    (hw : InWindow (cfg .right) a now)
    (ho : input = .tick ∨ (answered (s.past .right) < requested (s.past .right)
      ∧ input = .segmentReady (chunks.getD (answered (s.past .right)) []))) :
    FetchInv chunks cfg a ((fetchNet chunks ca cfg a).perform s .right (input, now)) := by
  obtain ⟨σ, seen, τ, data, n, inL, inR, hpl, hpr, hl, hr, hs⟩ := hi
  obtain rfl | ⟨hlt, hin⟩ := ho
  · have hstay : Stage chunks σ seen τ data n (inL ++ []) inR := by
      rw [List.append_nil]
      exact hs
    exact fetchInv_right (hpr.stay hs.unfailed.2 (Or.inl rfl) hw) hpl hl hr hstay
  · obtain rfl := sending_of_open hpr hlt
    rw [hpr.answered] at hin
    obtain ⟨τ', data', out, ht, hs'⟩ := hs.answer hne
    refine fetchInv_right (hpr.turn ht hin hw fun d hd => ?_) hpl hl hr hs'
    rw [← Event.chunk.inj hd]
    exact length_getD_le hlen n

/-- The invariant is kept when the receiver takes a message. -/
theorem FetchInv.take_left (hi : FetchInv chunks cfg a s)
    (hin : s.inbox .left = m :: rest) (hw : InWindow (cfg .left) a now)
    (hrec : received m = some input) :
    FetchInv chunks cfg a ((fetchNet chunks ca cfg a).perform
      (s.pop .left m rest) .left (input, now)) := by
  obtain ⟨σ, seen, τ, data, n, inL, inR, hpl, hpr, hl, hr, hs⟩ := hi
  rw [hin] at hl
  obtain ⟨x, inL', rfl, hx, hrest⟩ := exists_of_map_heard hl
  obtain ⟨σ', seen', out, ht, hs'⟩ := hs.hears_receiver
  refine fetchInv_left
    (hpl.turn ht (signal_of_heard hx hrec) hw (fun _ h => nomatch h)) hpr ?_ hr hs'
  rw [Net.pop_inbox_self]
  exact hrest

/-- The invariant is kept when the sender takes a message. -/
theorem FetchInv.take_right (hi : FetchInv chunks cfg a s)
    (hin : s.inbox .right = m :: rest) (hw : InWindow (cfg .right) a now)
    (hrec : received m = some input) :
    FetchInv chunks cfg a ((fetchNet chunks ca cfg a).perform
      (s.pop .right m rest) .right (input, now)) := by
  obtain ⟨σ, seen, τ, data, n, inL, inR, hpl, hpr, hl, hr, hs⟩ := hi
  rw [hin] at hr
  obtain ⟨x, inR', rfl, hx, hrest⟩ := exists_of_map_heard hr
  obtain ⟨τ', data', out, ht, hs'⟩ := hs.hears_sender
  refine fetchInv_right
    (hpr.turn ht (signal_of_heard hx hrec) hw (fun _ h => nomatch h)) hpl hl ?_ hs'
  rw [Net.pop_inbox_self]
  exact hrest

/-- Every message in flight is received. -/
theorem FetchInv.received_ne (hi : FetchInv chunks cfg a s) {x : Side}
    (hin : s.inbox x = m :: rest) : received m ≠ none := by
  obtain ⟨σ, seen, τ, data, n, inL, inR, hpl, hpr, hl, hr, hs⟩ := hi
  have hx : ∃ x, heard m = some x := by
    cases x with
    | left =>
      rw [hin] at hl
      obtain ⟨x, -, -, hx, -⟩ := exists_of_map_heard hl
      exact ⟨x, hx⟩
    | right =>
      rw [hin] at hr
      obtain ⟨x, -, -, hx, -⟩ := exists_of_map_heard hr
      exact ⟨x, hx⟩
  obtain ⟨x, hx⟩ := hx
  intro hn
  rw [heard, hn] at hx
  exact absurd hx (by simp)

/-- **The invariant is kept by every step of a fetch.** -/
theorem FetchInv.step (hne : ∀ d ∈ chunks, d ≠ []) (hlen : ∀ d ∈ chunks, d.length ≤ 255)
    {t : Net.State Session (SessionInput × Instant) SessionAction Bytes}
    (hi : FetchInv chunks cfg a s)
    (st : (fetchNet chunks ca cfg a).Step s t) : FetchInv chunks cfg a t := by
  cases st with
  | offer x i live ho =>
    cases x with
    | left => exact hi.offer_left (ho.1 _) (ho.2.imp_right exists_of_isStart)
    | right => exact hi.offer_right hne hlen (ho.1 _) ho.2
  | take x m rest i live hin hrec =>
    cases x with
    | left => exact hi.take_left hin (hrec.1 _) hrec.2
    | right => exact hi.take_right hin (hrec.1 _) hrec.2
  | ignore x m rest live hin hig => exact absurd hig (hi.received_ne hin)
  | lose x l m r hlossy hin => exact absurd hlossy id

/-- The invariant holds before the fetch begins. -/
theorem fetchInv_init (ht₀ : InWindow (cfg .right) a t₀) :
    FetchInv chunks cfg a (Net.State.init (fetchInit nof cfg length t₀)) := by
  have hd : (Session.new .sender nof (cfg .right)).onInput (.start length) t₀
      = { Session.new .sender nof (cfg .right) with
          state := .txAwaitSelect
          fileLength := length
          sectionLength := length
          actions := [.sendFileReady ⟨(cfg .right).ioa, nof, ⟨length⟩, Frq.ready⟩] } := rfl
  obtain ⟨lp, hstep, hlp⟩ := step_of_timely (a := a)
    (i := (.start length, t₀)) rfl hd ht₀ (fun t h => nomatch h)
  refine ⟨.idle, [], .txAwaitSelect, [], 0, [], [], ?_, ?_, rfl, rfl, .idle⟩
  · exact ⟨rfl, rfl, rfl, rfl, rfl, rfl, fun t h => (nomatch h), rfl, rfl, rfl,
      rfl, rfl, fun k hk => absurd hk List.not_mem_nil⟩
  · show Part _ _ _ _ _ _ ((Session.new .sender nof (cfg .right)).step (.start length, t₀)).1 _
    rw [hstep]
    exact ⟨rfl, rfl, rfl, rfl, rfl, rfl, hlp, rfl, rfl, rfl, rfl, rfl,
      fun k hk => absurd hk List.not_mem_nil⟩

/-- **Fetching a file works end to end.** For every list of nonempty chunks
of at most 255 octets, every length announced for the file, and every
interleaving of deliveries, ticks and answers of the provider whose clock
readings lie in a window shorter than the idle timeouts: neither session
ever fails; what the receiver has delivered is the beginning of the file;
and once both sessions are completed it is the whole file, and both have
reported the same byte count. -/
theorem fetch_end_to_end (hne : ∀ d ∈ chunks, d ≠ [])
    (hlen : ∀ d ∈ chunks, d.length ≤ 255) (ht₀ : InWindow (cfg .right) a t₀)
    (hs : (fetchNet chunks ca cfg a).Reachable
      (Net.State.init (fetchInit nof cfg length t₀)) s) :
    (∀ x, ∀ k ∈ s.past x, ∀ r, .failed r ∉ k.actions)
      ∧ (delivered (s.past .left)).flatten <+: chunks.flatten
      ∧ ((s.node .left).state = .completed → (s.node .right).state = .completed →
        (delivered (s.past .left)).flatten = chunks.flatten
          ∧ ∃ bytes, reported (s.past .left) = [bytes]
            ∧ reported (s.past .right) = [bytes]) := by
  have hinv : FetchInv chunks cfg a s :=
    Net.Reachable.invariant (fetchInv_init ht₀)
      (fun _ _ _ hi st => hi.step hne hlen st) hs
  obtain ⟨σ, seen, τ, data, n, inL, inR, hpl, hpr, -, -, hst⟩ := hinv
  have hdel : delivered (s.past .left) = seen := hpl.delivered
  refine ⟨fun x => ?_, ?_, fun hl hr => ?_⟩
  · cases x with
    | left => exact hpl.unfailed
    | right => exact hpr.unfailed
  · rw [hdel]
    exact hst.beginning.flatten
  · rw [hpl.state] at hl
    rw [hpr.state] at hr
    subst hl hr
    cases hst with
    | done =>
      rw [hdel]
      exact ⟨rfl, _, hpl.reported, hpr.reported⟩

end Fetch

/-- A fetch of a file of three octets in two chunks. -/
def threeOctets : List (Net.Move (SessionInput × Instant)) :=
  [.offer .left (.start 0, 0), .take .right (.selectCall ⟨⟨0⟩, ⟨2⟩, ⟨0⟩, ⟨.selectFile, 0⟩⟩, 1),
   .take .left (.fileReady ⟨⟨0⟩, ⟨2⟩, ⟨3⟩, ⟨0, false⟩⟩, 2),
   .take .right (.selectCall ⟨⟨0⟩, ⟨2⟩, ⟨0⟩, ⟨.requestFile, 0⟩⟩, 3),
   .take .left (.sectionReady ⟨⟨0⟩, ⟨2⟩, ⟨1⟩, ⟨3⟩, ⟨0, false⟩⟩, 4),
   .offer .right (.segmentReady [1, 2], 5),
   .offer .right (.segmentReady [3], 6),
   .take .left (.segment ⟨⟨0⟩, ⟨2⟩, ⟨1⟩, [1, 2]⟩, 7),
   .offer .right (.tick, 8),
   .offer .right (.segmentReady [], 9),
   .take .left (.segment ⟨⟨0⟩, ⟨2⟩, ⟨1⟩, [3]⟩, 10),
   .take .left (.lastSection ⟨⟨0⟩, ⟨2⟩, ⟨1⟩, .fileWithoutDeactivate, ⟨6⟩⟩, 11),
   .take .right (.ackFile ⟨⟨0⟩, ⟨2⟩, ⟨1⟩, ⟨.positiveFile, 0⟩⟩, 12)]

/-- The fetch of the three octets completes at both ends, and the end-to-end
result holds of it. -/
theorem fetch_end_to_end_threeOctets :
    ∃ s : Net.State Session (SessionInput × Instant) SessionAction Bytes,
      (fetchNet [[1, 2], [3]] ⟨1⟩ (fun _ => .default) 0).Reachable
          (Net.State.init (fetchInit ⟨2⟩ (fun _ => .default) 3 0)) s
        ∧ (delivered (s.past .left)).flatten = [1, 2, 3]
        ∧ ∃ bytes, reported (s.past .left) = [bytes]
          ∧ reported (s.past .right) = [bytes] := by
  obtain ⟨s, hs, hl, hr⟩ := Net.exists_reachable_of_play
    (N := fetchNet [[1, 2], [3]] ⟨1⟩ (fun _ => .default) 0)
    (s := Net.State.init (fetchInit ⟨2⟩ (fun _ => .default) 3 0)) threeOctets
    (P := fun s => (s.node .left).state = .completed
      ∧ (s.node .right).state = .completed) (by decide +kernel)
  have h := fetch_end_to_end (by decide) (by decide) (by decide) hs
  exact ⟨s, hs, h.2.2 hl hr⟩

end FileTransfer
