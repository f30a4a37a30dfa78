import Mathlib.Logic.Relation
import Mathlib.Logic.Function.Basic
import Mathlib.Data.List.Basic
import Iec60870.Machine

/-!
# Two machines joined by channels

A `Net` joins two reactive machines of one type by a FIFO channel in each
direction. Which end a party sits at is a `Side`, and everything is indexed
by it, so that a statement about one direction is a statement about both.

A party moves in one of two ways. The environment *offers* it an input – a
request of its user, a clock tick – or it *takes* the oldest message of its
inbox. In both cases it makes one call: its state is updated, the messages
among its actions are appended to the peer's inbox in the order they were
emitted, and the call joins its history. A party one of whose actions
*halts* it makes no further call, though the whole batch that contained the
action is still performed. On a *lossy* net a message may also disappear
from an inbox, wherever it stands there; nothing is ever reordered,
duplicated or altered.

The clock is the environment's. An input carries whatever reading the
machine is given with it, so the two parties' clocks are unrelated unless
`offers` and `receives` relate them.

Three facts about every reachable state carry the developments over a `Net`:
each party's history is a run of its machine on its own
(`Net.run_of_reachable`), so what is proved of one machine holds of both
ends; what one end of a reliable net has sent is what the other has taken
followed by what is in flight (`Net.sent_eq_of_reachable`); and a party that
has not halted has never emitted a halting action
(`Net.quiet_of_reachable`).
-/

open Machine

/-- The two ends of a net. -/
inductive Side where
  /-- One end. -/
  | left
  /-- The other end. -/
  | right
deriving DecidableEq, Repr

namespace Side

/-- The opposite end. -/
def other : Side → Side
  | left => right
  | right => left

@[simp] theorem other_other (x : Side) : x.other.other = x := by
  cases x <;> rfl

@[simp] theorem other_ne (x : Side) : x.other ≠ x := by
  cases x <;> decide

@[simp] theorem ne_other (x : Side) : x ≠ x.other := by
  cases x <;> decide

/-- There are only two ends. -/
theorem eq_or_eq_other (x y : Side) : y = x ∨ y = x.other := by
  cases x <;> cases y <;> decide

/-- What holds at both ends holds at each. -/
theorem forall_iff {p : Side → Prop} : p left ∧ p right ↔ ∀ x, p x :=
  ⟨fun h x => by cases x; exacts [h.1, h.2], fun h => ⟨h _, h _⟩⟩

instance {p : Side → Prop} [∀ x, Decidable (p x)] : Decidable (∀ x, p x) :=
  decidable_of_iff _ forall_iff

end Side

/-- **Two machines and the wiring between them.** -/
structure Net (σ ι α μ : Type) where
  /-- The call both machines make. -/
  step : σ → ι → σ × List α
  /-- The inputs the environment may offer to a side with a given history. -/
  offers : Side → List (Call σ ι α) → ι → Prop
  /-- The inputs a taken message may become. -/
  receives : μ → ι → Prop
  /-- The messages a party discards without a call. -/
  ignores : μ → Prop
  /-- The message an action puts on the wire, if any. -/
  message : α → Option μ
  /-- Whether an action halts its party. -/
  halts : α → Bool
  /-- Whether messages may be lost. -/
  lossy : Prop

namespace Net

variable {σ ι α μ : Type}

/-- **A state of a net**: the two machines, the messages in flight to each,
and what has happened so far. -/
structure State (σ ι α μ : Type) where
  /-- The machine at each side. -/
  node : Side → σ
  /-- The messages in flight to each side, oldest first. -/
  inbox : Side → List μ
  /-- The messages each side has taken so far. -/
  taken : Side → List μ
  /-- Whether each side has halted. -/
  halted : Side → Bool
  /-- The calls each side has made so far. -/
  past : Side → List (Call σ ι α)

namespace State

/-- The state in which nothing has happened yet. -/
def init (node : Side → σ) : State σ ι α μ :=
  ⟨node, fun _ => [], fun _ => [], fun _ => false, fun _ => []⟩

/-- The side `x` takes the message `m`, leaving `rest` in its inbox. -/
def pop (s : State σ ι α μ) (x : Side) (m : μ) (rest : List μ) :
    State σ ι α μ :=
  { s with
    inbox := Function.update s.inbox x rest
    taken := Function.update s.taken x (s.taken x ++ [m]) }

/-- The inbox of the side `x` loses messages, leaving `rest`. -/
def shrink (s : State σ ι α μ) (x : Side) (rest : List μ) : State σ ι α μ :=
  { s with inbox := Function.update s.inbox x rest }

end State

/-- The actions of a history that reach the wire, in order. -/
def sent (N : Net σ ι α μ) (h : List (Call σ ι α)) : List μ :=
  h.flatMap (fun c => c.actions.filterMap N.message)

/-- No call of the history halted its party. -/
def Quiet (N : Net σ ι α μ) (h : List (Call σ ι α)) : Prop :=
  ∀ c ∈ h, ∀ a ∈ c.actions, N.halts a = false

/-- The side `x` makes a call on the input `i`. -/
def perform (N : Net σ ι α μ) (s : State σ ι α μ) (x : Side) (i : ι) :
    State σ ι α μ where
  node := Function.update s.node x (N.step (s.node x) i).1
  inbox := Function.update s.inbox x.other
    (s.inbox x.other ++ (N.step (s.node x) i).2.filterMap N.message)
  taken := s.taken
  halted := Function.update s.halted x (s.halted x || (N.step (s.node x) i).2.any N.halts)
  past := Function.update s.past x (s.past x ++ [call N.step (s.node x) i])

/-- **One step of a net.** -/
inductive Step (N : Net σ ι α μ) : State σ ι α μ → State σ ι α μ → Prop
  /-- The environment offers an input. -/
  | offer {s : State σ ι α μ} (x : Side) (i : ι)
      (live : s.halted x = false) (ho : N.offers x (s.past x) i) :
      Step N s (N.perform s x i)
  /-- A party takes the oldest message in flight to it. -/
  | take {s : State σ ι α μ} (x : Side) (m : μ) (rest : List μ) (i : ι)
      (live : s.halted x = false) (hin : s.inbox x = m :: rest)
      (hr : N.receives m i) :
      Step N s (N.perform (s.pop x m rest) x i)
  /-- A party discards the oldest message in flight to it. -/
  | ignore {s : State σ ι α μ} (x : Side) (m : μ) (rest : List μ)
      (live : s.halted x = false) (hin : s.inbox x = m :: rest)
      (hi : N.ignores m) :
      Step N s (s.pop x m rest)
  /-- A message in flight is lost. -/
  | lose {s : State σ ι α μ} (x : Side) (l : List μ) (m : μ) (r : List μ)
      (hl : N.lossy) (hin : s.inbox x = l ++ m :: r) :
      Step N s (s.shrink x (l ++ r))

/-- **The states a net can reach**, in any interleaving. -/
def Reachable (N : Net σ ι α μ) : State σ ι α μ → State σ ι α μ → Prop :=
  Relation.ReflTransGen N.Step

variable {N : Net σ ι α μ} {s₀ s : State σ ι α μ} {P : State σ ι α μ → Prop}

/-- **The invariant rule of a net**: what holds at the start and is kept by
every step from a reachable state holds in every reachable state. -/
theorem Reachable.invariant (init : P s₀)
    (keep : ∀ s t : State σ ι α μ, N.Reachable s₀ s → P s → N.Step s t → P t)
    (h : N.Reachable s₀ s) : P s := by
  induction h with
  | refl => exact init
  | tail hs st ih => exact keep _ _ hs ih st

/-- **The states a net can reach by steps that meet `C`.** -/
def ReachableBy (N : Net σ ι α μ) (C : State σ ι α μ → State σ ι α μ → Prop) :
    State σ ι α μ → State σ ι α μ → Prop :=
  Relation.ReflTransGen fun s t => N.Step s t ∧ C s t

variable {C : State σ ι α μ → State σ ι α μ → Prop}

/-- They are reachable. -/
theorem ReachableBy.reachable {s t : State σ ι α μ}
    (h : N.ReachableBy C s t) : N.Reachable s t := by
  induction h with
  | refl => exact Relation.ReflTransGen.refl
  | tail hs st ih => exact ih.tail st.1

/-- **The invariant rule for runs whose steps meet `C`.** -/
theorem ReachableBy.invariant (init : P s₀)
    (keep : ∀ s t : State σ ι α μ, N.Reachable s₀ s → P s → N.Step s t → C s t → P t)
    (h : N.ReachableBy C s₀ s) : P s := by
  induction h with
  | refl => exact init
  | tail hs st ih => exact keep _ _ (ReachableBy.reachable hs) ih st.1 st.2

/-! ## What a step does to each component

The side that moves is updated and the other keeps its machine and its
history; only the mover's own inbox is shortened and only its peer's is
extended. -/

section Fields

variable (N : Net σ ι α μ) (s : State σ ι α μ) (x : Side) (i : ι) (m : μ) (rest : List μ)

@[simp] theorem perform_node_self : (N.perform s x i).node x = (N.step (s.node x) i).1 :=
  Function.update_self ..

@[simp] theorem perform_node_other : (N.perform s x i).node x.other = s.node x.other :=
  Function.update_of_ne (Side.other_ne x) ..

@[simp] theorem perform_past_self :
    (N.perform s x i).past x = s.past x ++ [call N.step (s.node x) i] :=
  Function.update_self ..

@[simp] theorem perform_past_other : (N.perform s x i).past x.other = s.past x.other :=
  Function.update_of_ne (Side.other_ne x) ..

@[simp] theorem perform_inbox_self : (N.perform s x i).inbox x = s.inbox x :=
  Function.update_of_ne (Side.ne_other x) ..

@[simp] theorem perform_inbox_other : (N.perform s x i).inbox x.other
      = s.inbox x.other ++ (N.step (s.node x) i).2.filterMap N.message :=
  Function.update_self ..

@[simp] theorem perform_halted_self : (N.perform s x i).halted x
      = (s.halted x || (N.step (s.node x) i).2.any N.halts) :=
  Function.update_self ..

@[simp] theorem perform_halted_other : (N.perform s x i).halted x.other = s.halted x.other :=
  Function.update_of_ne (Side.other_ne x) ..

@[simp] theorem perform_taken : (N.perform s x i).taken = s.taken := rfl

-- the same seen from the side whose peer moves

@[simp] theorem perform_peer_node : (N.perform s x.other i).node x = s.node x :=
  Function.update_of_ne (Side.ne_other x) ..

@[simp] theorem perform_peer_past : (N.perform s x.other i).past x = s.past x :=
  Function.update_of_ne (Side.ne_other x) ..

@[simp] theorem perform_peer_halted : (N.perform s x.other i).halted x = s.halted x :=
  Function.update_of_ne (Side.ne_other x) ..

@[simp] theorem perform_peer_inbox : (N.perform s x.other i).inbox x
      = s.inbox x ++ (N.step (s.node x.other) i).2.filterMap N.message := by
  have h := perform_inbox_other N s x.other i
  rwa [Side.other_other] at h

@[simp] theorem pop_node : (s.pop x m rest).node = s.node := rfl

@[simp] theorem pop_past : (s.pop x m rest).past = s.past := rfl

@[simp] theorem pop_halted : (s.pop x m rest).halted = s.halted := rfl

@[simp] theorem pop_inbox_self : (s.pop x m rest).inbox x = rest :=
  Function.update_self ..

@[simp] theorem pop_inbox_other : (s.pop x m rest).inbox x.other = s.inbox x.other :=
  Function.update_of_ne (Side.other_ne x) ..

@[simp] theorem pop_taken_self : (s.pop x m rest).taken x = s.taken x ++ [m] :=
  Function.update_self ..

@[simp] theorem pop_taken_other : (s.pop x m rest).taken x.other = s.taken x.other :=
  Function.update_of_ne (Side.other_ne x) ..

@[simp] theorem pop_peer_inbox : (s.pop x.other m rest).inbox x = s.inbox x :=
  Function.update_of_ne (Side.ne_other x) ..

@[simp] theorem pop_peer_taken : (s.pop x.other m rest).taken x = s.taken x :=
  Function.update_of_ne (Side.ne_other x) ..

@[simp] theorem shrink_past : (s.shrink x rest).past = s.past := rfl

@[simp] theorem shrink_inbox_self : (s.shrink x rest).inbox x = rest :=
  Function.update_self ..

@[simp] theorem shrink_inbox_other : (s.shrink x rest).inbox x.other = s.inbox x.other :=
  Function.update_of_ne (Side.other_ne x) ..

end Fields

@[simp] theorem sent_append (N : Net σ ι α μ) (g h : List (Call σ ι α)) :
    N.sent (g ++ h) = N.sent g ++ N.sent h :=
  List.flatMap_append

@[simp] theorem sent_call (N : Net σ ι α μ) (s : σ) (i : ι) :
    N.sent [call N.step s i] = (N.step s i).2.filterMap N.message := by
  simp [sent]

/-! ## The three facts about reachable states -/

section Reachable

variable {N : Net σ ι α μ} {node₀ : Side → σ} {s : State σ ι α μ} {h : List (Call σ ι α)}

/-- A history only grows. -/
theorem Step.mem_past {t : State σ ι α μ} (st : N.Step s t) {x : Side}
    {c : Call σ ι α} (hc : c ∈ s.past x) : c ∈ t.past x := by
  -- a call is appended to the history of the side that makes it
  have key : ∀ (y : Side) (d : Call σ ι α), c ∈ Function.update s.past y (s.past y ++ [d]) x := by
    intro y d
    obtain rfl | rfl := Side.eq_or_eq_other y x
    · rw [Function.update_self]
      exact List.mem_append_left _ hc
    · rw [Function.update_of_ne (Side.other_ne y)]
      exact hc
  cases st with
  | offer y | take y => exact key y _
  | ignore | lose => exact hc

/-- **Each end of a net is a run of its machine**, whatever the other end
and the channels do. -/
theorem run_of_reachable (h : N.Reachable (State.init node₀) s) (x : Side) :
    Run N.step (node₀ x) (s.past x) (s.node x) := by
  induction h with
  | refl => exact Run.nil
  | tail hs st ih =>
    cases st with
    | offer y i | take y m rest i =>
      rcases Side.eq_or_eq_other y x with rfl | rfl
      · rw [perform_past_self, perform_node_self]
        exact ih.snoc i
      · rw [perform_past_other, perform_node_other]
        exact ih
    | ignore | lose => exact ih

/-- A call of `x` appends to the peer's inbox exactly what it adds to the
messages `x` has sent, so it keeps their difference. -/
theorem sent_perform (s : State σ ι α μ) (x : Side) (i : ι) : N.sent ((N.perform s x i).past x)
      = N.sent (s.past x) ++ (N.step (s.node x) i).2.filterMap N.message := by
  rw [perform_past_self, sent_append, sent_call]

/-- **A reliable net is a pair of FIFO channels**: what one side has sent is
what the other has taken, followed by what is still in flight to it. -/
theorem sent_eq_of_reachable (hrel : ¬ N.lossy) (h : N.Reachable (State.init node₀) s) (x : Side) :
    N.sent (s.past x) = s.taken x.other ++ s.inbox x.other := by
  induction h with
  | refl => rfl
  | tail hs st ih =>
    cases st with
    | offer y i live ho =>
      rcases Side.eq_or_eq_other y x with rfl | rfl
      · rw [sent_perform, perform_inbox_other, perform_taken, ih, List.append_assoc]
      · rw [perform_past_other, Side.other_other, perform_inbox_self,
          perform_taken, ih, Side.other_other]
    | take y m rest i live hin hr =>
      rcases Side.eq_or_eq_other y x with rfl | rfl
      · rw [sent_perform, perform_inbox_other, perform_taken, pop_past,
          pop_inbox_other, pop_taken_other, pop_node, ih, List.append_assoc]
      · rw [perform_past_other, Side.other_other, perform_inbox_self,
          perform_taken, pop_past, pop_inbox_self, pop_taken_self, ih,
          Side.other_other, hin, List.append_assoc]
        rfl
    | ignore y m rest live hin hi =>
      rcases Side.eq_or_eq_other y x with rfl | rfl
      · rw [pop_past, pop_inbox_other, pop_taken_other, ih]
      · rw [Side.other_other, pop_past, pop_inbox_self, pop_taken_self, ih,
          Side.other_other, hin, List.append_assoc]
        rfl
    | lose y l m r hl hin => exact absurd hl hrel

/-- A quiet history stays quiet under a call without a halting action. -/
theorem Quiet.snoc (hq : N.Quiet h) (s : σ) (i : ι)
    (hc : (N.step s i).2.any N.halts = false) : N.Quiet (h ++ [call N.step s i]) := by
  intro c hmem a ha
  rcases List.mem_append.mp hmem with hmem | hmem
  · exact hq c hmem a ha
  · rw [List.mem_singleton.mp hmem] at ha
    exact Bool.eq_false_iff.mpr (List.any_eq_false.mp hc a ha)

/-- What a party has done by the time it halts, or so far: every call but
possibly the last was quiet, and the last too unless the party halted. -/
def HaltsLast (N : Net σ ι α μ) (halted : Bool) (h : List (Call σ ι α)) :
    Prop :=
  (halted = false ∧ N.Quiet h) ∨ (halted = true ∧ ∃ g s i, h = g ++ [call N.step s i] ∧ N.Quiet g)

/-- A call of a party that has not halted keeps `HaltsLast`. -/
theorem HaltsLast.perform (hh : N.HaltsLast false h) (s : σ) (i : ι) :
    N.HaltsLast (false || (N.step s i).2.any N.halts) (h ++ [call N.step s i]) := by
  obtain ⟨-, hq⟩ | ⟨hf, -⟩ := hh
  · rw [Bool.false_or]
    cases hc : (N.step s i).2.any N.halts with
    | false => exact Or.inl ⟨rfl, hq.snoc s i hc⟩
    | true => exact Or.inr ⟨rfl, h, s, i, rfl, hq⟩
  · exact absurd hf Bool.false_ne_true

/-- **A halting action is the last thing a party emits**, up to the batch it
belongs to. -/
theorem quiet_of_reachable (h : N.Reachable (State.init node₀) s)
    (x : Side) : N.HaltsLast (s.halted x) (s.past x) := by
  induction h with
  | refl => exact Or.inl ⟨rfl, fun c hc => absurd hc List.not_mem_nil⟩
  | tail hs st ih =>
    cases st with
    | offer y i live ho =>
      rcases Side.eq_or_eq_other y x with rfl | rfl
      · rw [perform_halted_self, perform_past_self, live]
        rw [live] at ih
        exact ih.perform _ i
      · rw [perform_halted_other, perform_past_other]
        exact ih
    | take y m rest i live hin hr =>
      rcases Side.eq_or_eq_other y x with rfl | rfl
      · rw [perform_halted_self, perform_past_self, pop_halted, live]
        rw [live] at ih
        exact ih.perform _ i
      · rw [perform_halted_other, perform_past_other]
        exact ih
    | ignore | lose => exact ih

/-- **What a party has taken is what its calls received**, on a net where
every message becomes a call and an offered input is never a message. -/
theorem taken_eq_of_reachable (carried : ι → Option μ)
    (hr : ∀ m i, N.receives m i → carried i = some m)
    (ho : ∀ x h i, N.offers x h i → carried i = none) (hi : ∀ m, ¬ N.ignores m)
    (h : N.Reachable (State.init node₀) s) (x : Side) :
    s.taken x = (s.past x).filterMap (fun c => carried c.input) := by
  induction h with
  | refl => rfl
  | tail hs st ih =>
    cases st with
    | offer y i live hoff =>
      rcases Side.eq_or_eq_other y x with rfl | rfl
      · rw [perform_taken, perform_past_self, List.filterMap_append, ← ih]
        simp [ho _ _ _ hoff]
      · rw [perform_taken, perform_past_other, ih]
    | take y m rest i live hin hrec =>
      rcases Side.eq_or_eq_other y x with rfl | rfl
      · rw [perform_taken, perform_past_self, pop_taken_self, List.filterMap_append, pop_past, ← ih]
        simp [hr _ _ hrec]
      · rw [perform_taken, perform_past_other, pop_taken_other, ih, pop_past]
    | ignore y m rest live hin hig => exact absurd hig (hi m)
    | lose y l m r hl hin => exact ih

end Reachable

/-! ## Erasing ghost data

A statement may need to know more than the machines do – which of two equal
messages it was that arrived. It is then made about a net whose machines
carry the additional data, and holds of the net without it if every run of
the latter is what an erasure leaves of a run of the former. -/

section Erase

variable {σ' ι' α' μ' : Type} {N' : Net σ' ι' α' μ'} {N : Net σ ι α μ}

/-- **An erasure**: maps that commute with the machines and the wiring, and
along which every input can be followed back. -/
structure Erasure (N' : Net σ' ι' α' μ') (N : Net σ ι α μ) where
  node : σ' → σ
  input : ι' → ι
  action : α' → α
  msg : μ' → μ
  step : ∀ c i, N.step (node c) (input i) = (node (N'.step c i).1, (N'.step c i).2.map action)
  message : ∀ a, N.message (action a) = (N'.message a).map msg
  halts : ∀ a, N.halts (action a) = N'.halts a
  offers : ∀ x h i, N.offers x (h.map (Call.map node input action)) i →
    ∃ j, input j = i ∧ N'.offers x h j
  receives : ∀ m i, N.receives (msg m) i → ∃ j, input j = i ∧ N'.receives m j
  ignores : ∀ m, N.ignores (msg m) → N'.ignores m
  lossy : N.lossy → N'.lossy

namespace Erasure

variable (E : Erasure N' N) {s : State σ' ι' α' μ'} {t : State σ ι α μ}

/-- What is left of a call. -/
abbrev call : Call σ' ι' α' → Call σ ι α := Call.map E.node E.input E.action

/-- What is left of a state. -/
def state (s : State σ' ι' α' μ') : State σ ι α μ where
  node x := E.node (s.node x)
  inbox x := (s.inbox x).map E.msg
  taken x := (s.taken x).map E.msg
  halted := s.halted
  past x := (s.past x).map E.call

theorem map_update {β γ : Type} (f : β → γ) (g : Side → β) (x : Side) (b : β) :
    (fun y => f (Function.update g x b y)) = Function.update (fun y => f (g y)) x (f b) := by
  funext y
  exact Function.apply_update (fun _ => f) g x b y

theorem state_pop (s : State σ' ι' α' μ') (x : Side) (m : μ') (rest : List μ') :
    E.state (s.pop x m rest) = (E.state s).pop x (E.msg m) (rest.map E.msg) := by
  unfold state State.pop
  rw [map_update, map_update, List.map_append]
  rfl

theorem state_shrink (s : State σ' ι' α' μ') (x : Side) (rest : List μ') :
    E.state (s.shrink x rest) = (E.state s).shrink x (rest.map E.msg) := by
  unfold state State.shrink
  rw [map_update]

/-- The messages among erased actions are the erased messages. -/
theorem map_message (as : List α') :
    (as.map E.action).filterMap N.message = (as.filterMap N'.message).map E.msg := by
  rw [List.filterMap_map, List.map_filterMap]
  exact List.filterMap_congr (fun a _ => E.message a)

theorem any_halts (as : List α') : (as.map E.action).any N.halts = as.any N'.halts := by
  rw [List.any_map]
  exact congrArg as.any (funext E.halts)

theorem state_perform (s : State σ' ι' α' μ') (x : Side) (i : ι') :
    E.state (N'.perform s x i) = N.perform (E.state s) x (E.input i) := by
  have hcall : E.call (Machine.call N'.step (s.node x) i)
      = Machine.call N.step (E.node (s.node x)) (E.input i) := by
    unfold Machine.call
    rw [E.step]
    rfl
  unfold state perform
  rw [map_update, map_update, map_update, List.map_append, List.map_append,
    List.map_singleton, hcall, E.step, ← map_message, ← any_halts]

/-- **A step of the erased net can be followed back.** -/
theorem exists_step (st : N.Step (E.state s) t) : ∃ t', N'.Step s t' ∧ E.state t' = t := by
  cases st with
  | offer x i live ho =>
    obtain ⟨j, rfl, hj⟩ := E.offers x _ i ho
    exact ⟨_, Step.offer x j live hj, E.state_perform s x j⟩
  | take x m rest i live hin hr =>
    obtain ⟨m', rest', hin', rfl, rfl⟩ := List.map_eq_cons_iff.1 hin
    obtain ⟨j, rfl, hj⟩ := E.receives m' i hr
    refine ⟨_, Step.take x m' rest' j live hin' hj, ?_⟩
    rw [state_perform, state_pop]
  | ignore x m rest live hin hi =>
    obtain ⟨m', rest', hin', rfl, rfl⟩ := List.map_eq_cons_iff.1 hin
    exact ⟨_, Step.ignore x m' rest' live hin' (E.ignores m' hi), E.state_pop s x m' rest'⟩
  | lose x l m r hl hin =>
    obtain ⟨l', q, hin', rfl, hq⟩ := List.map_eq_append_iff.1 hin
    obtain ⟨m', r', rfl, rfl, rfl⟩ := List.map_eq_cons_iff.1 hq
    refine ⟨_, Step.lose x l' m' r' (E.lossy hl) hin', ?_⟩
    rw [state_shrink, List.map_append]

/-- **Every run of the erased net is what is left of a run.** -/
theorem exists_reachable
    (h : N.Reachable (E.state s) t) : ∃ t', N'.Reachable s t' ∧ E.state t' = t := by
  induction h with
  | refl => exact ⟨s, Relation.ReflTransGen.refl, rfl⟩
  | tail hs st ih =>
    obtain ⟨u, hu, rfl⟩ := ih
    obtain ⟨t', ht, rfl⟩ := E.exists_step st
    exact ⟨t', hu.tail ht, rfl⟩

end Erasure

end Erase

/-! ## Concrete scenarios

A schedule names the moves of a run one by one, and `play` performs it,
failing where a move is not enabled. -/

/-- A move of a schedule. -/
inductive Move (ι : Type) where
  /-- The environment offers an input to a side. -/
  | offer (x : Side) (i : ι)
  /-- A side takes its oldest message as an input. -/
  | take (x : Side) (i : ι)
  /-- The message at a position of an inbox is lost. -/
  | lose (x : Side) (n : ℕ)

section Play

variable (N : Net σ ι α μ) [∀ x h i, Decidable (N.offers x h i)]
  [∀ m i, Decidable (N.receives m i)] [Decidable N.lossy]
  {C : State σ ι α μ → State σ ι α μ → Prop} {ms : List (Move ι)} {P : State σ ι α μ → Prop}

/-- The state a move leads to, if it is enabled. -/
def move (s : State σ ι α μ) : Move ι → Option (State σ ι α μ)
  | .offer x i =>
    if s.halted x = false ∧ N.offers x (s.past x) i then
      some (N.perform s x i)
    else none
  | .take x i =>
    match s.inbox x with
    | [] => none
    | m :: rest =>
      if s.halted x = false ∧ N.receives m i then
        some (N.perform (s.pop x m rest) x i)
      else none
  | .lose x n =>
    if N.lossy ∧ n < (s.inbox x).length then
      some (s.shrink x ((s.inbox x).eraseIdx n))
    else none

/-- The state a schedule leads to, if its moves are enabled. -/
def play (s : State σ ι α μ) : List (Move ι) → Option (State σ ι α μ)
  | [] => some s
  | m :: ms => (N.move s m).bind (fun t => play t ms)

variable {N} {s t : State σ ι α μ}

/-- An enabled move is a step. -/
theorem step_of_move {m : Move ι} (h : N.move s m = some t) : N.Step s t := by
  cases m with
  | offer x i =>
    rw [move] at h
    split at h
    · rename_i hc
      rw [← Option.some.inj h]
      exact Step.offer x i hc.1 hc.2
    · exact absurd h (by simp)
  | take x i =>
    rw [move] at h
    split at h
    · exact absurd h (by simp)
    · rename_i m rest hin
      split at h
      · rename_i hc
        rw [← Option.some.inj h]
        exact Step.take x m rest i hc.1 hin hc.2
      · exact absurd h (by simp)
  | lose x n =>
    rw [move] at h
    split at h
    · rename_i hc
      rw [← Option.some.inj h, List.eraseIdx_eq_take_drop_succ]
      refine Step.lose x _ ((s.inbox x)[n]) _ hc.1 ?_
      rw [List.getElem_cons_drop, List.take_append_drop]
    · exact absurd h (by simp)

/-- **A schedule that plays is a run of the net**, and its steps meet what
its moves meet. -/
theorem reachableBy_of_play (hC : ∀ m ∈ ms, ∀ u v : State σ ι α μ, N.move u m = some v → C u v)
    (h : N.play s ms = some t) : N.ReachableBy C s t := by
  induction ms generalizing s with
  | nil =>
    rw [← Option.some.inj h]
    exact Relation.ReflTransGen.refl
  | cons m ms ih =>
    obtain ⟨u, hu, ht⟩ := Option.bind_eq_some_iff.mp h
    have hm := hC m List.mem_cons_self s u hu
    have hms := ih (fun m hm => hC m (List.mem_cons_of_mem _ hm)) ht
    exact Relation.ReflTransGen.head ⟨step_of_move hu, hm⟩ hms

theorem reachable_of_play (h : N.play s ms = some t) : N.Reachable s t :=
  (reachableBy_of_play (C := fun _ _ => True) (fun _ _ _ _ _ => trivial) h).reachable

/-- **A schedule that plays to a state with a property** shows that such a
state is reachable. -/
theorem exists_reachable_of_play (ms : List (Move ι)) [DecidablePred P]
    (h : (N.play s ms).any (fun t => decide (P t)) = true) :
    ∃ t, N.Reachable s t ∧ P t := by
  obtain ⟨t, ht, hP⟩ := (Option.any_eq_true _ _).mp h
  exact ⟨t, reachable_of_play ht, of_decide_eq_true hP⟩

/-- The same for a schedule whose moves meet `C`. -/
theorem exists_reachableBy_of_play (ms : List (Move ι))
    (hC : ∀ m ∈ ms, ∀ u v : State σ ι α μ, N.move u m = some v → C u v)
    [DecidablePred P]
    (h : (N.play s ms).any (fun t => decide (P t)) = true) :
    ∃ t, N.ReachableBy C s t ∧ P t := by
  obtain ⟨t, ht, hP⟩ := (Option.any_eq_true _ _).mp h
  exact ⟨t, reachableBy_of_play hC ht, of_decide_eq_true hP⟩

end Play

end Net
