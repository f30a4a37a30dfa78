import Iec60870.Frame104

/-!
# Redundant connections

A group of connections of which at most one is to transfer data
(`redundancy.rs`). The manager keeps the senders of the accepted peers and
the address of the active one behind a mutex (`Inner`). One task accepts
connections, and one task per connection (`drive_peer`) takes the events of
its driver from a queue and performs the changes they ask for, each under
the lock but not all of them under one and the same: the tasks interleave
between lock sections.

`Group.step` performs one *turn* of the group, up to the next point at which
another task may run: the accept loop finds a connection, or admits it; a
driver queues an event; a task takes its oldest event, hands an ASDU to the
application, notices that its queue is closed, or leaves. A turn that is not
enabled does nothing. A lock section is a function on `Inner`, and
`Group.section?` says which one a turn performs (`inner_step`).

A connection is known by the number of its acceptance; its address is of an
arbitrary type and may come back with another connection. The answer of
`promote_filter` is part of the turn that asks for it, so that a filter may
change its mind.
-/

namespace Redundancy

open Machine

/-- What a connection reports (`ServerEvent`). -/
inductive ServerEvent where
  | asdu (bytes : Bytes)
  | stateChanged (state : Frame104.State)
  | closed (reason : Option Frame104.DisconnectReason)
deriving DecidableEq, Repr

/-- The parameters of the group (`RedundancyConfig`). -/
structure RedundancyConfig where
  maxPeers : ℕ
  /-- Whether there is a filter. -/
  promoteFilter : Bool
deriving DecidableEq, Repr

/-- The default parameters. -/
def RedundancyConfig.default : RedundancyConfig where
  maxPeers := 8
  promoteFilter := false

variable {α : Type} [DecidableEq α]

/-! ## What the lock protects -/

/-- **The shared state** (`Inner`). -/
structure Inner (α : Type) where
  /-- The senders, by address; a sender is that of a connection. -/
  peers : List (α × ℕ)
  /-- The peer that owns the data link. -/
  active : Option α
deriving DecidableEq, Repr

namespace Inner

/-- The addresses in the map of senders. -/
def keys (i : Inner α) : List α := i.peers.map Prod.fst

/-- Take an address off the map. -/
def remove (i : Inner α) (peer : α) : Inner α :=
  { i with peers := i.peers.filter fun e => e.1 ≠ peer }

/-- Put a sender on the map. -/
def insert (i : Inner α) (peer : α) (n : ℕ) : Inner α :=
  { i with peers := (peer, n) :: (i.remove peer).peers }

/-- Give a peer the slot, and close the connection of the peer that had it. -/
def promote (i : Inner α) (peer : α) : Inner α :=
  match i.active with
  | some prev =>
    if prev ≠ peer then { i.remove prev with active := some peer }
    else { i with active := some peer }
  | none => { i with active := some peer }

/-- A task ends: take its peer off the map and out of the slot. -/
def depart (i : Inner α) (peer : α) : Inner α :=
  { i.remove peer with active := if i.active = some peer then none else i.active }

/-- The sender an ASDU for the active peer goes to (`send_active`); `none` is
`NoActivePeer`. -/
def sendActive (i : Inner α) : Option (α × ℕ) :=
  i.active.bind fun peer => i.peers.find? fun e => e.1 = peer

end Inner

/-! ## The tasks -/

/-- Where the task of a connection is. -/
inductive Phase where
  /-- It waits for an event. -/
  | looping
  /-- It hands an ASDU to the application. -/
  | forwarding (bytes : Bytes)
  /-- It has left the loop and has to clean up. -/
  | leaving
  | left
deriving DecidableEq, Repr

/-- The task of a connection (`drive_peer`). -/
structure Task (α : Type) where
  peer : α
  /-- The events it has not taken yet. -/
  events : List ServerEvent
  phase : Phase
deriving DecidableEq, Repr

/-- **The group.** -/
structure Group (α : Type) where
  inner : Inner α
  /-- The connection the accept loop is about to admit. -/
  admitting : Option α
  /-- The tasks, in the order of admission. -/
  tasks : List (Task α)
deriving DecidableEq, Repr

/-- A turn of the group. -/
inductive Turn (α : Type) where
  /-- The accept loop finds a connection and checks the cap. -/
  | accept (peer : α)
  /-- It inserts the sender and spawns the task, for which events may be
  queued already. -/
  | enrol (events : List ServerEvent)
  /-- A driver queues an event. -/
  | queue (n : ℕ) (event : ServerEvent)
  /-- A task takes its oldest event; the filter, if asked, answers
  `verdict`. -/
  | drive (n : ℕ) (verdict : Bool)
  /-- The application takes an ASDU, or is gone. -/
  | forward (n : ℕ) (taken : Bool)
  /-- A task finds its queue closed. -/
  | hangUp (n : ℕ)
  /-- A task cleans up. -/
  | leave (n : ℕ)
deriving DecidableEq, Repr

namespace Group

/-- The group before the first connection. -/
def init : Group α := ⟨⟨[], none⟩, none, []⟩

/-- Replace a task. -/
def setTask (s : Group α) (n : ℕ) (task : Task α) : Group α :=
  { s with tasks := s.tasks.set n task }

/-- Whether a peer that reaches the data-transfer state is refused. -/
def refuses (config : RedundancyConfig) (verdict : Bool) : Bool :=
  config.promoteFilter && !verdict

/-- A task takes an event (the body of the loop of `drive_peer`). -/
def onEvent (config : RedundancyConfig) (s : Group α) (n : ℕ) (peer : α)
    (event : ServerEvent) (rest : List ServerEvent) (verdict : Bool) : Group α :=
  match event with
  | .stateChanged .active =>
    if refuses config verdict then
      { s with inner := s.inner.remove peer }.setTask n ⟨peer, rest, .leaving⟩
    else
      { s with inner := s.inner.promote peer }.setTask n ⟨peer, rest, .looping⟩
  | .asdu bytes =>
    -- only what the active peer sends is forwarded
    if s.inner.active = some peer then
      s.setTask n ⟨peer, rest, .forwarding bytes⟩
    else s.setTask n ⟨peer, rest, .looping⟩
  | .closed _ => s.setTask n ⟨peer, rest, .leaving⟩
  | .stateChanged _ => s.setTask n ⟨peer, rest, .looping⟩

/-- **One turn of the group**, with the ASDUs it hands to the application. -/
def step (config : RedundancyConfig) (s : Group α) (turn : Turn α) :
    Group α × List (α × Bytes) :=
  match turn with
  | .accept peer =>
    if s.admitting.isSome then (s, [])
    else if s.inner.peers.length ≥ config.maxPeers then (s, [])
    else ({ s with admitting := some peer }, [])
  | .enrol events =>
    match s.admitting with
    | none => (s, [])
    | some peer =>
      ({ inner := s.inner.insert peer s.tasks.length
         admitting := none
         tasks := s.tasks ++ [⟨peer, events, .looping⟩] }, [])
  | .queue n event =>
    match s.tasks[n]? with
    | some task => (s.setTask n { task with events := task.events ++ [event] }, [])
    | none => (s, [])
  | .drive n verdict =>
    match s.tasks[n]? with
    | some ⟨peer, event :: rest, .looping⟩ =>
      (s.onEvent config n peer event rest verdict, [])
    | _ => (s, [])
  | .forward n taken =>
    match s.tasks[n]? with
    | some ⟨peer, events, .forwarding bytes⟩ =>
      if taken then (s.setTask n ⟨peer, events, .looping⟩, [(peer, bytes)])
      else (s.setTask n ⟨peer, events, .leaving⟩, [])
    | _ => (s, [])
  | .hangUp n =>
    match s.tasks[n]? with
    | some ⟨peer, [], .looping⟩ => (s.setTask n ⟨peer, [], .leaving⟩, [])
    | _ => (s, [])
  | .leave n =>
    match s.tasks[n]? with
    | some ⟨peer, events, .leaving⟩ =>
      ({ s with inner := s.inner.depart peer }.setTask n ⟨peer, events, .left⟩, [])
    | _ => (s, [])

end Group

/-! ## The lock sections -/

/-- The lock sections that change something. -/
inductive LockSection (α : Type) where
  | insert (peer : α) (n : ℕ)
  | promote (peer : α)
  | refuse (peer : α)
  | depart (peer : α)
deriving DecidableEq, Repr

/-- What a lock section does. -/
def LockSection.apply : LockSection α → Inner α → Inner α
  | .insert peer n, i => i.insert peer n
  | .promote peer, i => i.promote peer
  | .refuse peer, i => i.remove peer
  | .depart peer, i => i.depart peer

namespace Group

/-- The lock section that an event asks for. -/
def sectionOf (config : RedundancyConfig) (peer : α) (verdict : Bool) :
    ServerEvent → Option (LockSection α)
  | .stateChanged .active =>
    some (if refuses config verdict then .refuse peer else .promote peer)
  | _ => none

/-- **The lock section a turn performs**, if it changes something. -/
def section? (config : RedundancyConfig) (s : Group α) :
    Turn α → Option (LockSection α)
  | .enrol _ => s.admitting.map fun peer => .insert peer s.tasks.length
  | .drive n verdict =>
    match s.tasks[n]? with
    | some ⟨peer, event :: _, .looping⟩ => sectionOf config peer verdict event
    | _ => none
  | .leave n =>
    match s.tasks[n]? with
    | some ⟨peer, _, .leaving⟩ => some (.depart peer)
    | _ => none
  | _ => none

/-- **The turns with a lock section**: the accept loop admits a connection, a task
takes `StateChanged(Active)`, or it cleans up. -/
inductive Performs (config : RedundancyConfig) (s : Group α) :
    Turn α → LockSection α → Prop
  | insert (events : List ServerEvent) {peer : α} (ha : s.admitting = some peer) :
      Performs config s (.enrol events) (.insert peer s.tasks.length)
  | promote {n : ℕ} {verdict : Bool} {peer : α} {rest : List ServerEvent}
      (hn : s.tasks[n]? = some ⟨peer, .stateChanged .active :: rest, .looping⟩)
      (hr : refuses config verdict = false) :
      Performs config s (.drive n verdict) (.promote peer)
  | refuse {n : ℕ} {verdict : Bool} {peer : α} {rest : List ServerEvent}
      (hn : s.tasks[n]? = some ⟨peer, .stateChanged .active :: rest, .looping⟩)
      (hr : refuses config verdict = true) :
      Performs config s (.drive n verdict) (.refuse peer)
  | depart {n : ℕ} {peer : α} {events : List ServerEvent}
      (hn : s.tasks[n]? = some ⟨peer, events, .leaving⟩) :
      Performs config s (.leave n) (.depart peer)

omit [DecidableEq α] in
theorem performs_of_section {config : RedundancyConfig} {s : Group α} {turn : Turn α}
    {l : LockSection α} (h : s.section? config turn = some l) :
    Performs config s turn l := by
  cases turn with
  | enrol events =>
    unfold section? at h
    cases ha : s.admitting with
    | none =>
      rw [ha] at h
      cases h
    | some peer =>
      rw [ha] at h
      cases h
      exact .insert events ha
  | drive n verdict =>
    unfold section? at h
    dsimp only at h
    split at h
    · rename_i hn
      unfold sectionOf at h
      split at h
      · split at h <;> rename_i hr <;> cases h
        · exact .refuse hn hr
        · exact .promote hn (Bool.eq_false_iff.mpr hr)
      · cases h
    · cases h
  | leave n =>
    unfold section? at h
    dsimp only at h
    split at h
    · rename_i hn
      cases h
      exact .depart hn
    · cases h
  | _ => cases h

variable (config : RedundancyConfig) (s : Group α) (turn : Turn α)

/-- The shared state after a lock section, if there is one. -/
def after (i : Inner α) : Option (LockSection α) → Inner α
  | some l => l.apply i
  | none => i

theorem inner_onEvent (n : ℕ) (peer : α) (event : ServerEvent)
    (rest : List ServerEvent) (verdict : Bool) :
    (s.onEvent config n peer event rest verdict).inner
      = after s.inner (sectionOf config peer verdict event) := by
  cases event with
  | asdu bytes =>
    unfold onEvent
    dsimp only
    split <;> rfl
  | closed reason => rfl
  | stateChanged state =>
    cases state with
    | active =>
      unfold onEvent sectionOf
      dsimp only
      split <;> rfl
    | _ => rfl

/-- **A turn changes the shared state by its lock section.** -/
theorem inner_step : (s.step config turn).1.inner = after s.inner (s.section? config turn) := by
  cases turn with
  | accept peer =>
    unfold step
    dsimp only
    split
    · rfl
    · split <;> rfl
  | enrol events =>
    unfold step section?
    cases s.admitting <;> rfl
  | queue | hangUp =>
    unfold step
    dsimp only
    split <;> rfl
  | drive n verdict =>
    unfold step section?
    dsimp only
    split
    · exact inner_onEvent config s n _ _ _ verdict
    · rfl
  | forward n taken =>
    unfold step
    dsimp only
    split
    · split <;> rfl
    · rfl
  | leave n =>
    unfold step section?
    dsimp only
    split <;> rfl

end Group

end Redundancy
