import Iec60870.PointsSim

/-!
# The server daemon

The server of the test tools (`server.rs`) keeps its process image and the baselines of
its deadband evaluator behind one read-write lock. Two kinds of tasks change a value:
the control connections, whose `Set` requests `handle_set` serves, and the tick tasks,
one for each point that has a schedule when the daemon starts. Both do it in two
sections. In the first one, under the write lock, they change the value, let the
evaluator note it, and encode the point; in the second one, under the read lock, they
hand the encoding to every peer. Between the two the lock is free.

`handleSet` and `tick` are the write sections. `Daemon` adds what is under way: the
reports that have been encoded and not yet handed to everyone, in the order of the write
sections they come from. One `step` of it is one write section, the beginning of one
broadcast, or one report handed to one peer; a step that the locks do not allow, or that
the task is not at, changes nothing.

What a step can do is said once: `Wrote` for the write sections, and `Moves` for the
daemon as a whole.
-/

open Iec60870 Deadband FileTransfer Machine Points ProcessImage

namespace Server

variable {F32 F64 : Type}

/-! ## The state behind the lock -/

/-- Where a broadcast goes: to the serial outstation, or to a connected peer. -/
inductive Dest where
  | outstation
  | peer (address : ℕ)
deriving DecidableEq, Repr

/-- **The state of the daemon** (`DaemonState`). -/
structure DaemonState (F32 F64 : Type) where
  image : ProcessImage F32
  tracker : DeadbandTracker F32 F64
  /-- The addresses of the connected peers, the keys of a map (`peers`). -/
  peers : List ℕ
  nodup : peers.Nodup
  /-- There is a channel to the serial outstation (`outstation_tx`). -/
  outstationTx : Bool
  coa : CommonAddress

namespace DaemonState

/-- Where `broadcast` sends to. -/
def destinations (s : DaemonState F32 F64) : List Dest :=
  if s.outstationTx then [.outstation] else s.peers.map .peer

/-- They are different ones. -/
theorem nodup_destinations (s : DaemonState F32 F64) : s.destinations.Nodup := by
  unfold destinations
  cases s.outstationTx with
  | true => exact List.nodup_singleton _
  | false =>
    refine List.Nodup.map (fun a b hab => ?_) s.nodup
    cases hab
    rfl

end DaemonState

/-- An answer on the control socket (`Response`). -/
inductive Response where
  | ok
  | err (message : String)
deriving DecidableEq, Repr

/-- An encoded point on its way to the peers. -/
structure Report (F32 : Type) where
  ioa : UInt32
  /-- The sample that the encoding was made of. -/
  sample : Baseline F32
  bytes : Bytes
deriving DecidableEq, Repr

/-- **What a write section leaves to be done**: the report to broadcast, if there is one,
and the sample that the evaluator has noted. -/
structure Written (F32 : Type) where
  report : Option (Report F32)
  noted : Option (Baseline F32)
deriving DecidableEq, Repr

/-- The sample that the evaluator compares of a point. -/
def sampleOf (entry : PointEntry F32) : Baseline F32 :=
  ⟨(entryToMonitored entry).1, (entryToMonitored entry).2⟩

/-- Nothing is left to be done. -/
def Written.nothing : Written F32 := ⟨none, none⟩

/-! ## The requests and the tick -/

section Sections

variable (fp : PointArith F32 F64) (now : SystemTime) (s : DaemonState F32 F64) (ioa : UInt32)

/-- The report of a point: its encoding as a spontaneous ASDU. -/
def report (entry : PointEntry F32) : Option (Report F32) :=
  (encodePoint fp now ioa entry (.of .spontaneous) s.coa).map (⟨ioa, sampleOf entry, ·⟩)

/-- **The write section of a `Set` request** (`handle_set`). An observation that the
evaluator rejects is logged, and the report is made all the same. -/
def handleSet (value : PointValue F32) (quality : Option QualityWire) :
    DaemonState F32 F64 × Written F32 × Response :=
  match s.image.set ioa value quality with
  | (image, true) =>
    match image.get ioa with
    | some entry =>
      let (val, qds) := entryToMonitored entry
      let (tracker, result) := s.tracker.observe ⟨ioa⟩ val qds
      let noted := result.toOption.map fun () => ⟨val, qds⟩
      ({ s with image, tracker }, ⟨report fp now s ioa entry, noted⟩, .ok)
    -- `set` has found the point
    | none => (s, .nothing, .ok)
  | (_, false) => (s, .nothing, .err s!"IOA {ioa} not found")

/-- Install a schedule (`handle_sim_set`). -/
def handleSimSet (schedule : SimSchedule F32) : DaemonState F32 F64 × Response :=
  match s.image.get ioa with
  | none => (s, .err s!"IOA {ioa} not found")
  | some entry => ({ s with image := s.image.insert ioa { entry with schedule } }, .ok)

/-- Install a deadband policy (`handle_set_deadband`). -/
def handleSetDeadband (policy : DeadbandPolicy F32 F64) : DaemonState F32 F64 × Response :=
  ({ s with tracker := s.tracker.setPolicy ⟨ioa⟩ policy }, .ok)

/-- The image after a step of the simulator, if it has a next value. -/
def stepped (image : ProcessImage F32) (ioa : UInt32) (next : Option (PointValue F32)) :
    ProcessImage F32 :=
  match next with
  | some v => (image.set ioa v none).1
  | none => image

/-- **The write section of a tick** (the loop of the tick task in `run_daemon`). The task
ends if its point is gone, or if the step panics. -/
def tick (heads : Bool) (elapsed : UInt64) : DaemonState F32 F64 × Option (Written F32) :=
  match s.image.get ioa with
  | none => (s, none)
  | some entry =>
    match advanceValue fp heads entry.schedule (some entry.value) elapsed with
    | .error _ => (s, none)
    | .ok next =>
      let image := stepped s.image ioa next
      match image.get ioa with
      -- the point was there before the step
      | none => ({ s with image }, none)
      | some entry =>
        let (val, qds) := entryToMonitored entry
        let (tracker, decision) := s.tracker.evaluate fp.toFloatArith ⟨ioa⟩ val qds
        let written := match decision with
          | .ok .emit => ⟨report fp now s ioa entry, some ⟨val, qds⟩⟩
          | _ => .nothing
        ({ s with image, tracker }, some written)

end Sections

/-! ## The general interrogation -/

/-- An ASDU about an interrogation (`encode_asdu_bytes_list`). -/
def encodeInterrogation (qoi : Qoi) (cot : Cot) (ca : CommonAddress) : Bytes :=
  encodeAsdu C_IC_NA_1 [(⟨0⟩, qoi)] cot ca

/-- What is done for one address: the evaluator notes the point, and it is sent. -/
def reportPoint (fp : PointArith F32 F64) (clock : UInt32 → SystemTime) (cot : Cot)
    (p : DaemonState F32 F64 × List Bytes) (ioa : UInt32) :
    DaemonState F32 F64 × List Bytes :=
  match p.1.image.get ioa with
  | none => p
  | some entry =>
    let bytes := encodePoint fp (clock ioa) ioa entry cot p.1.coa
    let (val, qds) := entryToMonitored entry
    ({ p.1 with tracker := (p.1.tracker.observe ⟨ioa⟩ val qds).1 }, p.2 ++ bytes.toList)

/-- The same for a general interrogation. -/
def interrogatePoint (fp : PointArith F32 F64) (clock : UInt32 → SystemTime) :=
  reportPoint fp clock (.of .interrogatedGeneral)

/-- **The answer to a general interrogation** (`respond_interrogation_general`), sent to
the peer that asked: a confirmation, all points in the order of their addresses, and a
termination. `clock` is the reading of the clock for each point. -/
def respondInterrogationGeneral (fp : PointArith F32 F64) (clock : UInt32 → SystemTime)
    (s : DaemonState F32 F64) : DaemonState F32 F64 × List Bytes :=
  let ack := encodeInterrogation .general (.of .activationCon) s.coa
  let term := encodeInterrogation .general (.of .activationTermination) s.coa
  let (s, sent) := s.image.sortedIoas.foldl (interrogatePoint fp clock) (s, [ack])
  (s, sent ++ [term])

/-! ## The daemon -/

/-- A task that changes values. -/
inductive Task where
  /-- The task of a control connection. -/
  | connection (n : ℕ)
  /-- The tick task of a point. -/
  | ticker (ioa : UInt32)
deriving DecidableEq, Repr

/-- **An operation after its write section.** -/
structure Op (F32 : Type) where
  task : Task
  report : Report F32
  /-- Nothing while it waits for the read lock; then the destinations that its report has
  still to be handed to. -/
  todo : Option (List Dest)
deriving DecidableEq, Repr

/-- **The daemon and what is under way.** -/
structure Daemon (F32 F64 : Type) where
  state : DaemonState F32 F64
  /-- The tick tasks that run, with their counters. -/
  tickers : AList fun _ : UInt32 => UInt64
  /-- The operations between their write section and their end, the oldest first. -/
  flight : List (Op F32)

/-- What can happen. -/
inductive Input (F32 F64 : Type) where
  /-- A control connection runs the write section of a `Set` request. -/
  | set (connection : ℕ) (ioa : UInt32) (value : PointValue F32)
      (quality : Option QualityWire) (now : SystemTime)
  | simSet (connection : ℕ) (ioa : UInt32) (schedule : SimSchedule F32)
  | setDeadband (connection : ℕ) (ioa : UInt32) (policy : DeadbandPolicy F32 F64)
  /-- A tick task runs its write section. -/
  | tick (ioa : UInt32) (heads : Bool) (now : SystemTime)
  /-- A task takes the read lock. -/
  | lock (task : Task)
  /-- A task hands its report to one of the destinations. -/
  | send (task : Task) (dest : Dest)

/-- What is seen of it. -/
inductive Action (F32 : Type) where
  /-- A control connection has answered a request. -/
  | answered (connection : ℕ) (response : Response)
  /-- The evaluator has noted a sample in the write section of a task. -/
  | noted (task : Task) (ioa : UInt32) (sample : Baseline F32)
  /-- A task has handed a report to a destination. -/
  | sent (dest : Dest) (task : Task) (report : Report F32)
deriving DecidableEq, Repr

namespace Daemon

/-- The tick tasks that `run_daemon` spawns. -/
def tickersOf (image : ProcessImage F32) : AList fun _ : UInt32 => UInt64 :=
  image.sortedIoas.foldl (fun tickers ioa =>
      match image.get ioa with
      | some entry => if entry.schedule.isNone then tickers else tickers.insert ioa 0
      | none => tickers)
    ∅

/-- A daemon that starts with the given state. -/
def start (state : DaemonState F32 F64) : Daemon F32 F64 :=
  { state, tickers := tickersOf state.image, flight := [] }

/-- The operation that a task is at. -/
def op? (d : Daemon F32 F64) (task : Task) : Option (Op F32) :=
  d.flight.find? fun op => op.task == task

/-- **The task can run a write section**: it is not in the middle of an operation, and
nobody holds the read lock. -/
def free (d : Daemon F32 F64) (task : Task) : Bool :=
  d.flight.all fun op => op.todo.isNone && op.task != task

/-- Replace the operation of a task. -/
def put (d : Daemon F32 F64) (task : Task) (op : Option (Op F32)) : Daemon F32 F64 :=
  { d with flight := d.flight.filterMap fun o => if o.task = task then op else some o }

end Daemon

namespace Op

/-- The operation that has its report still to be handed to `dests`, and is over if
these are none. -/
def left (op : Op F32) (dests : List Dest) : Option (Op F32) :=
  if dests = [] then none else some { op with todo := some dests }

/-- What a control connection answers when it is over. -/
def answer (op : Op F32) (dests : List Dest) : List (Action F32) :=
  match op.task with
  | .connection n => if dests = [] then [.answered n .ok] else []
  | .ticker _ => []

end Op

namespace Written

/-- The operation that a task goes on with. -/
def op (w : Written F32) (task : Task) : List (Op F32) :=
  w.report.toList.map fun report => ⟨task, report, none⟩

/-- What is seen of a write section. -/
def actions (w : Written F32) (task : Task) (ioa : UInt32) : List (Action F32) :=
  w.noted.toList.map (.noted task ioa)

/-- What a control connection answers right after it. -/
def answer (w : Written F32) (n : ℕ) (response : Response) : List (Action F32) :=
  if w.report.isSome then [] else [.answered n response]

@[simp] theorem op_nothing (task : Task) : (nothing : Written F32).op task = [] := rfl

@[simp] theorem actions_nothing (task : Task) (ioa : UInt32) :
    (nothing : Written F32).actions task ioa = [] := rfl

end Written

/-- **One step of the daemon.** -/
def step (fp : PointArith F32 F64) (d : Daemon F32 F64) :
    Input F32 F64 → Daemon F32 F64 × List (Action F32)
  | .set n ioa value quality now =>
    if d.free (.connection n) then
      let (state, written, response) := handleSet fp now d.state ioa value quality
      ({ d with state, flight := d.flight ++ written.op (.connection n) },
        written.actions (.connection n) ioa ++ written.answer n response)
    else (d, [])
  | .simSet n ioa schedule =>
    if d.free (.connection n) then
      let (state, response) := handleSimSet d.state ioa schedule
      ({ d with state }, [.answered n response])
    else (d, [])
  | .setDeadband n ioa policy =>
    if d.free (.connection n) then
      let (state, response) := handleSetDeadband d.state ioa policy
      ({ d with state }, [.answered n response])
    else (d, [])
  | .tick ioa heads now =>
    match d.tickers.lookup ioa with
    | none => (d, [])
    | some ticks =>
      if d.free (.ticker ioa) then
        let elapsed := ticks + 1
        match tick fp now d.state ioa heads elapsed with
        | (state, none) => ({ d with state, tickers := d.tickers.erase ioa }, [])
        | (state, some written) =>
          ({ state
             tickers := d.tickers.insert ioa elapsed
             flight := d.flight ++ written.op (.ticker ioa) },
            written.actions (.ticker ioa) ioa)
      else (d, [])
  | .lock task =>
    match d.op? task with
    | none => (d, [])
    | some op =>
      if op.todo = none then
        let dests := d.state.destinations
        (d.put task (op.left dests), op.answer dests)
      else (d, [])
  | .send task dest =>
    match d.op? task with
    | none => (d, [])
    | some op =>
      match op.todo with
      | none => (d, [])
      | some dests =>
        if dest ∈ dests then
          let rest := dests.erase dest
          (d.put task (op.left rest), .sent dest task op.report :: op.answer rest)
        else (d, [])

/-! ## What a step does -/

/-- **What a write section does** that makes `entry` of a point. The evaluator notes the
sample and it is reported; or a tick is suppressed or rejected, and nothing is reported;
or the sample of a request is rejected, for the evaluator knows the point by another
kind, and it is reported nevertheless. -/
inductive Wrote (fp : PointArith F32 F64) (now : SystemTime) (s : DaemonState F32 F64)
    (ioa : UInt32) (entry : PointEntry F32) : DaemonState F32 F64 → Written F32 → Prop
  | noted {image : ProcessImage F32} (himage : s.image.Updated image ioa entry) :
      Wrote fp now s ioa entry
        { s with image, tracker := s.tracker.insert ⟨ioa⟩ (sampleOf entry) }
        ⟨report fp now s ioa entry, some (sampleOf entry)⟩
  | quiet {image : ProcessImage F32} (himage : s.image.Updated image ioa entry) :
      Wrote fp now s ioa entry { s with image } .nothing
  | rejected {image : ProcessImage F32} (himage : s.image.Updated image ioa entry)
      (baseline : Baseline F32) (hb : s.tracker.baselines ⟨ioa⟩ = some baseline)
      (hk : baseline.value.kind ≠ (sampleOf entry).value.kind) :
      Wrote fp now s ioa entry { s with image } ⟨report fp now s ioa entry, none⟩

section Sections

variable {fp : PointArith F32 F64} {s : DaemonState F32 F64} {ioa : UInt32}
  {entry : PointEntry F32}

theorem handleSet_wrote (now : SystemTime) (hget : s.image.get ioa = some entry)
    (value : PointValue F32) (quality : Option QualityWire) :
    ∃ s' w, handleSet fp now s ioa value quality = (s', w, .ok)
      ∧ Wrote fp now s ioa { entry with value, quality := quality.getD entry.quality } s' w := by
  unfold handleSet
  rw [set_of_get hget]
  dsimp only
  rw [get_insert]
  generalize { entry with value, quality := quality.getD entry.quality } = entry'
  dsimp only
  have himage := s.image.updated_insert ioa entry'
  have hobs := observation_observe s.tracker ⟨ioa⟩ (entryToMonitored entry').1
    (entryToMonitored entry').2
  generalize s.tracker.observe _ _ _ = outcome at hobs ⊢
  cases hobs with
  | noted => exact ⟨_, _, rfl, .noted himage⟩
  | mismatch baseline hb hk => exact ⟨_, _, rfl, .rejected himage baseline hb hk⟩

theorem handleSet_of_get_none (now : SystemTime) (hget : s.image.get ioa = none)
    (value : PointValue F32) (quality : Option QualityWire) :
    handleSet fp now s ioa value quality = (s, .nothing, .err s!"IOA {ioa} not found") := by
  rw [handleSet, set_of_get_none hget]

/-- A step changes at most the value of its point. -/
theorem updated_stepped {image : ProcessImage F32} (hget : image.get ioa = some entry)
    (next : Option (PointValue F32)) : image.Updated (stepped image ioa next) ioa
      { entry with value := next.getD entry.value } := by
  cases next with
  | none => exact ⟨hget, fun _ _ => rfl⟩
  | some v =>
    unfold stepped
    dsimp only
    rw [set_of_get hget]
    exact image.updated_insert ioa _

theorem tick_wrote (now : SystemTime) {heads : Bool} {elapsed : UInt64}
    {next : Option (PointValue F32)} (hget : s.image.get ioa = some entry)
    (hnext : advanceValue fp heads entry.schedule (some entry.value) elapsed = .ok next) :
    ∃ s' w, tick fp now s ioa heads elapsed = (s', some w)
      ∧ Wrote fp now s ioa { entry with value := next.getD entry.value } s' w := by
  unfold tick
  rw [hget]
  dsimp only
  rw [hnext]
  dsimp only
  have himage := updated_stepped hget next
  generalize stepped s.image ioa next = image at himage ⊢
  generalize { entry with value := next.getD entry.value } = entry' at himage ⊢
  rw [himage.self]
  dsimp only
  have heval := evaluation_evaluate fp.toFloatArith s.tracker ⟨ioa⟩
    (entryToMonitored entry').1 (entryToMonitored entry').2
  generalize s.tracker.evaluate _ _ _ _ = outcome at heval ⊢
  cases heval with
  | emit => exact ⟨_, _, rfl, .noted himage⟩
  | suppress | mismatch => exact ⟨_, _, rfl, .quiet himage⟩

theorem tick_of_error (now : SystemTime) {heads : Bool} {elapsed : UInt64} {panic : Panic}
    (hget : s.image.get ioa = some entry)
    (hpanic : advanceValue fp heads entry.schedule (some entry.value) elapsed
      = .error panic) : tick fp now s ioa heads elapsed = (s, none) := by
  rw [tick, hget]
  dsimp only
  rw [hpanic]

end Sections

/-- **The input keeps the variants**: the value of a request is of the variant of its
point, and so is what the schedule makes at a tick. Nothing is asked of what is not
done, nor of a step that panics. -/
def Input.Keeps (fp : PointArith F32 F64) (d : Daemon F32 F64) : Input F32 F64 → Prop
  | .set n ioa value _ _ => d.free (.connection n) = true →
    ∀ entry, d.state.image.get ioa = some entry → value.kind = entry.kind.valueKind
  | .tick ioa _ _ => (d.tickers.lookup ioa).isSome = true → d.free (.ticker ioa) = true →
    ∀ entry, d.state.image.get ioa = some entry → entry.schedule.Safe fp (some entry.value) →
      entry.schedule.fits entry.kind.valueKind = true
  | _ => True

instance (d : Daemon F32 F64) : (i : Input F32 F64) → Decidable (i.Keeps fp d)
  | .set _ ioa _ _ _ => inferInstanceAs (Decidable (_ → ∀ e ∈ d.state.image.get ioa, _))
  | .tick ioa _ _ => inferInstanceAs (Decidable (_ → _ → ∀ e ∈ d.state.image.get ioa, _))
  | .simSet .. | .setDeadband .. | .lock _ | .send .. => isTrue trivial

/-- The action is an answer to a request. -/
def Action.isAnswer : Action F32 → Bool
  | .answered _ _ => true
  | _ => false

/-- **What a step of the daemon does.** -/
inductive Moves (fp : PointArith F32 F64) (d : Daemon F32 F64) :
    Input F32 F64 → Daemon F32 F64 → List (Action F32) → Prop
  /-- Nothing, or a tick task ends. -/
  | idle {i : Input F32 F64} {tickers : AList fun _ : UInt32 => UInt64}
      {actions : List (Action F32)} (hkeeps : i.Keeps fp d)
      (hactions : actions.all Action.isAnswer = true) :
      Moves fp d i { d with tickers } actions
  /-- A task runs a write section, and the kind of the point stays. -/
  | wrote {i : Input F32 F64} {tickers : AList fun _ : UInt32 => UInt64}
      {state : DaemonState F32 F64} {written : Written F32} {answers : List (Action F32)}
      {entry entry' : PointEntry F32} (task : Task) (ioa : UInt32) (now : SystemTime)
      (hfree : d.free task = true) (hget : d.state.image.get ioa = some entry)
      (hwrote : Wrote fp now d.state ioa entry' state written)
      (hkind : entry'.kind = entry.kind)
      (hkeeps : entry.WellTyped → (entry'.WellTyped ↔ i.Keeps fp d))
      (hanswers : answers.all Action.isAnswer = true) :
      Moves fp d i { state, tickers, flight := d.flight ++ written.op task }
        (written.actions task ioa ++ answers)
  /-- A schedule is installed. -/
  | scheduled {entry : PointEntry F32} (n : ℕ) (ioa : UInt32) (schedule : SimSchedule F32)
      (hget : d.state.image.get ioa = some entry) :
      Moves fp d (.simSet n ioa schedule)
        { d with state :=
            { d.state with image := d.state.image.insert ioa { entry with schedule } } }
        [.answered n .ok]
  /-- A deadband policy is installed. -/
  | policed (n : ℕ) (ioa : UInt32) (policy : DeadbandPolicy F32 F64) :
      Moves fp d (.setDeadband n ioa policy)
        { d with state :=
            { d.state with tracker := d.state.tracker.setPolicy ⟨ioa⟩ policy } }
        [.answered n .ok]
  /-- A task begins its broadcast. -/
  | locked {op : Op F32} (task : Task) (hop : d.op? task = some op) (htodo : op.todo = none) :
      Moves fp d (.lock task) (d.put task (op.left d.state.destinations))
        (op.answer d.state.destinations)
  /-- A task hands its report to a destination. -/
  | handed {op : Op F32} {dests : List Dest} (task : Task) (dest : Dest)
      (hop : d.op? task = some op) (htodo : op.todo = some dests) (hdest : dest ∈ dests) :
      Moves fp d (.send task dest) (d.put task (op.left (dests.erase dest)))
        (.sent dest task op.report :: op.answer (dests.erase dest))

section Step

variable (fp : PointArith F32 F64) (d : Daemon F32 F64)

theorem all_isAnswer_answer (w : Written F32) (n : ℕ) (response : Response) :
    (w.answer n response).all Action.isAnswer = true := by
  unfold Written.answer
  cases w.report.isSome <;> rfl

theorem moves_set (n : ℕ) (ioa : UInt32) (value : PointValue F32)
    (quality : Option QualityWire) (now : SystemTime) :
    Moves fp d (.set n ioa value quality now) (step fp d (.set n ioa value quality now)).1
      (step fp d (.set n ioa value quality now)).2 := by
  unfold step
  dsimp only
  cases hfree : d.free (.connection n) with
  | false =>
    refine .idle (fun h => ?_) rfl
    rw [hfree] at h
    cases h
  | true =>
    rw [if_pos rfl]
    cases hget : d.state.image.get ioa with
    | none =>
      rw [handleSet_of_get_none now hget]
      dsimp only
      rw [Written.op_nothing, List.append_nil]
      refine .idle (fun _ entry h => ?_) rfl
      rw [hget] at h
      cases h
    | some entry =>
      obtain ⟨state, written, hset, hwrote⟩ := handleSet_wrote now hget value quality
      rw [hset]
      refine .wrote (.connection n) ioa now hfree hget hwrote rfl (fun _ => ?_)
        (all_isAnswer_answer written n .ok)
      constructor
      · intro hvalue _ e he
        rw [hget] at he
        cases he
        exact hvalue
      · intro hkeeps
        exact hkeeps hfree entry hget

theorem moves_tick (ioa : UInt32) (heads : Bool) (now : SystemTime) :
    Moves fp d (.tick ioa heads now) (step fp d (.tick ioa heads now)).1
      (step fp d (.tick ioa heads now)).2 := by
  unfold step
  dsimp only
  cases hticks : d.tickers.lookup ioa with
  | none =>
    refine .idle (fun h => ?_) rfl
    rw [hticks] at h
    cases h
  | some ticks =>
    dsimp only
    cases hfree : d.free (.ticker ioa) with
    | false =>
      refine .idle (fun _ h => ?_) rfl
      rw [hfree] at h
      cases h
    | true =>
      rw [if_pos rfl]
      cases hget : d.state.image.get ioa with
      | none =>
        rw [tick, hget]
        refine .idle (fun _ _ entry h => ?_) rfl
        rw [hget] at h
        cases h
      | some entry =>
        cases hnext : advanceValue fp heads entry.schedule (some entry.value) (ticks + 1) with
        | error panic =>
          rw [tick_of_error now hget hnext]
          refine .idle (fun _ _ e he hsafe => ?_) rfl
          rw [hget] at he
          cases he
          obtain ⟨next, hok⟩ := advanceValue_isOk_iff.mpr hsafe
          rw [hok] at hnext
          cases hnext
        | ok next =>
          obtain ⟨state, written, htick, hwrote⟩ := tick_wrote now hget hnext
          rw [htick]
          dsimp only
          rw [← List.append_nil (written.actions _ _)]
          refine .wrote (.ticker ioa) ioa now hfree hget hwrote rfl (fun htyped => ?_) rfl
          have hsafe := safe_of_advanceValue hnext
          have hfits : ({ entry with value := next.getD entry.value } :
              PointEntry F32).WellTyped ↔ entry.schedule.fits entry.kind.valueKind = true := by
            obtain ⟨hnone, hschedule⟩ | ⟨v, hv, hkind⟩ := advanceValue_of_safe hsafe
            · rw [hnone] at hnext
              cases hnext
              rw [hschedule]
              exact iff_of_true htyped rfl
            · rw [hv] at hnext
              cases hnext
              show v.kind = entry.kind.valueKind ↔ _
              rw [hkind _ rfl, htyped, SimSchedule.makes_eq_iff]
          rw [hfits]
          constructor
          · intro hfit _ _ e he _
            rw [hget] at he
            cases he
            exact hfit
          · intro hkeeps
            exact hkeeps (by rw [hticks]; rfl) hfree entry hget hsafe

/-- **Every step is one of these moves.** -/
theorem moves_step (i : Input F32 F64) : Moves fp d i (step fp d i).1 (step fp d i).2 := by
  cases i with
  | set n ioa value quality now => exact moves_set fp d n ioa value quality now
  | tick ioa heads now => exact moves_tick fp d ioa heads now
  | simSet n ioa schedule =>
    unfold step
    dsimp only
    cases d.free (.connection n) with
    | false => exact .idle trivial rfl
    | true =>
      rw [if_pos rfl, handleSimSet]
      cases hget : d.state.image.get ioa with
      | none => exact .idle trivial rfl
      | some entry => exact .scheduled n ioa schedule hget
  | setDeadband n ioa policy =>
    unfold step
    dsimp only
    cases d.free (.connection n) with
    | false => exact .idle trivial rfl
    | true => exact .policed n ioa policy
  | lock task =>
    unfold step
    dsimp only
    cases hop : d.op? task with
    | none => exact .idle trivial rfl
    | some op =>
      dsimp only
      by_cases htodo : op.todo = none
      · rw [if_pos htodo]
        exact .locked task hop htodo
      · rw [if_neg htodo]
        exact .idle trivial rfl
  | send task dest =>
    unfold step
    dsimp only
    cases hop : d.op? task with
    | none => exact .idle trivial rfl
    | some op =>
      dsimp only
      cases htodo : op.todo with
      | none => exact .idle trivial rfl
      | some dests =>
        dsimp only
        by_cases hdest : dest ∈ dests
        · rw [if_pos hdest]
          exact .handed task dest hop htodo hdest
        · rw [if_neg hdest]
          exact .idle trivial rfl

end Step

end Server
