import Iec60870.Driver104Task
import Iec60870.FileTransferThread

/-!
# A connection with a file transfer service

A connection that transfers files has two tasks, the driver and the file
transfer service (`spawn_with_ft`), and a channel in each direction: the
commands of the service and of the application to the driver, and the ASDUs
of file transfers from the driver to the service. Both channels have room for
32 messages, and a task that sends to a full one waits.

Neither task takes a message while it is busy. The driver delivers what a
whole read has brought before it looks at the commands, and the service
performs all that a session asks for – and a sender asks for the next chunk
until the file is at its end – before it looks at the ASDUs. So each can wait
for the other (`Endpoint.Deadlocked`), and then both wait for ever
(`deadlocked_of_run`). A peer that requests a file of 30 chunks brings it
about with 35 ASDUs in one read (`deadlock_reachable`).

The driver never waits for the service if every read brings at most as many
ASDUs of file transfers as the channel has room for when it begins
(`no_deadlock`).
-/

open Iec60870 Machine

/-- Messages that the channel of the commands has room for. -/
def commandCapacity : ℕ := 32

/-- Messages that the channel of the file transfer ASDUs has room for. -/
def asduCapacity : ℕ := 32

/-- **The two tasks and their channels.** The channel of the ASDUs is the one
that the service reads from. -/
structure Endpoint (π ρ ω : Type) where
  driver : Frame104.Driver
  commands : List Frame104.Command
  service : FileTransfer.Service π ρ ω

namespace Endpoint

variable {π ρ ω : Type}

/-- What can happen next. -/
inductive Move where
  /-- The driver takes a command. -/
  | command
  /-- The timer of the driver fires. -/
  | tick
  /-- The driver reads octets. -/
  | read (chunk : Bytes)
  /-- The driver goes on with what it is doing. -/
  | apply
  /-- The service runs. If its timer is due, its sessions have some order. -/
  | serve (tick : Option (List FileTransfer.Key))
  /-- The application asks for a transfer. -/
  | submit (intent : FileTransfer.Intent)
  /-- The application sends a command. -/
  | order (cmd : Frame104.Command)
  /-- The application takes no more events. -/
  | hangUp
deriving DecidableEq

/-- What the tasks do. -/
inductive Effect where
  | driver (e : Frame104.DriverEffect)
  | service (key : FileTransfer.Key) (e : FileTransfer.Effect)
deriving DecidableEq

/-- The connection before anything has happened. -/
def init (role : Frame104.Role) (config : Frame104.Config)
    (policy : Frame104.AsduPolicy) (provider : FileTransfer.Provider π ρ ω)
    (world : π) (c : FileTransfer.FileTransferConfig) : Endpoint π ρ ω :=
  ⟨.init role config policy, [], .init provider world c⟩

/-- The ASDU the service is about to send, if it is about to send one. -/
def sending (s : FileTransfer.Service π ρ ω) : Option Bytes :=
  match s.work with
  | some w => w.queue.head?.bind (FileTransfer.message w.key.1)
  | none => none

/-- **The service waits at the full channel of the commands.** -/
def serviceBlocked (s : Endpoint π ρ ω) : Bool :=
  decide (s.driver.phase ≠ .ended) && (sending s.service).isSome
    && decide (commandCapacity ≤ s.commands.length)

/-- **The driver waits at the full channel of the ASDUs**, in its decode
loop. -/
def driverBlocked (s : Endpoint π ρ ω) : Bool :=
  match s.driver.phase with
  | .applying (.deliverAsdu asdu :: _) _ true =>
    Frame104.toService s.driver.policy asdu && decide (asduCapacity ≤ s.service.asdus.length)
  | _ => false

/-- **Each task waits for the other.** -/
def Deadlocked (s : Endpoint π ρ ω) : Prop :=
  s.driverBlocked = true ∧ s.serviceBlocked = true

instance (s : Endpoint π ρ ω) : Decidable s.Deadlocked :=
  inferInstanceAs (Decidable (_ ∧ _))

/-- The ASDU an effect sends to the service. -/
def routed? : Frame104.DriverEffect → Option (CommonAddress × Asdu)
  | .routed ca asdu => some (ca, asdu)
  | _ => none

/-- The command an effect of the service is. -/
def command? (e : FileTransfer.Key × FileTransfer.Effect) :
    Option Frame104.Command :=
  match e.2 with
  | .command asdu => some (.sendAsdu asdu)
  | _ => none

/-- The driver goes on. -/
def onApply (s : Endpoint π ρ ω) (now : ℕ) : Endpoint π ρ ω × List Effect :=
  let r := s.driver.apply (decide (s.service.asdus.length < asduCapacity)) now
  ({ s with
      driver := r.1
      service := { s.service with asdus := s.service.asdus ++ r.2.filterMap routed? } },
    r.2.map .driver)

/-- The service runs. What it sends to a driver that has ended is lost. -/
def onServe (s : Endpoint π ρ ω) (tick : Option (List FileTransfer.Key)) (now : ℕ) :
    Endpoint π ρ ω × List Effect :=
  let r := s.service.step (.run tick, now)
  ({ s with
      service := r.1
      commands := if s.driver.phase = .ended then s.commands
        else s.commands ++ r.2.filterMap command? },
    r.2.map fun e => .service e.1 e.2)

/-- **One move.** The driver looks at its commands first, then at the timer,
then at the transport, and only when it is not busy; a move that is not
possible changes nothing. -/
def step (s : Endpoint π ρ ω) (m : Move × ℕ) : Endpoint π ρ ω × List Effect :=
  match m.1 with
  | .command =>
    match s.driver.phase, s.commands with
    | .waiting, cmd :: rest =>
      ({ s with driver := s.driver.onCommand cmd m.2, commands := rest }, [])
    | _, _ => (s, [])
  | .tick =>
    match s.driver.phase, s.commands with
    | .waiting, [] => ({ s with driver := s.driver.onTick m.2 }, [])
    | _, _ => (s, [])
  | .read chunk =>
    match s.driver.phase, s.commands with
    | .waiting, [] =>
      let r := s.driver.onRead chunk
      ({ s with driver := r.1 }, r.2.map .driver)
    | _, _ => (s, [])
  | .apply => s.onApply m.2
  | .serve tick => if s.serviceBlocked then (s, []) else s.onServe tick m.2
  | .submit intent =>
    ({ s with service := (s.service.step (.submit intent, m.2)).1 }, [])
  | .order cmd =>
    if s.commands.length < commandCapacity then
      ({ s with commands := s.commands ++ [cmd] }, [])
    else (s, [])
  | .hangUp => ({ s with driver := { s.driver with listening := false } }, [])

/-- A call of the connection, in a history. -/
abbrev Call (π ρ ω : Type) := Machine.Call (Endpoint π ρ ω) (Move × ℕ) Effect

/-! ## For ever -/

/-- A driver that is blocked waits for room. -/
theorem apply_of_blocked {s : Endpoint π ρ ω} (h : s.driverBlocked = true)
    (now : ℕ) : s.onApply now = (s, []) := by
  unfold driverBlocked at h
  split at h
  · rename_i asdu rest keepGoing hphase
    rw [Bool.and_eq_true, decide_eq_true_eq] at h
    have hroom : decide (s.service.asdus.length < asduCapacity) = false :=
      decide_eq_false (not_lt.mpr h.2)
    have hdest : ∃ ca parsed, Frame104.destination s.driver.policy asdu = .service ca parsed := by
      have ht := h.1
      unfold Frame104.toService at ht
      split at ht
      · exact ⟨_, _, ‹_›⟩
      · cases ht
    obtain ⟨ca, parsed, hdest⟩ := hdest
    have happly : s.driver.apply false now = (s.driver, []) := by
      unfold Frame104.Driver.apply
      rw [hphase]
      dsimp only
      unfold Frame104.Driver.perform
      dsimp only
      rw [hdest]
      rfl
    unfold onApply
    rw [hroom, happly]
    dsimp only
    rw [List.filterMap_nil, List.append_nil]
    rfl
  · cases h

/-- A blocked driver is not at its `select!`. -/
theorem phase_of_blocked {s : Endpoint π ρ ω} (h : s.driverBlocked = true) :
    s.driver.phase ≠ .waiting := by
  intro hwaiting
  unfold driverBlocked at h
  rw [hwaiting] at h
  cases h

/-- **A deadlock is for ever**, whatever the peer and the application do. -/
theorem deadlocked_step {s : Endpoint π ρ ω} (h : s.Deadlocked) (m : Move × ℕ) :
    (s.step m).1.Deadlocked := by
  have hphase := phase_of_blocked h.1
  have hfull : ¬ s.commands.length < commandCapacity := by
    have hs := h.2
    rw [serviceBlocked, Bool.and_eq_true, decide_eq_true_eq] at hs
    exact not_lt.mpr hs.2
  unfold step
  split
  · split
    · exact absurd ‹_› hphase
    · exact h
  · split
    · exact absurd ‹_› hphase
    · exact h
  · split
    · exact absurd ‹_› hphase
    · exact h
  · rw [apply_of_blocked h.1]
    exact h
  · rw [if_pos h.2]
    exact h
  · exact h
  · rw [if_neg hfull]
    exact h
  · exact h

theorem deadlocked_of_run {s t : Endpoint π ρ ω} (h : s.Deadlocked)
    {g : List (Call π ρ ω)} (r : Run step s g t) : t.Deadlocked := by
  induction r with
  | nil => exact h
  | snoc r m ih => exact deadlocked_step ih m

/-! ## Reads that fit -/

/-- **A read fits**: it brings at most as many ASDUs for the service, together
with what is buffered, as the channel has room for when it begins. -/
def ReadFits (s : Endpoint π ρ ω) : Move → Prop
  | .read chunk =>
    s.driver.phase = .waiting → s.commands = [] →
      Frame104.serviceAsdus s.driver.policy (s.driver.rxBuf ++ chunk)
        + s.service.asdus.length ≤ asduCapacity
  | _ => True

instance (s : Endpoint π ρ ω) (m : Move) : Decidable (s.ReadFits m) :=
  match m with
  | .read _ => inferInstanceAs (Decidable (_ → _ → _ ≤ _))
  | .command | .tick | .apply | .serve _ | .submit _ | .order _ | .hangUp =>
    .isTrue trivial

/-- What the driver has still to deliver has room in the channel. -/
structure Roomy (s : Endpoint π ρ ω) : Prop where
  room : s.driver.pending + s.service.asdus.length ≤ asduCapacity
  actions : s.driver.conn.actions = []

section Roomy

variable {s : Endpoint π ρ ω}

theorem length_filterMap_routed (es : List Frame104.DriverEffect) :
    (es.filterMap routed?).length = Frame104.routedCount es := by
  induction es with
  | nil => rfl
  | cons e es ih =>
    rw [filterMap_cons_toList, List.length_append, ih, Frame104.routedCount,
      Frame104.routedCount, List.countP_cons, Nat.add_comm]
    cases e <;> rfl

/-- The driver goes on. -/
theorem Roomy.onApply (h : s.Roomy) (now : ℕ) : (s.onApply now).1.Roomy := by
  have hd := Frame104.delivers_apply s.driver h.actions
    (decide (s.service.asdus.length < asduCapacity)) now
  refine ⟨?_, hd.actions h.actions⟩
  have hroom := h.room
  have hpending := hd.pending
  unfold Endpoint.onApply
  dsimp only
  rw [List.length_append, length_filterMap_routed]
  omega

/-- The service takes from the channel, and adds nothing to it. -/
theorem Roomy.onServe (h : s.Roomy) (tick : Option (List FileTransfer.Key))
    (now : ℕ) : (s.onServe tick now).1.Roomy := by
  have hle := FileTransfer.asdus_run s.service now tick
  exact ⟨le_trans (Nat.add_le_add_left hle _) h.room, h.actions⟩

/-- Before anything is to be delivered. -/
theorem Roomy.handle (h : s.Roomy) {input : Frame104.Input}
    (hi : ∀ apdu, input ≠ .apdu apdu) (now : ℕ) (commands : List Frame104.Command) :
    Roomy { s with
      driver := s.driver.handle input now false
      commands := commands } := by
  refine ⟨?_, rfl⟩
  show (s.driver.handle input now false).pending + _ ≤ _
  rw [Frame104.pending_handle_other s.driver h.actions hi]
  exact le_trans (Nat.add_le_add_right (Nat.zero_le _) _) h.room

/-- **Every move whose read fits keeps the room.** -/
theorem Roomy.step (h : s.Roomy) (m : Move × ℕ) (hfits : s.ReadFits m.1) : (s.step m).1.Roomy := by
  obtain ⟨m, now⟩ := m
  cases m with
  | command =>
    unfold Endpoint.step
    dsimp only
    split
    · rename_i cmd rest hphase hcommands
      refine h.handle (fun apdu => ?_) now rest
      cases cmd <;> exact nofun
    · exact h
  | tick =>
    unfold Endpoint.step
    dsimp only
    split
    · exact h.handle (fun _ => Frame104.Input.noConfusion) now s.commands
    · exact h
  | read chunk =>
    -- The only move that adds to what is to be delivered.
    unfold Endpoint.step
    dsimp only
    split
    · rename_i hphase hcommands
      refine ⟨le_trans (Nat.add_le_add_right ?_ _) (hfits hphase hcommands), ?_⟩
      · exact Frame104.pending_onRead s.driver chunk
      · rw [← h.actions]
        exact congrArg _ (Frame104.conn_onRead s.driver chunk)
    · exact h
  | apply => exact h.onApply now
  | serve tick =>
    unfold Endpoint.step
    dsimp only
    split
    · exact h
    · exact h.onServe tick now
  | submit | hangUp => exact ⟨h.room, h.actions⟩
  | order cmd =>
    unfold Endpoint.step
    dsimp only
    split
    · exact ⟨h.room, h.actions⟩
    · exact h

/-- With room for all that it has to deliver, the driver does not wait. -/
theorem Roomy.not_blocked (h : s.Roomy) : s.driverBlocked = false := by
  unfold driverBlocked
  split
  · rename_i asdu rest keepGoing hphase
    -- It waits on an ASDU for a full channel: this ASDU alone is one too many.
    by_contra hblocked
    rw [Bool.not_eq_false, Bool.and_eq_true, decide_eq_true_eq] at hblocked
    have hpending : s.driver.pending = [asdu].countP (Frame104.toService s.driver.policy)
          + Frame104.serviceActions s.driver.policy rest
          + Frame104.serviceAsdus s.driver.policy s.driver.rxBuf := by
      rw [Frame104.Driver.pending, hphase]
      dsimp only
      rw [Frame104.serviceActions_cons]
      rfl
    have hone : [asdu].countP (Frame104.toService s.driver.policy) = 1 := by
      rw [List.countP_singleton, hblocked.1]
      rfl
    have hroom := h.room
    rw [hpending, hone] at hroom
    omega
  · rfl

end Roomy

/-- **No deadlock with reads that fit.** In every run of a connection in which
each read brings at most as many ASDUs for the file transfer service as the
channel has room for when it begins – whatever the peer sends, the provider
answers and the application asks for, and however the two tasks are scheduled
– the tasks never wait for each other. -/
theorem no_deadlock {role : Frame104.Role} {config : Frame104.Config}
    {policy : Frame104.AsduPolicy} {provider : FileTransfer.Provider π ρ ω}
    {world : π} {c : FileTransfer.FileTransferConfig} {h : List (Call π ρ ω)}
    {s : Endpoint π ρ ω} (r : Run step (init role config policy provider world c) h s)
    (hfits : Throughout (fun _ call => call.before.ReadFits call.input.1) h) :
    ¬ s.Deadlocked := by
  have hroomy : s.Roomy := by
    induction r with
    | nil => exact ⟨Nat.zero_le _, rfl⟩
    | @snoc h s r i ih =>
      obtain ⟨hbefore, hlast⟩ := (throughout_snoc _ _).mp hfits
      exact (ih hbefore).step i hlast
  intro hdead
  rw [Deadlocked, hroomy.not_blocked] at hdead
  exact Bool.false_ne_true hdead.1

/-! ## A deadlock -/

/-- A provider with one file, which is read one octet after the other; its
state is how many are left. -/
def countdown : FileTransfer.Provider ℕ Unit Unit where
  lookup _ n := (.ok (some ⟨UInt32.ofNat n⟩), n)
  openRead _ n := (.ok (), n)
  openWrite _ _ n := (.ok (), n)
  readSegment _ _ n := ((.ok (if n = 0 then none else some [42]), ()), n - 1)
  writeSegment _ _ n := ((.ok (), ()), n)
  finalize _ _ n := (.ok (), n)

/-- A server with a file of 30 octets. -/
def fileServer : Endpoint ℕ Unit Unit :=
  init .server .default .new countdown 30 .default

/-- The octets of an I-frame. -/
def iframeOctets (n : ℕ) (asdu : Bytes) : Bytes :=
  ((Frame104.Codec.encode (.i (Frame104.SeqNo.new n) (Frame104.SeqNo.new 0) asdu)).toOption).getD []

/-- The peer selects the file, requests it, and goes on with ASDUs of file
transfers that mean nothing: `n` I-frames in all. -/
def burst (n : ℕ) : Bytes :=
  (List.range n).flatMap fun i => iframeOctets i <|
    if i = 0 then FileTransfer.send F_SC_NA_1.payload ⟨1⟩
      ⟨⟨0⟩, ⟨7⟩, ⟨0⟩, Scq.of .selectFile 0⟩
    else if i = 1 then FileTransfer.send F_SC_NA_1.payload ⟨1⟩
      ⟨⟨0⟩, ⟨7⟩, ⟨0⟩, Scq.of .requestFile 0⟩
    else [126, 1, 13, 0, 1, 0]

/-- A schedule: the peer starts the transfer of data, and its I-frames arrive
in one read. The driver delivers what it can, then the service sends what it
can, then the driver goes on. -/
def schedule (n : ℕ) : List (Move × ℕ) :=
  (.read [0x68, 0x04, 0x07, 0x00, 0x00, 0x00], 0) :: List.replicate 6 (.apply, 0)
    ++ (.read (burst n), 0)
    :: List.replicate 80 (.apply, 0)
    ++ List.replicate 70 (.serve none, 0)
    ++ List.replicate 10 (.apply, 0)

/-- With the two calls alone the service fills the channel of the commands and
waits, but the driver does not. -/
theorem no_deadlock_twoCalls : ∃ h s, Run step fileServer h s
      ∧ Throughout (fun _ call => call.before.ReadFits call.input.1) h
      ∧ s.serviceBlocked = true ∧ ¬ s.Deadlocked := by
  have hrun := run_exec step fileServer (schedule 2)
  have hfits : Throughout (fun _ call => call.before.ReadFits call.input.1)
      (exec step fileServer (schedule 2)).1 := by
    decide +kernel
  have hblocked : (exec step fileServer (schedule 2)).2.serviceBlocked = true := by
    decide +kernel
  generalize exec step fileServer (schedule 2) = e at hrun hfits hblocked
  exact ⟨e.1, e.2, hrun, hfits, hblocked, no_deadlock hrun hfits⟩

/-- **With 33 more I-frames in the same read both tasks wait**, and they do so
for ever. -/
theorem deadlock_reachable : ∃ h s, Run step fileServer h s ∧ s.Deadlocked
      ∧ ∀ g t, Run step s g t → t.Deadlocked := by
  have hdead : (exec step fileServer (schedule 35)).2.Deadlocked := by
    decide +kernel
  exact ⟨_, _, run_exec step fileServer (schedule 35), hdead,
    fun g t r => deadlocked_of_run hdead r⟩

end Endpoint
