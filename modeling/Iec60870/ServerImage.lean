import Iec60870.ServerDaemon

/-!
# The process image of a running server

Values come into the process image from three places: from `PointEntry::new`, from `Set`
requests and from the simulator. The encoder and the deadband evaluator read them by the
kind of their point and say of a value of another variant that this should not happen.
Nothing prevents it. `handle_set` does not look at the variant of the value it is given,
nor does `handle_sim_set` at what the schedule would make of the point.

`image_wellTyped_iff` says what the clients of the control socket have to see to
themselves. The daemon stays well typed exactly as long as every `Set` request has a
value of the variant of its point, and every point that ticks has a schedule that fits
it. That all points are encoded, and are part of the answer to a general interrogation,
does not depend on it (`reported_of_get`).

The operands of a simulator step come from the same requests, and `installed_step_iff`
says for which of them it returns.
-/

open Iec60870 Deadband FileTransfer Machine Points ProcessImage

namespace Server

variable {F32 F64 : Type} {fp : PointArith F32 F64} {d : Daemon F32 F64}

/-! ## Schedules that are installed -/

/-- **A `SimSet` request can install the schedule**: a daemon answers it without an error
and has it then. -/
def Installable (F64 : Type) (schedule : SimSchedule F32) : Prop :=
  ∃ (s s' : DaemonState F32 F64) (ioa : UInt32) (entry : PointEntry F32),
    handleSimSet s ioa schedule = (s', .ok)
      ∧ s'.image.get ioa = some entry ∧ entry.schedule = schedule

/-- **A step of the simulator is as it should be**: it returns, and a step up that wraps at
an `i16` makes a scaled value below the number it wraps at, congruent to the sum. -/
structure SoundStep (fp : PointArith F32 F64) (schedule : SimSchedule F32)
    (current : Option (PointValue F32)) (ticks : UInt64) : Prop where
  returns : ∀ heads, ∃ next, advanceValue fp heads schedule current ticks = .ok next
  wraps : ∀ heads interval step wrapAt, schedule = .stepUp interval step wrapAt →
    1 ≤ wrapAt.toInt → wrapAt.toInt ≤ 32767 →
    ∃ r : Int16, advanceValue fp heads schedule current ticks = .ok (some (.scaled r))
      ∧ 0 ≤ r.toInt ∧ r.toInt < wrapAt.toInt
      ∧ r.toInt ≡ (stepFrom current).toInt + step.toInt [ZMOD wrapAt.toInt]

/-- **A schedule that was installed steps as it should if and only if it is safe** from
the current value: the bounds of a random walk are in order; the sum of a step up is an
`i32`, and it does not wrap at zero, nor at `-1` from the least `i32`. -/
theorem installed_step_iff {schedule : SimSchedule F32} (_ : Installable F64 schedule)
    (current : Option (PointValue F32)) (ticks : UInt64) :
    SoundStep fp schedule current ticks ↔ schedule.Safe fp current := by
  constructor
  · intro h
    exact advanceValue_isOk_iff.mp (h.returns false)
  · intro h
    refine ⟨fun heads => advanceValue_isOk_iff.mpr h, ?_⟩
    rintro heads interval step wrapAt rfl hpos hwrap
    exact advanceValue_stepUp_wraps h hpos hwrap

/-- A daemon with one point, for examples. -/
def onePoint (kind : PointKind) (schedule : SimSchedule ExtRat) :
    DaemonState ExtRat ExtRat :=
  { image := ProcessImage.new.insert 100 (.new Exact.arith kind schedule)
    tracker := .new
    peers := [1]
    nodup := by decide
    outstationTx := false
    coa := ⟨1⟩ }

/-- Every schedule can be installed: the point at the address takes it as it is. -/
theorem installable_onePoint (schedule : SimSchedule ExtRat) : Installable ExtRat schedule :=
  ⟨onePoint .meNb .none, _, 100, _, rfl, get_insert _, rfl⟩

/-- A counter that wraps at a hundred. -/
theorem installed_step_hundred :
    Installable ExtRat (.stepUp 2000 1 100 : SimSchedule ExtRat)
      ∧ SoundStep Exact.arith (.stepUp 2000 1 100) (some (.scaled 99)) 7 :=
  ⟨installable_onePoint _,
    (installed_step_iff (installable_onePoint _) _ _).mpr (by
      refine ⟨?_, ?_, ?_⟩ <;> decide)⟩

/-- **A counter that wraps at zero panics** at its first tick, whatever its value is. -/
theorem installed_step_zero :
    ¬ ∀ schedule : SimSchedule ExtRat, Installable ExtRat schedule →
      ∀ current ticks, SoundStep Exact.arith schedule current ticks := by
  intro h
  have hstep := h (.stepUp 2000 1 0) (installable_onePoint _) (some (.scaled 0)) 1
  obtain ⟨next, hnext⟩ := hstep.returns false
  cases hnext

/-! ## What an interrogation reports -/

section Interrogation

variable (fp) (clock : UInt32 → SystemTime) (cot : Cot)
  {p : DaemonState F32 F64 × List Bytes} {bytes : Bytes} {ioa : UInt32} {entry : PointEntry F32}

theorem reportPoint_image (p : DaemonState F32 F64 × List Bytes) (ioa : UInt32) :
    (reportPoint fp clock cot p ioa).1.image = p.1.image
      ∧ (reportPoint fp clock cot p ioa).1.coa = p.1.coa := by
  unfold reportPoint
  cases p.1.image.get ioa <;> exact ⟨rfl, rfl⟩

theorem mem_reportPoint (h : bytes ∈ p.2) (ioa : UInt32) :
    bytes ∈ (reportPoint fp clock cot p ioa).2 := by
  unfold reportPoint
  cases p.1.image.get ioa with
  | none => exact h
  | some entry => exact List.mem_append_left _ h

theorem mem_foldl_reportPoint (h : bytes ∈ p.2) (ioas : List UInt32) :
    bytes ∈ (ioas.foldl (reportPoint fp clock cot) p).2 := by
  induction ioas generalizing p with
  | nil => exact h
  | cons ioa ioas ih => exact ih (mem_reportPoint fp clock cot h ioa)

/-- **The points of the addresses are sent.** -/
theorem mem_foldl_of_get {ioas : List UInt32} (hioa : ioa ∈ ioas)
    (hget : p.1.image.get ioa = some entry)
    (hbytes : encodePoint fp (clock ioa) ioa entry cot p.1.coa = some bytes) :
    bytes ∈ (ioas.foldl (reportPoint fp clock cot) p).2 := by
  induction ioas generalizing p with
  | nil => cases hioa
  | cons other ioas ih =>
    rw [List.foldl_cons]
    obtain rfl | hioa := List.mem_cons.mp hioa
    · refine mem_foldl_reportPoint fp clock cot ?_ ioas
      rw [reportPoint, hget]
      dsimp only
      rw [hbytes]
      exact List.mem_append_right _ (List.mem_singleton_self bytes)
    · obtain ⟨himage, hcoa⟩ := reportPoint_image fp clock cot p other
      refine ih hioa ?_ ?_
      · rw [himage]
        exact hget
      · rw [hcoa]
        exact hbytes

/-- **A general interrogation reports every point**, well typed or not. -/
theorem reported_of_get {s : DaemonState F32 F64} (hget : s.image.get ioa = some entry) :
    ∃ bytes, encodePoint fp (clock ioa) ioa entry (.of .interrogatedGeneral) s.coa = some bytes
      ∧ bytes ∈ (respondInterrogationGeneral fp clock s).2 := by
  obtain ⟨bytes, hbytes⟩ := Option.isSome_iff_exists.mp
    (isSome_encodePoint fp (clock ioa) ioa entry (.of .interrogatedGeneral) s.coa)
  refine ⟨bytes, hbytes, List.mem_append_left _ ?_⟩
  exact mem_foldl_of_get fp clock _ (mem_sortedIoas.mpr ⟨entry, hget⟩) hget hbytes

end Interrogation

/-! ## The image of a run -/

/-- **The daemon is in order**: every value is of the variant of its point, every point
can be encoded, and a general interrogation reports all of them. -/
structure InOrder (fp : PointArith F32 F64) (d : Daemon F32 F64) : Prop where
  wellTyped : d.state.image.All PointEntry.WellTyped
  encoded : d.state.image.All fun entry =>
    ∀ now ioa cot ca, (encodePoint fp now ioa entry cot ca).isSome = true
  reported : ∀ clock ioa entry, d.state.image.get ioa = some entry →
    ∃ bytes, encodePoint fp (clock ioa) ioa entry (.of .interrogatedGeneral) d.state.coa
        = some bytes
      ∧ bytes ∈ (respondInterrogationGeneral fp clock d.state).2

/-- The values decide. -/
theorem inOrder_iff : InOrder fp d ↔ d.state.image.All PointEntry.WellTyped := by
  constructor
  · intro h
    exact h.wellTyped
  · intro h
    exact ⟨h, fun _ entry _ now ioa cot ca => isSome_encodePoint fp now ioa entry cot ca,
      fun clock _ _ hget => reported_of_get fp clock hget⟩

/-- What a write section has made of a point is in the image. -/
theorem Wrote.updated {now : SystemTime} {s s' : DaemonState F32 F64} {ioa : UInt32}
    {entry : PointEntry F32} {w : Written F32} (h : Wrote fp now s ioa entry s' w) :
    s.image.Updated s'.image ioa entry := by
  cases h with
  | noted himage | quiet himage | rejected himage => exact himage

/-- **A step keeps the values well typed if and only if its input keeps the
variants.** -/
theorem wellTyped_step_iff (h : d.state.image.All PointEntry.WellTyped) (i : Input F32 F64) :
    (step fp d i).1.state.image.All PointEntry.WellTyped ↔ i.Keeps fp d := by
  have hmoves := moves_step fp d i
  generalize (step fp d i).1 = d', (step fp d i).2 = actions at hmoves ⊢
  cases hmoves with
  | idle hkeeps hactions => exact iff_of_true h hkeeps
  | @wrote _ _ state written _ entry entry' task ioa now _ hget hwrote _ hkeeps _ =>
    rw [← hkeeps (h ioa entry hget)]
    constructor
    · intro hall
      exact hall ioa entry' hwrote.updated.self
    · intro hentry
      exact h.updated hentry hwrote.updated
  | @scheduled entry n ioa schedule hget =>
    have htyped : ({ entry with schedule } : PointEntry F32).WellTyped := h ioa entry hget
    exact iff_of_true (h.updated htyped (updated_insert _ _ _)) trivial
  | policed | locked | handed => exact iff_of_true h trivial

/-- The states of a run. -/
def states (h : List (Call (Daemon F32 F64) (Input F32 F64) (Action F32)))
    (d : Daemon F32 F64) : List (Daemon F32 F64) :=
  h.map Call.before ++ [d]

/-- **The image of a run stays well typed exactly as long as its inputs keep the
variants.** The daemon starts with points that `PointEntry::new` has made; after every
sequence of requests, ticks and broadcasts, all its states are in order if and only if
each `Set` request had a value of the variant of its point, and each tick a schedule that
fits its point. -/
theorem image_wellTyped_iff {state : DaemonState F32 F64}
    (hnew : state.image.All fun entry => ∃ kind schedule, entry = .new fp kind schedule)
    {h : List (Call (Daemon F32 F64) (Input F32 F64) (Action F32))} {d : Daemon F32 F64}
    (r : Run (step fp) (.start state) h d) : (∀ s ∈ states h d, InOrder fp s)
      ↔ Throughout (fun _ k => k.input.Keeps fp k.before) h := by
  induction r with
  | nil =>
    refine iff_of_true (fun s hs => inOrder_iff.mpr ?_) (throughout_nil _)
    rw [List.mem_singleton.mp hs]
    intro ioa entry hget
    obtain ⟨kind, schedule, rfl⟩ := hnew ioa entry hget
    exact PointEntry.wellTyped_new fp kind schedule
  | @snoc h d r i ih =>
    rw [throughout_snoc, ← ih]
    have hstates : states (h ++ [call (step fp) d i]) (step fp d i).1
        = states h d ++ [(step fp d i).1] := by
      unfold states
      rw [List.map_append]
      rfl
    rw [hstates]
    constructor
    · intro hall
      have hbefore : ∀ s ∈ states h d, InOrder fp s :=
        fun s hs => hall s (List.mem_append_left _ hs)
      have hd := hbefore d (List.mem_append_right _ (List.mem_singleton_self d))
      have hafter := hall _ (List.mem_append_right _ (List.mem_singleton_self _))
      exact ⟨hbefore, (wellTyped_step_iff hd.wellTyped i).mp hafter.wellTyped⟩
    · rintro ⟨hbefore, hkeeps⟩ s hs
      obtain hs | hs := List.mem_append.mp hs
      · exact hbefore s hs
      · rw [List.mem_singleton.mp hs]
        have hd := hbefore d (List.mem_append_right _ (List.mem_singleton_self d))
        exact inOrder_iff.mpr ((wellTyped_step_iff hd.wellTyped i).mpr hkeeps)

/-- The point of the example is new. -/
theorem all_new_onePoint (kind : PointKind) (schedule : SimSchedule ExtRat) :
    (onePoint kind schedule).image.All
      fun entry => ∃ kind schedule, entry = .new Exact.arith kind schedule :=
  all_new.updated ⟨kind, schedule, rfl⟩ (updated_insert _ _ _)

/-- A single point is switched on by a request. -/
theorem image_wellTyped_switched :
    let e := exec (step Exact.arith) (.start (onePoint .spNa (.toggle 5000 0)))
      [.set 0 100 (.single true) none .unixEpoch]
    ∀ s ∈ states e.1 e.2, InOrder Exact.arith s := by
  intro e
  refine (image_wellTyped_iff (all_new_onePoint _ _) (run_exec _ _ _)).mpr ?_
  refine (throughout_snoc [] _).mpr ⟨throughout_nil _, fun _ entry hget => ?_⟩
  obtain rfl := Option.some.inj ((ProcessImage.get_insert _).symm.trans hget)
  rfl

/-- **A single point is set to a number**: the request is answered without an error, and
the image has a value that the point cannot have. -/
theorem image_illTyped_number :
    let e := exec (step Exact.arith) (.start (onePoint .spNa (.toggle 5000 0)))
      [.set 0 100 (.float (.fin 1)) none .unixEpoch, .lock (.connection 0),
        .send (.connection 0) (.peer 1)]
    (e.1.getLast?.bind fun k => k.actions.getLast?) = some (.answered 0 .ok)
      ∧ ¬ ∀ state : DaemonState ExtRat ExtRat,
        (state.image.All
          fun entry => ∃ kind schedule, entry = .new Exact.arith kind schedule) →
        ∀ h d, Run (step Exact.arith) (.start state) h d →
          ∀ s ∈ states h d, InOrder Exact.arith s := by
  intro e
  refine ⟨by decide +kernel, fun hall => ?_⟩
  have hlast := hall _ (all_new_onePoint _ _) e.1 e.2 (run_exec _ _ _) _
    (List.mem_append_right _ (List.mem_singleton_self _))
  have htyped := hlast.wellTyped 100 ⟨.spNa, .float (.fin 1), {}, .toggle 5000 0⟩
    (by decide +kernel)
  cases htyped

end Server
