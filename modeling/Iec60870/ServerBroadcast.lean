import Iec60870.Overtaking
import Iec60870.ServerImage

/-!
# What the peers of the server end up with

An operation updates the baseline of its point under the write lock and broadcasts the
encoded point under the read lock, which it takes anew. Between the two, another
operation on the point can do both: then the peers get the older value last, and the
baseline, which the deadband evaluator takes for what they have, is the newer one.

For one point and one destination, the updates of the baseline are the items of
`Overtaking`, the reports handed to the destination are the deliveries, and the reports
in flight that it has still to get are under way (`trace_run`). So `delivered_iff` can say
exactly when the destinations end up with the baseline: if and only if no report was
handed to one of them while it had an older one of the same point to wait for.
-/

open Iec60870 Deadband FileTransfer Machine Points Overtaking ProcessImage

namespace Server

variable {F32 F64 : Type} {fp : PointArith F32 F64}

/-- The history of a run. -/
abbrev History (F32 F64 : Type) := List (Call (Daemon F32 F64) (Input F32 F64) (Action F32))

/-! ## Updates, broadcasts, and what is under way -/

section Lists

variable (ioa : UInt32) (dest : Dest)

/-- The update of the baseline of the point that an action is, with the task. -/
def Action.update? : Action F32 → Option (Task × Baseline F32)
  | .noted task ioa' sample => if ioa' = ioa then some (task, sample) else none
  | _ => none

/-- The report of the point that an action hands to the destination, with the task. -/
def Action.broadcast? : Action F32 → Option (Task × Baseline F32)
  | .sent dest' task report =>
    if dest' = dest ∧ report.ioa = ioa then some (task, report.sample) else none
  | _ => none

/-- **The updates of the baseline of a point**, in their order. -/
def updates (h : History F32 F64) : List (Task × Baseline F32) :=
  (h.flatMap Call.actions).filterMap (Action.update? ioa)

/-- **What was broadcast of a point to a destination**, in this order. -/
def broadcasts (h : History F32 F64) : List (Task × Baseline F32) :=
  (h.flatMap Call.actions).filterMap (Action.broadcast? ioa dest)

/-- The report that an operation on the point has still to hand to the destination. -/
def Op.owed (dests : List Dest) (op : Op F32) : Option (Task × Baseline F32) :=
  if op.report.ioa = ioa ∧ dest ∈ op.todo.getD dests then some (op.task, op.report.sample)
  else none

/-- **What is under way** to a destination, of one point. -/
def pending (d : Daemon F32 F64) : List (Task × Baseline F32) :=
  d.flight.filterMap (Op.owed ioa dest d.state.destinations)

/-- **A report overtakes another one**: it is handed to the destination, and an operation
whose write section was earlier has still a report of the same point for it. -/
def Input.overtakes (d : Daemon F32 F64) : Input F32 F64 → Bool
  | .send task dest' =>
    dest' == dest
      && (d.op? task).any (fun op => op.report.ioa == ioa && (op.todo.getD []).contains dest)
      && (d.flight.takeWhile fun op => op.task != task).any fun older =>
        (older.owed ioa dest d.state.destinations).isSome
  | _ => false

theorem updates_snoc (h : History F32 F64)
    (k : Call (Daemon F32 F64) (Input F32 F64) (Action F32)) :
    updates ioa (h ++ [k]) = updates ioa h ++ k.actions.filterMap (Action.update? ioa) := by
  rw [updates, List.flatMap_append, List.filterMap_append, List.flatMap_singleton]
  rfl

theorem broadcasts_snoc (h : History F32 F64)
    (k : Call (Daemon F32 F64) (Input F32 F64) (Action F32)) :
    broadcasts ioa dest (h ++ [k])
      = broadcasts ioa dest h ++ k.actions.filterMap (Action.broadcast? ioa dest) := by
  rw [broadcasts, List.flatMap_append, List.filterMap_append, List.flatMap_singleton]
  rfl

variable {ioa dest}

/-- An answer is neither an update nor a broadcast. -/
theorem filterMap_answers {β : Type} {f : Action F32 → Option β}
    (hf : ∀ n response, f (.answered n response) = none) {actions : List (Action F32)}
    (h : actions.all Action.isAnswer = true) : actions.filterMap f = [] := by
  rw [List.filterMap_eq_nil_iff]
  intro a ha
  have hanswer := List.all_eq_true.mp h a ha
  cases a with
  | answered n response => exact hf n response
  | noted | sent => cases hanswer

theorem all_isAnswer_opAnswer (op : Op F32) (dests : List Dest) :
    (op.answer dests).all Action.isAnswer = true := by
  unfold Op.answer
  cases op.task with
  | connection n =>
    dsimp only
    by_cases h : dests = []
    · rw [if_pos h]
      rfl
    · rw [if_neg h]
      rfl
  | ticker ioa => rfl

end Lists

/-! ## Operations in flight -/

/-- **The operations in flight are in order**: one for each task, and each has its report
to hand to different destinations. -/
structure FlightOk (d : Daemon F32 F64) : Prop where
  tasks : (d.flight.map Op.task).Nodup
  todo : ∀ op ∈ d.flight, ∀ dests, op.todo = some dests → dests.Nodup

section Flight

variable {d : Daemon F32 F64} {task : Task} {op : Op F32} {dests : List Dest}
  {older younger : List (Op F32)}

/-- **The place of an operation in flight**: between the older and the younger ones, and
these are of other tasks. -/
structure Daemon.Split (d : Daemon F32 F64) (op : Op F32) (older younger : List (Op F32)) :
    Prop where
  flight : d.flight = older ++ op :: younger
  older : ∀ o ∈ older, o.task ≠ op.task
  younger : ∀ o ∈ younger, o.task ≠ op.task

theorem FlightOk.split (h : FlightOk d) (hop : d.op? task = some op) :
    op.task = task ∧ ∃ older younger, d.Split op older younger := by
  obtain ⟨htask, older, younger, hflight, holder⟩ := List.find?_eq_some_iff_append.mp hop
  obtain rfl : op.task = task := beq_iff_eq.mp htask
  refine ⟨rfl, older, younger, hflight, fun o ho => ?_, fun o ho heq => ?_⟩
  · simpa using holder o ho
  · have hnodup := h.tasks
    rw [hflight, List.map_append, List.map_cons, List.nodup_append] at hnodup
    exact (List.nodup_cons.mp hnodup.2.1).1 (List.mem_map.mpr ⟨o, ho, heq⟩)

/-- Replacing the operation leaves the others. -/
theorem put_flight (h : d.Split op older younger) (new : Option (Op F32)) :
    (d.put op.task new).flight = older ++ (new.toList ++ younger) := by
  have hsame (l : List (Op F32)) (hl : ∀ o ∈ l, o.task ≠ op.task) :
      l.filterMap (fun o => if o.task = op.task then new else some o) = l :=
    (List.filterMap_congr fun o ho => if_neg (hl o ho)).trans List.filterMap_some
  show d.flight.filterMap _ = _
  rw [h.flight, List.filterMap_append, hsame older h.older, filterMap_cons_toList,
    hsame younger h.younger, if_pos rfl]

/-- The operation that is left is one of the same task, with the destinations that it was
left. -/
theorem of_mem_left {o : Op F32} (h : o ∈ (op.left dests).toList) :
    o.task = op.task ∧ o.todo = some dests := by
  unfold Op.left at h
  by_cases hnil : dests = []
  · rw [if_pos hnil] at h
    cases h
  · rw [if_neg hnil] at h
    obtain rfl := List.mem_singleton.mp h
    exact ⟨rfl, rfl⟩

/-- A broadcast that goes on keeps the operations in order. -/
theorem FlightOk.put (h : FlightOk d) (hop : d.op? task = some op)
    (hdests : dests.Nodup) : FlightOk (d.put task (op.left dests)) := by
  obtain ⟨rfl, older, younger, hsplit⟩ := h.split hop
  have hflight := hsplit.flight
  have hput := put_flight hsplit (op.left dests)
  constructor
  · have hsub : ((op.left dests).toList.map Op.task).Sublist [op.task] := by
      unfold Op.left
      by_cases hnil : dests = []
      · rw [if_pos hnil]
        exact List.nil_sublist _
      · rw [if_neg hnil]
        exact List.Sublist.refl _
    have hnodup := h.tasks
    rw [hflight, List.map_append, List.map_cons] at hnodup
    rw [hput, List.map_append, List.map_append]
    exact hnodup.sublist ((List.Sublist.refl _).append (hsub.append (List.Sublist.refl _)))
  · intro o ho ds hds
    rw [hput, List.mem_append, List.mem_append] at ho
    obtain ho | ho | ho := ho
    · exact h.todo o (hflight ▸ List.mem_append_left _ ho) ds hds
    · obtain ⟨-, htodo⟩ := of_mem_left ho
      rw [htodo] at hds
      cases hds
      exact hdests
    · exact h.todo o (hflight ▸ List.mem_append_right _ (List.mem_cons_of_mem _ ho)) ds hds

/-- A write section adds an operation of a task that had none. -/
theorem FlightOk.wrote (h : FlightOk d) (hfree : d.free task = true) (written : Written F32)
    (state : DaemonState F32 F64) (tickers : AList fun _ : UInt32 => UInt64) :
    FlightOk ({ state, tickers, flight := d.flight ++ written.op task } : Daemon F32 F64) := by
  unfold Written.op
  cases written.report with
  | none =>
    rw [Option.toList_none, List.map_nil, List.append_nil]
    exact ⟨h.tasks, h.todo⟩
  | some report =>
    have hother (o : Op F32) (ho : o ∈ d.flight) : o.task ≠ task := by
      have hall := List.all_eq_true.mp hfree o ho
      rw [Bool.and_eq_true, bne_iff_ne] at hall
      exact hall.2
    constructor
    · show ((d.flight ++ [(⟨task, report, none⟩ : Op F32)]).map Op.task).Nodup
      rw [List.map_append, List.nodup_append]
      refine ⟨h.tasks, List.nodup_singleton task, fun a ha b hb => ?_⟩
      obtain ⟨o, ho, rfl⟩ := List.mem_map.mp ha
      rw [List.mem_singleton.mp hb]
      exact hother o ho
    · intro o ho dests hdests
      obtain ho | ho := List.mem_append.mp ho
      · exact h.todo o ho dests hdests
      · rw [List.mem_singleton.mp ho] at hdests
        cases hdests

/-- **The operations in flight stay in order.** -/
theorem FlightOk.step (h : FlightOk d) (i : Input F32 F64) : FlightOk (Server.step fp d i).1 := by
  have hmoves := moves_step fp d i
  generalize (Server.step fp d i).1 = d', (Server.step fp d i).2 = actions at hmoves ⊢
  cases hmoves with
  | idle | scheduled | policed => exact ⟨h.tasks, h.todo⟩
  | wrote task ioa now hfree hget hwrote hkind hkeeps hanswers => exact h.wrote hfree _ _ _
  | locked task hop htodo => exact h.put hop d.state.nodup_destinations
  | handed task dest hop htodo hdest =>
    have hmem := List.mem_of_find?_eq_some hop
    exact h.put hop ((h.todo _ hmem _ htodo).erase dest)

/-- Where a broadcast goes does not change. -/
theorem destinations_step (i : Input F32 F64) :
    (Server.step fp d i).1.state.destinations = d.state.destinations := by
  have hmoves := moves_step fp d i
  generalize (Server.step fp d i).1 = d', (Server.step fp d i).2 = actions at hmoves ⊢
  cases hmoves with
  | wrote task ioa now hfree hget hwrote hkind hkeeps hanswers => cases hwrote <;> rfl
  | _ => rfl

end Flight

/-! ## One destination and one point -/

section Trace

variable {d : Daemon F32 F64} {ioa : UInt32} {dest : Dest} {task : Task} {op : Op F32}
  {older younger : List (Op F32)} {other : UInt32} {i : Input F32 F64}
  {state : DaemonState F32 F64} {written : Written F32}

theorem task_of_owed {op : Op F32} {dests : List Dest} {p : Task × Baseline F32}
    (h : op.owed ioa dest dests = some p) : op.task = p.1 := by
  unfold Op.owed at h
  split_ifs at h
  cases h
  rfl

/-- What is owed by the operation that is left. -/
theorem filterMap_owed_left (op : Op F32) (all dests : List Dest) :
    (op.left dests).toList.filterMap (Op.owed ioa dest all)
      = (if op.report.ioa = ioa ∧ dest ∈ dests then some (op.task, op.report.sample)
          else none).toList := by
  unfold Op.left
  by_cases hnil : dests = []
  · subst hnil
    rw [if_pos rfl, if_neg fun h => List.not_mem_nil h.2]
    rfl
  · rw [if_neg hnil, Option.toList_some, filterMap_singleton]
    rfl

/-- **What is under way after a broadcast went on**, by the place of the operation. -/
theorem pending_put (h : d.Split op older younger) (dests : List Dest) :
    pending ioa dest (d.put op.task (op.left dests))
      = older.filterMap (Op.owed ioa dest d.state.destinations)
        ++ ((if op.report.ioa = ioa ∧ dest ∈ dests then some (op.task, op.report.sample)
              else none).toList
          ++ younger.filterMap (Op.owed ioa dest d.state.destinations)) := by
  show (d.put op.task (op.left dests)).flight.filterMap _ = _
  rw [put_flight h, List.filterMap_append, List.filterMap_append, filterMap_owed_left]
  rfl

theorem pending_of_split (h : d.Split op older younger) : pending ioa dest d
      = older.filterMap (Op.owed ioa dest d.state.destinations)
        ++ ((op.owed ioa dest d.state.destinations).toList
          ++ younger.filterMap (Op.owed ioa dest d.state.destinations)) := by
  rw [pending, h.flight, List.filterMap_append, filterMap_cons_toList]

/-- The operations in front of the one of a task, up to which overtaking looks. -/
theorem takeWhile_older (h : d.Split op older younger) :
    d.flight.takeWhile (fun o => o.task != op.task) = older := by
  rw [h.flight, List.takeWhile_append_of_pos fun o ho => bne_iff_ne.mpr (h.older o ho),
    List.takeWhile_cons, if_neg (by simp), List.append_nil]

theorem any_owed (l : List (Op F32)) (dests : List Dest) :
    (l.any fun o => (o.owed ioa dest dests).isSome)
      = !(l.filterMap (Op.owed ioa dest dests)).isEmpty := by
  induction l with
  | nil => rfl
  | cons o l ih =>
    rw [List.any_cons, ih, filterMap_cons_toList]
    cases o.owed ioa dest dests <;> rfl

/-- **The evaluator knows a point by its kind**, in a well-typed image. -/
structure Known (ioa : UInt32) (d : Daemon F32 F64) : Prop where
  typed : d.state.image.All PointEntry.WellTyped
  kind : ∀ entry baseline, d.state.image.get ioa = some entry →
    d.state.tracker.baselines ⟨ioa⟩ = some baseline →
    baseline.value.kind = entry.kind.valueKind

/-- A write section on another point does not touch the baseline. -/
theorem baselines_insert_of_ne {t : DeadbandTracker F32 F64}
    (h : ioa ≠ other) (sample : Baseline F32) :
    (t.insert ⟨other⟩ sample).baselines ⟨ioa⟩ = t.baselines ⟨ioa⟩ :=
  Function.update_of_ne (fun heq => h (congrArg Ioa.raw heq)) _ _

theorem Known.step (h : Known ioa d) (hkeeps : i.Keeps fp d) :
    Known ioa (Server.step fp d i).1 := by
  have htyped := (wellTyped_step_iff h.typed i).mpr hkeeps
  refine ⟨htyped, ?_⟩
  have hmoves := moves_step fp d i
  generalize (Server.step fp d i).1 = d', (Server.step fp d i).2 = actions at hmoves htyped ⊢
  cases hmoves with
  | idle | policed | locked | handed => exact h.kind
  | @wrote _ _ state written _ entry entry' task other now _ hget hwrote hkind _ _ =>
    intro e baseline he hb
    by_cases hioa : ioa = other
    · subst hioa
      have hupdated := hwrote.updated
      rw [hupdated.self] at he
      obtain rfl := Option.some.inj he
      cases hwrote with
      | noted himage =>
        have hsample : some (sampleOf entry') = some baseline :=
          (Function.update_self (Ioa.mk ioa) _ _).symm.trans hb
        obtain rfl := Option.some.inj hsample
        exact (htyped ioa entry' himage.self).kind_monitored
      | quiet | rejected =>
        rw [hkind]
        exact h.kind entry baseline hget hb
    · rw [hwrote.updated.others ioa hioa] at he
      refine h.kind e baseline he ?_
      cases hwrote with
      | noted himage => exact (baselines_insert_of_ne hioa _).symm.trans hb
      | quiet | rejected => exact hb
  | @scheduled entry n other schedule hget =>
    intro e baseline he hb
    by_cases hioa : ioa = other
    · subst hioa
      have hentry := (get_insert _).symm.trans he
      obtain rfl := Option.some.inj hentry
      exact h.kind entry baseline hget hb
    · refine h.kind e baseline ?_ hb
      exact (get_insert_of_ne hioa _).symm.trans he

/-- Every point has a report. -/
theorem exists_report (fp : PointArith F32 F64) (now : SystemTime) (s : DaemonState F32 F64)
    (other : UInt32) (entry : PointEntry F32) :
    ∃ bytes, report fp now s other entry = some ⟨other, sampleOf entry, bytes⟩ := by
  obtain ⟨bytes, hbytes⟩ := Option.isSome_iff_exists.mp
    (isSome_encodePoint fp now other entry (.of .spontaneous) s.coa)
  refine ⟨bytes, ?_⟩
  rw [report, hbytes]
  rfl

/-- A new operation owes its report to every destination. -/
theorem pending_wrote
    {tickers : AList fun _ : UInt32 => UInt64} (hstate : state.destinations = d.state.destinations)
    (hdest : dest ∈ d.state.destinations) (task : Task) (r : Report F32) :
    pending ioa dest ({ state, tickers, flight := d.flight ++ [⟨task, r, none⟩] } : Daemon F32 F64)
      = pending ioa dest d ++ (if r.ioa = ioa then some (task, r.sample) else none).toList := by
  show (d.flight ++ [(⟨task, r, none⟩ : Op F32)]).filterMap
    (Op.owed ioa dest state.destinations) = _
  rw [hstate, List.filterMap_append, filterMap_singleton]
  have howed : Op.owed ioa dest d.state.destinations ⟨task, r, none⟩
      = if r.ioa = ioa then some (task, r.sample) else none := by
    unfold Op.owed
    dsimp only [Option.getD_none]
    by_cases hioa : r.ioa = ioa
    · rw [if_pos ⟨hioa, hdest⟩, if_pos hioa]
    · rw [if_neg fun h => hioa h.1, if_neg hioa]
  rw [howed]
  rfl

/-- What one write section does to the three lists. -/
theorem overtaking_wrote (hknown : Known ioa d) (hdest : dest ∈ d.state.destinations)
    {entry entry' : PointEntry F32} {now : SystemTime}
    (tickers : AList fun _ : UInt32 => UInt64)
    (hget : d.state.image.get other = some entry)
    (hwrote : Wrote fp now d.state other entry' state written)
    (hkind : entry'.kind = entry.kind) (htyped : entry'.WellTyped)
    (made delivered : List (Task × Baseline F32)) :
    Overtaking.Step ⟨made, delivered, pending ioa dest d⟩ false
      ⟨made ++ (written.actions task other).filterMap (Action.update? ioa), delivered,
        pending ioa dest { state, tickers, flight := d.flight ++ written.op task }⟩ := by
  cases hwrote with
  | noted himage =>
    obtain ⟨bytes, hreport⟩ := exists_report fp now d.state other entry'
    rw [hreport]
    show Overtaking.Step _ _ ⟨made ++ [Action.noted task other _].filterMap _, delivered,
      pending ioa dest { state := _, tickers, flight := d.flight ++ [⟨task, _, none⟩] }⟩
    rw [filterMap_singleton, pending_wrote (by rfl) hdest]
    dsimp only [Action.update?]
    by_cases hioa : other = ioa
    · rw [if_pos hioa]
      exact .make _ _
    · rw [if_neg hioa, Option.toList_none, List.append_nil, List.append_nil]
      exact .rest _
  | quiet himage =>
    rw [Written.actions_nothing, Written.op_nothing, List.filterMap_nil, List.append_nil,
      List.append_nil]
    exact .rest _
  | rejected himage baseline hb hk =>
    -- of the kind of the point, the evaluator rejects no sample of it
    have hioa : other ≠ ioa := by
      rintro rfl
      refine hk ?_
      rw [hknown.kind entry baseline hget hb, ← hkind]
      exact htyped.kind_monitored.symm
    obtain ⟨bytes, hreport⟩ := exists_report fp now d.state other entry'
    rw [hreport]
    show Overtaking.Step _ _ ⟨made ++ [].filterMap _, delivered,
      pending ioa dest { state := _, tickers, flight := d.flight ++ [⟨task, _, none⟩] }⟩
    rw [List.filterMap_nil, List.append_nil, pending_wrote (by rfl) hdest, if_neg hioa,
      Option.toList_none, List.append_nil]
    exact .rest _

/-- What one report that is handed over does to the three lists. -/
theorem overtaking_handed (hflight : FlightOk d) {dest' : Dest} {dests : List Dest}
    (hop : d.op? task = some op) (htodo : op.todo = some dests)
    (hdest' : dest' ∈ dests) (made delivered : List (Task × Baseline F32)) :
    Overtaking.Step ⟨made, delivered, pending ioa dest d⟩
      ((Input.send task dest' : Input F32 F64).overtakes ioa dest d)
      ⟨made, delivered ++ (Action.broadcast? ioa dest (.sent dest' task op.report)).toList,
        pending ioa dest (d.put task (op.left (dests.erase dest')))⟩ := by
  obtain ⟨rfl, older, younger, hsplit⟩ := hflight.split hop
  have hnodup := hflight.todo op (List.mem_of_find?_eq_some hop) dests htodo
  have howed : op.owed ioa dest d.state.destinations
      = if op.report.ioa = ioa ∧ dest ∈ dests then some (op.task, op.report.sample)
        else none := by
    rw [Op.owed, htodo]
    rfl
  rw [pending_put hsplit, pending_of_split hsplit, howed]
  unfold Action.broadcast? Input.overtakes
  dsimp only
  rw [hop, takeWhile_older hsplit, any_owed, Option.any_some, htodo, Option.getD_some]
  by_cases hthis : dest' = dest ∧ op.report.ioa = ioa
  · obtain ⟨rfl, hioa⟩ := hthis
    have hgone : ¬(op.report.ioa = ioa ∧ dest' ∈ dests.erase dest') :=
      fun h => hnodup.not_mem_erase h.2
    have howes : op.report.ioa = ioa ∧ dest' ∈ dests := ⟨hioa, hdest'⟩
    have hhanded : dest' = dest' ∧ op.report.ioa = ioa := ⟨rfl, hioa⟩
    rw [if_neg hgone, if_pos howes, if_pos hhanded, beq_self_eq_true,
      beq_iff_eq.mpr hioa, List.contains_iff_mem.mpr hdest', Bool.true_and, Bool.true_and,
      Bool.true_and]
    -- its task has no other operation
    refine .deliver _ _ _ _ _ fun hmem => ?_
    obtain ⟨o, ho, howed⟩ := List.mem_filterMap.mp hmem
    exact hsplit.older o ho (task_of_owed howed)
  · have hsame : (op.report.ioa = ioa ∧ dest ∈ dests.erase dest')
        ↔ (op.report.ioa = ioa ∧ dest ∈ dests) := by
      refine and_congr_right fun hioa => ?_
      exact List.mem_erase_of_ne fun heq => hthis ⟨heq.symm, hioa⟩
    have hquiet : (dest' == dest && (op.report.ioa == ioa && dests.contains dest)) = false := by
      by_contra h
      simp only [Bool.not_eq_false, Bool.and_eq_true, beq_iff_eq] at h
      exact hthis ⟨h.1, h.2.1⟩
    rw [if_neg hthis, hquiet, Bool.false_and, Option.toList_none, List.append_nil]
    simp only [hsame]
    exact .rest _

/-- A report that overtakes another one is handed over. -/
theorem sent_of_overtakes (h : i.overtakes ioa dest d = true) :
    ∃ task report, Action.sent dest task report ∈ (step fp d i).2 := by
  cases i with
  | send task dest' =>
    unfold Input.overtakes at h
    simp only [Bool.and_eq_true, beq_iff_eq, Option.any_eq_true] at h
    obtain ⟨⟨rfl, op, hop, -, hdest⟩, -⟩ := h
    refine ⟨task, op.report, ?_⟩
    cases htodo : op.todo with
    | none =>
      rw [htodo] at hdest
      cases hdest
    | some dests =>
      have hmem : dest' ∈ dests := by
        rw [htodo] at hdest
        exact List.contains_iff_mem.mp hdest
      simp [step, hop, htodo, hmem]
  | _ => cases h

/-- **One step of the daemon is a step of the deliveries** to a destination, of one
point. -/
theorem overtaking_step (hflight : FlightOk d) (hknown : Known ioa d)
    (hdest : dest ∈ d.state.destinations) (hkeeps : i.Keeps fp d)
    (made delivered : List (Task × Baseline F32)) :
    Overtaking.Step ⟨made, delivered, pending ioa dest d⟩ (i.overtakes ioa dest d)
      ⟨made ++ (step fp d i).2.filterMap (Action.update? ioa),
        delivered ++ (step fp d i).2.filterMap (Action.broadcast? ioa dest),
        pending ioa dest (step fp d i).1⟩ := by
  have hnot : (∀ task report, Action.sent dest task report ∉ (step fp d i).2) →
      i.overtakes ioa dest d = false := fun h =>
    Bool.eq_false_iff.mpr fun hover => (sent_of_overtakes hover).elim fun task hsent =>
      hsent.elim (h task)
  have hmoves := moves_step fp d i
  generalize (step fp d i).1 = d', (step fp d i).2 = actions at hmoves hnot ⊢
  have hanswers : ∀ actions : List (Action F32), actions.all Action.isAnswer = true →
      actions.filterMap (Action.update? ioa) = []
        ∧ actions.filterMap (Action.broadcast? ioa dest) = [] :=
    fun actions h => ⟨filterMap_answers (fun _ _ => rfl) h, filterMap_answers (fun _ _ => rfl) h⟩
  -- a step in which nothing is noted or handed over, and nothing else is under way
  have hrest : ∀ (d' : Daemon F32 F64) (actions : List (Action F32)),
      actions.all Action.isAnswer = true → pending ioa dest d' = pending ioa dest d →
      Overtaking.Step ⟨made, delivered, pending ioa dest d⟩ false
        ⟨made ++ actions.filterMap (Action.update? ioa),
          delivered ++ actions.filterMap (Action.broadcast? ioa dest), pending ioa dest d'⟩ := by
    intro d' actions hactions hpending
    rw [(hanswers actions hactions).1, (hanswers actions hactions).2, hpending,
      List.append_nil, List.append_nil]
    exact .rest _
  cases hmoves with
  | @idle i tickers actions hkeeps' hactions =>
    rw [hnot fun task report hmem => nomatch List.all_eq_true.mp hactions _ hmem]
    exact hrest _ _ hactions rfl
  | @wrote i _ state written answers entry entry' task other now _ hget hwrote hkind hk hans =>
    have hnone : ∀ task' report,
        Action.sent dest task' report ∉ written.actions task other ++ answers := by
      intro task' report hmem
      rcases List.mem_append.mp hmem with hmem | hmem
      · obtain ⟨sample, -, heq⟩ := List.mem_map.mp hmem
        cases heq
      · cases List.all_eq_true.mp hans _ hmem
    have hbroadcast : (written.actions task other).filterMap (Action.broadcast? ioa dest) = [] := by
      rw [List.filterMap_eq_nil_iff]
      intro a ha
      obtain ⟨sample, -, rfl⟩ := List.mem_map.mp ha
      rfl
    have htyped : entry'.WellTyped := (hk (hknown.typed other entry hget)).mpr hkeeps
    rw [hnot hnone, List.filterMap_append, List.filterMap_append, (hanswers answers hans).1,
      (hanswers answers hans).2, hbroadcast, List.append_nil, List.append_nil, List.append_nil]
    exact overtaking_wrote hknown hdest _ hget hwrote hkind htyped made delivered
  | scheduled | policed => exact hrest _ _ rfl rfl
  | @locked op task hop htodo =>
    have hpending : pending ioa dest (d.put task (op.left d.state.destinations))
        = pending ioa dest d := by
      obtain ⟨rfl, older, younger, hsplit⟩ := hflight.split hop
      rw [pending_put hsplit, pending_of_split hsplit, Op.owed, htodo]
      rfl
    exact hrest _ _ (all_isAnswer_opAnswer op _) hpending
  | @handed op dests task dest' hop htodo hdest' =>
    have hanswer := hanswers _ (all_isAnswer_opAnswer op (dests.erase dest'))
    have hupdate : Action.update? ioa (.sent dest' task op.report) = none := rfl
    rw [List.filterMap_cons_none hupdate, hanswer.1, List.append_nil, filterMap_cons_toList,
      hanswer.2, List.append_nil]
    exact overtaking_handed hflight hop htodo hdest' made delivered

/-- The baseline of the point stays the last one that was noted. -/
theorem baseline_step {made : List (Task × Baseline F32)}
    (h : d.state.tracker.baselines ⟨ioa⟩ = made.getLast?.map Prod.snd) :
    (step fp d i).1.state.tracker.baselines ⟨ioa⟩
      = (made ++ (step fp d i).2.filterMap (Action.update? ioa)).getLast?.map Prod.snd := by
  have hmoves := moves_step fp d i
  generalize (step fp d i).1 = d', (step fp d i).2 = actions at hmoves ⊢
  have hanswers : ∀ actions : List (Action F32), actions.all Action.isAnswer = true →
      made ++ actions.filterMap (Action.update? ioa) = made := by
    intro actions hactions
    rw [filterMap_answers (fun _ _ => rfl) hactions, List.append_nil]
  cases hmoves with
  | idle hkeeps hactions => rw [hanswers _ hactions]; exact h
  | @wrote _ _ state written answers _ entry' task other now _ _ hwrote _ _ hans =>
    rw [List.filterMap_append, filterMap_answers (fun _ _ => rfl) hans, List.append_nil]
    cases hwrote with
    | noted himage =>
      show _ = (made ++ [Action.noted task other _].filterMap _).getLast?.map Prod.snd
      rw [filterMap_singleton]
      dsimp only [Action.update?]
      by_cases hioa : other = ioa
      · subst hioa
        rw [if_pos rfl, Option.toList_some, List.getLast?_concat]
        exact Function.update_self (Ioa.mk other) _ _
      · rw [if_neg hioa, Option.toList_none, List.append_nil]
        exact (baselines_insert_of_ne (Ne.symm hioa) _).trans h
    | quiet himage =>
      rw [Written.actions_nothing, List.filterMap_nil, List.append_nil]
      exact h
    | rejected himage old hold hk =>
      show _ = (made ++ [].filterMap _).getLast?.map Prod.snd
      rw [List.filterMap_nil, List.append_nil]
      exact h
  | scheduled | policed => rw [hanswers _ rfl]; exact h
  | @locked op task hop htodo =>
    rw [hanswers _ (all_isAnswer_opAnswer op _)]
    exact h
  | @handed op dests task dest' hop htodo hdest' =>
    have hupdate : Action.update? ioa (.sent dest' task op.report) = none := rfl
    rw [List.filterMap_cons_none hupdate, hanswers _ (all_isAnswer_opAnswer op _)]
    exact h

end Trace

/-! ## What a run delivers -/

/-- A report of the point overtook another one on its way to the destination. -/
def overtaken (ioa : UInt32) (dest : Dest) (h : History F32 F64) : Bool :=
  h.any fun k => k.input.overtakes ioa dest k.before

/-- **A run of the daemon, as far as it concerns a point**: its updates, its broadcasts to
each destination and what is under way are a trace of deliveries. -/
structure Traced (state : DaemonState F32 F64) (ioa : UInt32) (h : History F32 F64)
    (d : Daemon F32 F64) : Prop where
  flight : FlightOk d
  known : Known ioa d
  destinations : d.state.destinations = state.destinations
  baseline : d.state.tracker.baselines ⟨ioa⟩ = (updates ioa h).getLast?.map Prod.snd
  trace : ∀ dest ∈ state.destinations,
    Trace ⟨updates ioa h, broadcasts ioa dest h, pending ioa dest d⟩ (overtaken ioa dest h)

section Run

variable {state : DaemonState F32 F64} {ioa : UInt32} {h : History F32 F64}
  {d : Daemon F32 F64}

theorem traced_start (htyped : state.image.All PointEntry.WellTyped)
    (hnone : state.tracker.baselines ⟨ioa⟩ = none) :
    Traced state ioa [] (.start state : Daemon F32 F64) where
  flight := ⟨List.nodup_nil, fun op hop => absurd hop List.not_mem_nil⟩
  known := ⟨htyped, fun entry baseline _ hb => by
    have hsome := hnone.symm.trans hb
    cases hsome⟩
  destinations := rfl
  baseline := hnone
  trace := fun _ _ => .nil

theorem Traced.step (t : Traced state ioa h d) {i : Input F32 F64} (hkeeps : i.Keeps fp d) :
    Traced state ioa (h ++ [call (Server.step fp) d i]) (Server.step fp d i).1 where
  flight := t.flight.step i
  known := t.known.step hkeeps
  destinations := (destinations_step i).trans t.destinations
  baseline := by
    rw [updates_snoc]
    exact baseline_step t.baseline
  trace := fun dest hdest => by
    have hover : overtaken ioa dest (h ++ [call (Server.step fp) d i])
        = (overtaken ioa dest h || i.overtakes ioa dest d) := by
      unfold overtaken
      rw [List.any_append, List.any_cons, List.any_nil, Bool.or_false]
      rfl
    rw [updates_snoc, broadcasts_snoc, hover]
    rw [← t.destinations] at hdest
    exact (t.trace dest (t.destinations ▸ hdest)).snoc
      (overtaking_step t.flight t.known hdest hkeeps _ _)

theorem traced_run (htyped : state.image.All PointEntry.WellTyped)
    (hnone : state.tracker.baselines ⟨ioa⟩ = none) (r : Run (step fp) (.start state) h d)
    (hkeeps : Throughout (fun _ k => k.input.Keeps fp k.before) h) : Traced state ioa h d := by
  induction r with
  | nil => exact traced_start htyped hnone
  | snoc r i ih =>
    obtain ⟨hkeeps, hi⟩ := (throughout_snoc _ _).mp hkeeps
    exact (ih hkeeps).step hi

/-- With no operation on a point in flight, nothing of it is under way. -/
theorem pending_eq_nil (hidle : ∀ op ∈ d.flight, op.report.ioa ≠ ioa) (dest : Dest) :
    pending ioa dest d = [] := by
  refine List.filterMap_eq_nil_iff.mpr fun op hop => ?_
  exact if_neg fun h => hidle op hop h.1

end Run

/-- **The peers have what the evaluator takes them to have**, of one point: they got all
its updates, in their order, and the last one is the baseline. -/
structure Delivered (ioa : UInt32) (h : History F32 F64) (d : Daemon F32 F64) : Prop where
  order : ∀ dest ∈ d.state.destinations, broadcasts ioa dest h = updates ioa h
  last : ∀ dest ∈ d.state.destinations,
    (broadcasts ioa dest h).getLast?.map Prod.snd = d.state.tracker.baselines ⟨ioa⟩

/-- **The peers end up with the current value if and only if no report overtook another
one.** In every interleaving of requests, ticks and broadcasts that keep the variants of
the points, when no operation on the point is in flight: the broadcasts to each
destination are the updates of the baseline exactly if no operation handed its report to
a destination while one with an earlier write section still had a report of the point for
it. -/
theorem delivered_iff {state : DaemonState F32 F64} {ioa : UInt32} {h : History F32 F64}
    {d : Daemon F32 F64} (htyped : state.image.All PointEntry.WellTyped)
    (hnone : state.tracker.baselines ⟨ioa⟩ = none) (r : Run (step fp) (.start state) h d)
    (hkeeps : Throughout (fun _ k => k.input.Keeps fp k.before) h)
    (hidle : ∀ op ∈ d.flight, op.report.ioa ≠ ioa) : Delivered ioa h d
      ↔ ∀ dest ∈ state.destinations, ∀ k ∈ h, k.input.overtakes ioa dest k.before = false := by
  have t := traced_run htyped hnone r hkeeps
  have hover : ∀ dest, overtaken ioa dest h = false
      ↔ ∀ k ∈ h, k.input.overtakes ioa dest k.before = false := by
    intro dest
    unfold overtaken
    rw [List.any_eq_false]
    simp only [Bool.not_eq_true]
  constructor
  · intro hdelivered dest hdest
    rw [← hover, ← (t.trace dest hdest).prefix_iff]
    rw [← t.destinations] at hdest
    dsimp only
    rw [hdelivered.order dest hdest]
  · intro hnot
    have horder : ∀ dest ∈ d.state.destinations, broadcasts ioa dest h = updates ioa h := by
      intro dest hdest
      rw [t.destinations] at hdest
      have hmade := (t.trace dest hdest).made_eq ((hover dest).mpr (hnot dest hdest))
      dsimp only at hmade
      rw [hmade, pending_eq_nil hidle dest, List.append_nil]
    refine ⟨horder, fun dest hdest => ?_⟩
    rw [horder dest hdest, t.baseline]

theorem wellTyped_onePoint (kind : PointKind) (schedule : SimSchedule ExtRat) :
    (onePoint kind schedule).image.All PointEntry.WellTyped :=
  all_new.updated (PointEntry.wellTyped_new _ _ _) (updated_insert _ _ _)

/-- Two connections set a single point one after the other. -/
theorem delivered_in_turn :
    let e := exec (step Exact.arith) (.start (onePoint .spNa .none))
      [.set 0 100 (.single true) none .unixEpoch, .lock (.connection 0),
        .send (.connection 0) (.peer 1), .set 1 100 (.single false) none .unixEpoch,
        .lock (.connection 1), .send (.connection 1) (.peer 1)]
    Delivered 100 e.1 e.2 := by
  intro e
  refine (delivered_iff (wellTyped_onePoint _ _) rfl (run_exec _ _ _) ?_ ?_).mpr ?_ <;>
    decide +kernel

/-- **A value that was replaced is broadcast last.** Two connections set a single point,
and the second one has broadcast before the first one begins to: the peer ends up with
`true`, and the baseline is `false`. -/
theorem delivered_overtaken :
    let e := exec (step Exact.arith) (.start (onePoint .spNa .none))
      [.set 0 100 (.single true) none .unixEpoch, .set 1 100 (.single false) none .unixEpoch,
        .lock (.connection 1), .send (.connection 1) (.peer 1), .lock (.connection 0),
        .send (.connection 0) (.peer 1)]
    ((broadcasts 100 (.peer 1) e.1).getLast?.map fun b => b.2.value) = some (.single true)
      ∧ (e.2.state.tracker.baselines ⟨100⟩).map Baseline.value = some (.single false)
      ∧ ¬ ∀ (state : DaemonState ExtRat ExtRat) (ioa : UInt32),
        state.image.All PointEntry.WellTyped → state.tracker.baselines ⟨ioa⟩ = none →
        ∀ h d, Run (step Exact.arith) (.start state) h d →
          Throughout (fun _ k => k.input.Keeps Exact.arith k.before) h →
          d.flight = [] → Delivered ioa h d := by
  intro e
  refine ⟨by decide +kernel, by decide +kernel, fun hall => ?_⟩
  have hdelivered := hall _ 100 (wellTyped_onePoint _ _) rfl e.1 e.2 (run_exec _ _ _)
    (by decide +kernel) (by decide +kernel)
  have hlast := congrArg (Option.map Baseline.value)
    (hdelivered.last (.peer 1) (by decide +kernel))
  revert hlast
  decide +kernel

end Server
