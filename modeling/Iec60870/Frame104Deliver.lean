import Iec60870.Frame104Pair

/-!
# Delivery and acknowledgement

The driver performs the actions of a call in their order, and stops at a write
that fails. A receive number tells the peer that the I-frames before it need
not be kept any longer; so it should not go out before their ASDUs have been
handed to the application, or an ASDU can be acknowledged and then lost.

Mostly it does not. The S-frame of `on_i_frame` and that of `t2` stand behind
the delivery. But `on_i_frame` processes the receive number of the frame
first, as `acknowledge` does wherever it is called, and that ends with
`flush_pending`: if the acknowledgement makes room in the window and ASDUs are
queued, they go out as I-frames, each with the receive number that counts the
frame in progress – and the delivery comes after them.

`delivery_first_iff` says that this is the only way. In the log of a history
an I-frame is accepted before the actions of its call (`Event`), the `n`-th
delivery is that of the `n`-th accepted frame and a receive number counts the
frames accepted before it (`RecvInv`); so what it covers has been delivered if
there are as many deliveries before it as acceptances.
-/

open Machine

namespace Frame104

/-! ## Deliveries in the log -/

/-- The ASDU an entry of the log delivers, if any. -/
def Event.asdu? : Event → Option Bytes
  | .accept _ => none
  | .act action => action.asdu?

/-- The number of ASDUs a log delivers. -/
def deliverCount (L : List Event) : ℕ := (L.filterMap Event.asdu?).length

theorem deliverCount_append (L₁ L₂ : List Event) :
    deliverCount (L₁ ++ L₂) = deliverCount L₁ + deliverCount L₂ := by
  unfold deliverCount
  rw [List.filterMap_append, List.length_append]

theorem deliverCount_act (as : List Action) :
    deliverCount (as.map .act) = (deliveries as).length := by
  unfold deliverCount deliveries
  rw [List.filterMap_map]
  rfl

/-- A log that starts after `n` acceptances and `d` deliveries puts a receive
number on the wire only when everything accepted has been delivered. -/
def DeliversFirst : ℕ → ℕ → List Event → Prop
  | _, _, [] => True
  | n, d, .accept _ :: L => DeliversFirst (n + 1) d L
  | n, d, .act a :: L =>
    ((Event.act a).nr?.isSome → n ≤ d) ∧ DeliversFirst n (d + deliverCount [.act a]) L

theorem deliversFirst_append (n d : ℕ) (L₁ L₂ : List Event) :
    DeliversFirst n d (L₁ ++ L₂) ↔ DeliversFirst n d L₁
        ∧ DeliversFirst (n + acceptCount L₁) (d + deliverCount L₁) L₂ := by
  induction L₁ generalizing n d with
  | nil => exact (and_iff_right trivial).symm
  | cons e L₁ ih =>
    have hd : deliverCount (e :: L₁) = deliverCount [e] + deliverCount L₁ :=
      deliverCount_append [e] L₁
    have hn : acceptCount (e :: L₁) = acceptCount [e] + acceptCount L₁ :=
      acceptCount_append [e] L₁
    rw [hd, hn, ← Nat.add_assoc, ← Nat.add_assoc, List.cons_append]
    cases e with
    | accept f => exact ih (n + 1) d
    | act a => rw [DeliversFirst, DeliversFirst, ih, and_assoc]; rfl

/-- **The log in terms of its beginnings.** -/
theorem deliversFirst_iff (L : List Event) : DeliversFirst 0 0 L
      ↔ ∀ (L₁ L₂ : List Event) (a : Action), L = L₁ ++ .act a :: L₂ →
        (Event.act a).nr?.isSome → acceptCount L₁ ≤ deliverCount L₁ := by
  constructor
  · rintro h L₁ L₂ a rfl hnr
    have hrest := ((deliversFirst_append 0 0 L₁ _).mp h).2
    rw [Nat.zero_add, Nat.zero_add] at hrest
    exact hrest.1 hnr
  · intro h
    induction L using List.reverseRecOn with
    | nil => trivial
    | append_singleton L e ih =>
      rw [deliversFirst_append, Nat.zero_add, Nat.zero_add]
      refine ⟨ih fun L₁ L₂ a hL => h L₁ (L₂ ++ [e]) a ?_, ?_⟩
      · rw [hL, List.append_assoc]
        rfl
      · cases e with
        | accept f => trivial
        | act a => exact ⟨h L [] a rfl, trivial⟩

/-- Actions put no receive number on the wire too early if everything has been
delivered. -/
theorem deliversFirst_act_of_le {n d : ℕ} (h : n ≤ d) (as : List Action) :
    DeliversFirst n d (as.map .act) := by
  induction as generalizing d with
  | nil => trivial
  | cons a as ih => exact ⟨fun _ => h, ih (h.trans (Nat.le_add_right _ _))⟩

/-- Actions that deliver nothing put none on the wire while something is
undelivered. -/
theorem deliversFirst_act_of_lt {n d : ℕ} (h : d < n) {as : List Action}
    (has : deliveries as = []) : DeliversFirst n d (as.map .act) ↔ nrs as = [] := by
  induction as with
  | nil => exact iff_of_true trivial rfl
  | cons a as ih =>
    rw [deliveries_cons, List.append_eq_nil_iff] at has
    have hcount : deliverCount [.act a] = 0 := by
      rw [← List.map_singleton, deliverCount_act, deliveries_cons, has.1]
      rfl
    rw [List.map_cons, DeliversFirst, hcount, Nat.add_zero, ih has.2, nrs_cons,
      List.append_eq_nil_iff]
    refine and_congr_left fun _ => ?_
    show ((a.apdu?.bind Apdu.nr?).isSome → n ≤ d) ↔ _
    cases a.apdu?.bind Apdu.nr? with
    | none => exact iff_of_true nofun rfl
    | some nr => exact iff_of_false (fun hle => Nat.not_le.mpr h (hle rfl)) (List.cons_ne_nil _ _)

/-! ## The calls that acknowledge first -/

namespace Connection

variable {c : Connection} {now : Instant}

/-- **A call that acknowledges before it delivers**: it accepts an I-frame whose
receive number makes room in the window, and ASDUs are queued. -/
def FlushesFirst (c : Connection) (input : Input) : Prop :=
  ∃ f ∈ c.accepts input, c.pending ≠ []
    ∧ (c.sent.dropWhile fun e => acked f.recv e.1).length < c.config.k.toNat

/-- Flushing sends something if there is something, and room for it. -/
theorem nrs_flushPending (hc : c.actions = []) : nrs (c.flushPending now).actions = []
      ↔ ¬ (c.pending ≠ [] ∧ c.sent.length < c.config.k.toNat) := by
  unfold flushPending
  cases hp : c.pending with
  | nil =>
    refine iff_of_true ?_ fun h => h.1 rfl
    show nrs c.actions = []
    rw [hc]
    rfl
  | cons asdu rest =>
    rw [flushLoop]
    split
    · rename_i hroom
      obtain ⟨n, hn⟩ := exists_recvView_flushLoop now rest (c.sendIframe asdu now)
      rw [recvView_sendIframe, RecvView.ack_ack] at hn
      have hacks : nrs (flushLoop now rest (c.sendIframe asdu now)).actions
          = nrs c.actions ++ List.replicate (1 + n) c.recvNext := congrArg RecvView.acks hn
      refine iff_of_false ?_ fun h => h ⟨List.cons_ne_nil _ _, hroom⟩
      rw [hacks, hc, Nat.add_comm]
      exact List.cons_ne_nil _ _
    · rename_i hfull
      refine iff_of_true ?_ fun h => hfull h.2
      show nrs c.actions = []
      rw [hc]
      rfl

/-- **The actions of a call that accepts an I-frame**: those of the
acknowledgement it brings, the delivery, and then others. -/
theorem actions_of_accepts (hc : c.actions = []) {input : Input} {f : Iframe}
    (hf : c.accepts input = some f) (now : Instant) :
    ∃ as bs, (c.handle input now).2 = as ++ .deliverAsdu f.asdu :: bs ∧ deliveries as = []
      ∧ (nrs as = [] ↔ ¬ c.FlushesFirst input) := by
  obtain rfl : input = .apdu (.i f.send f.recv f.asdu) := eq_of_accepts hf
  let e := { c with lastRecvAny := some now }.counted now
  have hinput : c.onInput (.apdu (.i f.send f.recv f.asdu)) now
      = ((e.acknowledge f.recv now).push (.deliverAsdu f.asdu)).ackIfDue now :=
    onIFrame_of_accepted (c := { c with lastRecvAny := some now }) hf
  obtain ⟨bs, hbs⟩ : ∃ bs, (((e.acknowledge f.recv now).push (.deliverAsdu f.asdu)).ackIfDue
      now).actions = (e.acknowledge f.recv now).actions ++ .deliverAsdu f.asdu :: bs := by
    unfold ackIfDue
    split
    · exact ⟨[_], List.append_assoc ..⟩
    · exact ⟨[], rfl⟩
  obtain ⟨timers, htimers⟩ := exists_actions_runTimers
    (c.onInput (.apdu (.i f.send f.recv f.asdu)) now) now
  obtain ⟨n, hn⟩ := exists_recvView_acknowledge e f.recv now
  refine ⟨(e.acknowledge f.recv now).actions, bs ++ timers, ?_, ?_, ?_⟩
  · refine htimers.trans ?_
    rw [hinput, hbs, List.append_assoc]
    rfl
  · have hdel : deliveries (e.acknowledge f.recv now).actions = deliveries c.actions :=
      congrArg RecvView.delivered hn
    rw [hdel, hc]
    rfl
  · refine (nrs_flushPending (c := { e with
      sent := e.sent.dropWhile fun x => acked f.recv x.1 }) hc).trans (not_congr ?_)
    constructor
    · exact fun h => ⟨f, hf, h⟩
    · rintro ⟨g, hg, h⟩
      obtain rfl : f = g := Option.some.inj (hf.symm.trans hg)
      exact h

/-- **A call keeps the order unless it flushes first.** -/
theorem deliversFirst_call (hc : c.actions = []) (i : Input × Instant) (n : ℕ) :
    DeliversFirst n n (eventsOf (call step c i)) ↔ ¬ c.FlushesFirst i.1 := by
  show DeliversFirst n n ((c.accepts i.1).toList.map .accept ++ (c.handle i.1 i.2).2.map .act) ↔ _
  cases hf : c.accepts i.1 with
  | none =>
    refine iff_of_true (deliversFirst_act_of_le (Nat.le_refl n) _) ?_
    rintro ⟨f, hmem, -⟩
    rw [hf] at hmem
    cases hmem
  | some f =>
    obtain ⟨as, bs, hactions, hdel, hnrs⟩ := actions_of_accepts hc hf i.2
    have hcount : deliverCount (as.map .act) = 0 := by
      rw [deliverCount_act, hdel]
      rfl
    rw [hactions, ← hnrs, ← deliversFirst_act_of_lt (Nat.lt_succ_self n) hdel]
    show DeliversFirst (n + 1) n ((as ++ _).map .act) ↔ _
    rw [List.map_append, deliversFirst_append, acceptCount_act, hcount, Nat.add_zero, Nat.add_zero]
    -- Behind the delivery everything is delivered.
    refine and_iff_left ⟨nofun, deliversFirst_act_of_le (Nat.le_refl _) bs⟩

end Connection

/-! ## Over whole runs -/

/-- The log delivers what the calls deliver. -/
theorem deliverCount_events (h : List Call) : deliverCount (events h) = (delivered h).length := by
  induction h with
  | nil => rfl
  | cons k h ih =>
    have hk : deliverCount (eventsOf k) = (deliveries k.actions).length := by
      rw [eventsOf, deliverCount_append, deliverCount_act]
      cases k.before.accepts k.input.1 <;> exact Nat.zero_add _
    rw [← List.singleton_append, events_append, deliverCount_append, ih, events_singleton, hk,
      delivered_append, List.length_append, delivered_singleton]

/-- Between calls everything accepted has been delivered, so that each call
counts for itself. -/
theorem deliversFirst_of_run {role : Role} {config : Config} {h : List Call} {c : Connection}
    (r : Run Connection.step (Connection.new role config) h c) :
    DeliversFirst 0 0 (events h) ↔ ∀ k ∈ h, ¬ k.before.FlushesFirst k.input.1 := by
  induction r with
  | nil => exact iff_of_true trivial fun k hk => absurd hk List.not_mem_nil
  | @snoc h d r i ih =>
    obtain ⟨-, -, hact⟩ := Connection.ident_of_run r
    have hbalance : deliverCount (events h) = acceptCount (events h) := by
      rw [deliverCount_events, acceptCount_events, (Connection.recvInv_of_run r).delivered,
        List.length_map]
    rw [events_append, events_singleton, deliversFirst_append, ih, Nat.zero_add, Nat.zero_add,
      hbalance, Connection.deliversFirst_call hact]
    simp only [List.forall_mem_append, List.forall_mem_singleton]
    rfl

/-- **Delivery precedes acknowledgement, unless a call flushes first.** In
every run, whenever a receive number is put on the wire, the I-frames accepted
so far – those it covers – have been delivered, exactly if no call accepts an
I-frame that makes room in the window while ASDUs are queued. -/
theorem delivery_first_iff {role : Role} {config : Config} {h : List Call} {c : Connection}
    (r : Run Connection.step (Connection.new role config) h c) :
    (∀ (L R : List Event) (a : Action), events h = L ++ .act a :: R →
        (Event.act a).nr?.isSome → ∀ n < acceptCount L, n < deliverCount L)
      ↔ ∀ k ∈ h, ¬ k.before.FlushesFirst k.input.1 := by
  rw [← deliversFirst_of_run r, deliversFirst_iff]
  refine forall₅_congr fun L R a _ _ => ?_
  exact ⟨fun hall => Nat.le_of_not_lt fun hlt => Nat.lt_irrefl _ (hall _ hlt),
    fun hle n hn => hn.trans_le hle⟩

/-- A server that has sent an I-frame and nothing queued gets one that
acknowledges it. -/
theorem delivery_first_unqueued :
    let run := exec Connection.step (Connection.new .server { Config.default with w := 1 })
      [(.apdu (.u .startDtAct), 0), (.sendAsdu [1], 0), (.apdu (.i (.new 0) (.new 1) [9]), 0)]
    acceptCount (events run.1) = 1
      ∧ ∀ (L R : List Event) (a : Action), events run.1 = L ++ .act a :: R →
        (Event.act a).nr?.isSome → ∀ n < acceptCount L, n < deliverCount L := by
  intro run
  refine ⟨by decide, (delivery_first_iff (run_exec _ _ _)).mpr ?_⟩
  rintro k hk ⟨f, -, hpending, -⟩
  have hempty : ∀ k ∈ run.1, k.before.pending = [] := by decide
  exact hpending (hempty k hk)

/-- **A queued ASDU goes out before the delivery.** The window of one I-frame
is full and an ASDU waits; the I-frame that acknowledges the first one lets the
second go, with a receive number that covers it, and is delivered after
that. -/
theorem delivery_second :
    let run := exec Connection.step (Connection.new .server { Config.default with k := 1 })
      [(.apdu (.u .startDtAct), 0), (.sendAsdu [1], 0), (.sendAsdu [2], 0),
        (.apdu (.i (.new 0) (.new 1) [9]), 0)]
    ∃ (L : List Event) (a : Action), events run.1 = L ++ .act a :: [.act (.deliverAsdu [9])]
      ∧ a = .sendApdu (.i (.new 1) (.new 1) [2]) ∧ acceptCount L = 1 ∧ deliverCount L = 0 := by
  intro run
  exact ⟨(events run.1).take 4, _, by decide, rfl, by decide, by decide⟩

end Frame104
