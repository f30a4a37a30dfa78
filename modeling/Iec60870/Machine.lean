import Mathlib.Data.List.Induction

/-!
# Reactive machines and their runs

A sans-I/O protocol machine is a function `step : σ → ι → σ × List α`: a
call consumes one input, updates the state and returns the actions the
surrounding layer has to perform. Everything the developments over it say
is said of a *run* – of every finite sequence of calls from a fixed start
state – and usually relates the state reached to what happened on the way.

`Run step s₀ h s` is that notion: `h` is the history of the run, one
`Call` per call, and `s` the state it ends in. A `Call` keeps the state
the call was made in beside its input and its actions, so whatever a
statement needs to know about the past – which inputs were submitted,
which were accepted, what was emitted – is read off `h` and nothing has to
be threaded through the machine itself. `exec` is the executable
counterpart for concrete scenarios.
-/

namespace Machine

variable {σ ι α : Type}

/-- What a filter finds in a nonempty list is what it finds at its head,
then in its tail. -/
theorem filterMap_cons_toList {β γ : Type} (f : β → Option γ) (b : β) (l : List β) :
    (b :: l).filterMap f = (f b).toList ++ l.filterMap f := by
  rw [List.filterMap_cons]
  cases f b <;> rfl

/-- What a filter finds in a singleton. -/
theorem filterMap_singleton {β γ : Type} (f : β → Option γ) (b : β) :
    [b].filterMap f = (f b).toList := by
  rw [filterMap_cons_toList, List.filterMap_nil, List.append_nil]

/-- **One call of a reactive machine**, as the history of a run keeps it:
the state it was made in, its input and the actions it returned. -/
structure Call (σ ι α : Type) where
  /-- The state the call was made in. -/
  before : σ
  /-- The input it consumed. -/
  input : ι
  /-- The actions it returned, in order. -/
  actions : List α
deriving Repr

/-- The call a machine in the state `s` makes on the input `i`. -/
def call (step : σ → ι → σ × List α) (s : σ) (i : ι) : Call σ ι α :=
  ⟨s, i, (step s i).2⟩

section

variable (step : σ → ι → σ × List α) (s : σ) (i : ι)

@[simp] theorem call_before : (call step s i).before = s := rfl

@[simp] theorem call_input : (call step s i).input = i := rfl

@[simp] theorem call_actions : (call step s i).actions = (step s i).2 := rfl

end

/-- The call with its state, input and actions renamed. -/
def Call.map {σ' ι' α' : Type} (f : σ → σ') (g : ι → ι') (k : α → α')
    (c : Call σ ι α) : Call σ' ι' α' :=
  ⟨f c.before, g c.input, c.actions.map k⟩

/-- **A run of a machine**: the history of its calls from `s₀`, and the
state they lead to. -/
inductive Run (step : σ → ι → σ × List α) (s₀ : σ) :
    List (Call σ ι α) → σ → Prop
  /-- The run without a call. -/
  | nil : Run step s₀ [] s₀
  /-- One more call at the end of a run. -/
  | snoc {h : List (Call σ ι α)} {s : σ} (r : Run step s₀ h s) (i : ι) :
      Run step s₀ (h ++ [call step s i]) (step s i).1

/-- Every call of a run was made in a state the run had reached before. -/
theorem Run.of_mem {step : σ → ι → σ × List α} {s₀ : σ}
    {h : List (Call σ ι α)} {s : σ} (r : Run step s₀ h s)
    {c : Call σ ι α} (hc : c ∈ h) :
    (∃ g, Run step s₀ g c.before) ∧ c = call step c.before c.input := by
  induction r with
  | nil => exact absurd hc List.not_mem_nil
  | snoc r i ih =>
    obtain hc | hc := List.mem_append.mp hc
    · exact ih hc
    · rw [List.mem_singleton.mp hc]
      exact ⟨⟨_, r⟩, rfl⟩

/-- **The clock of a history never goes back**: each input comes with its time. -/
def ClockMono (h : List (Call σ (ι × ℕ) α)) : Prop :=
  (h.map fun k => k.input.2).Pairwise (· ≤ ·)

instance (h : List (Call σ (ι × ℕ) α)) : Decidable (ClockMono h) :=
  inferInstanceAs (Decidable (List.Pairwise _ _))

/-- One call more is not made earlier than any other. -/
theorem clockMono_snoc {h : List (Call σ (ι × ℕ) α)} {k : Call σ (ι × ℕ) α} :
    ClockMono (h ++ [k]) ↔ ClockMono h ∧ ∀ k' ∈ h, k'.input.2 ≤ k.input.2 := by
  unfold ClockMono
  rw [List.map_append, List.pairwise_append]
  simp

/-- **Every call of a history meets `P`**, given the calls before it. -/
def Throughout {κ : Type} (P : List κ → κ → Prop) (h : List κ) : Prop :=
  ∀ (n : ℕ) (hn : n < h.length), P (h.take n) h[n]

instance {κ : Type} (P : List κ → κ → Prop) [∀ g k, Decidable (P g k)]
    (h : List κ) : Decidable (Throughout P h) :=
  inferInstanceAs (Decidable (∀ n (_ : n < _), _))

theorem throughout_nil {κ : Type} (P : List κ → κ → Prop) : Throughout P [] :=
  fun n hn => absurd hn (Nat.not_lt_zero n)

/-- One call more has to meet `P` given all the others. -/
theorem throughout_snoc {κ : Type} {P : List κ → κ → Prop} (h : List κ) (k : κ) :
    Throughout P (h ++ [k]) ↔ Throughout P h ∧ P h k := by
  have hlen : h.length < (h ++ [k]).length := by
    rw [List.length_append]
    exact Nat.lt_succ_self _
  have hlast : (h ++ [k])[h.length] = k := List.getElem_concat_length rfl hlen
  constructor
  · intro hP
    refine ⟨fun n hn => ?_, ?_⟩
    · have hn' : n < (h ++ [k]).length := Nat.lt_trans hn hlen
      have hk := hP n hn'
      rw [List.getElem_append_left hn, List.take_append_of_le_length (Nat.le_of_lt hn)] at hk
      exact hk
    · have hk := hP h.length hlen
      rw [List.take_left, hlast] at hk
      exact hk
  · intro ⟨hP, hk⟩ n hn
    rw [List.length_append, List.length_singleton] at hn
    by_cases hlt : n < h.length
    · rw [List.getElem_append_left hlt, List.take_append_of_le_length (Nat.le_of_lt hlt)]
      exact hP n hlt
    · obtain rfl : n = h.length := by omega
      rw [List.take_left, hlast]
      exact hk

/-- The run over a list of inputs: its history and its final state. -/
def exec (step : σ → ι → σ × List α) (s₀ : σ) (is : List ι) :
    List (Call σ ι α) × σ :=
  is.foldl (fun p i => (p.1 ++ [call step p.2 i], (step p.2 i).1)) ([], s₀)

/-- One input more is one call more. -/
theorem exec_concat (step : σ → ι → σ × List α) (s₀ : σ) (is : List ι) (i : ι) :
    exec step s₀ (is ++ [i]) = ((exec step s₀ is).1 ++ [call step (exec step s₀ is).2 i],
        (step (exec step s₀ is).2 i).1) := by
  rw [exec, List.foldl_append]
  rfl

/-- The inputs can be given in two parts. -/
theorem exec_append (step : σ → ι → σ × List α) (s₀ : σ) (is js : List ι) :
    (exec step s₀ (is ++ js)).2 = (exec step (exec step s₀ is).2 js).2 := by
  induction js using List.reverseRecOn with
  | nil => rw [List.append_nil]; rfl
  | append_singleton js i ih => rw [← List.append_assoc, exec_concat, exec_concat, ih]

/-- What `exec` computes is a run. -/
theorem run_exec (step : σ → ι → σ × List α) (s₀ : σ) (is : List ι) :
    Run step s₀ (exec step s₀ is).1 (exec step s₀ is).2 := by
  induction is using List.reverseRecOn with
  | nil => exact Run.nil
  | append_singleton is i ih =>
    rw [exec_concat]
    exact Run.snoc ih i

end Machine
