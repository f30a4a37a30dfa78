import Iec60870.Machine

/-!
# What one party of a machine can see

A machine that serves several parties keeps something for each of them. A party
has a *view* of the state, some of the inputs *concern* it, and of a run it sees
these inputs and what was answered to them.

`Unwinds` says what has to hold of one step for the others to have no influence
on a party: an input that does not concern it leaves its view alone, and one that
does reads and writes nothing but the view. Both are statements about single
steps, and `Unwinds.exec_filter` is what they add up to over whole runs: the
inputs of the others can be deleted from a run, and the party sees the same.
-/

namespace Machine

variable {σ ι α ν : Type}

/-- **The others have no influence on a view**, step by step. -/
structure Unwinds (step : σ → ι → σ × List α) (concerns : ι → Bool) (view : σ → ν) :
    Prop where
  /-- An input of the others leaves the view as it is. -/
  frame : ∀ s i, concerns i = false → view (step s i).1 = view s
  /-- An input of the party acts on the view alone. -/
  agree : ∀ s t i, concerns i = true → view s = view t →
    view (step s i).1 = view (step t i).1 ∧ (step s i).2 = (step t i).2

/-- What a filter keeps of a list with one element more. -/
theorem filter_concat {β : Type} (p : β → Bool) (l : List β) (b : β) :
    (l ++ [b]).filter p = l.filter p ++ if p b then [b] else [] := by
  rw [List.filter_append, List.filter_cons, List.filter_nil]

/-- A call as its caller sees it: the input, and what was answered. -/
def Call.answered (k : Call σ ι α) : ι × List α :=
  (k.input, k.actions)

/-- **What a party sees of a history**: the calls that concern it. -/
def visible (concerns : ι → Bool) (h : List (Call σ ι α)) : List (ι × List α) :=
  (h.filter fun k => concerns k.input).map Call.answered

theorem visible_concat (concerns : ι → Bool) (h : List (Call σ ι α)) (k : Call σ ι α) :
    visible concerns (h ++ [k])
      = visible concerns h ++ if concerns k.input then [k.answered] else [] := by
  rw [visible, filter_concat, List.map_append]
  cases concerns k.input <;> rfl

/-- **Deleting the inputs of the others changes nothing that the party sees**: the
answers to its own inputs are the same, and so is its view in the end. -/
theorem Unwinds.exec_filter {step : σ → ι → σ × List α} {concerns : ι → Bool}
    {view : σ → ν} (h : Unwinds step concerns view) (s : σ) (is : List ι) :
    visible concerns (exec step s is).1 = (exec step s (is.filter concerns)).1.map Call.answered
      ∧ view (exec step s is).2 = view (exec step s (is.filter concerns)).2 := by
  induction is using List.reverseRecOn with
  | nil => exact ⟨rfl, rfl⟩
  | append_singleton is i ih =>
    obtain ⟨hvisible, hview⟩ := ih
    rw [exec_concat, visible_concat, call_input, hvisible, filter_concat]
    cases hi : concerns i with
    | false =>
      rw [if_neg Bool.false_ne_true, if_neg Bool.false_ne_true, List.append_nil, List.append_nil]
      exact ⟨rfl, (h.frame _ _ hi).trans hview⟩
    | true =>
      -- both runs make the call, in states that look the same
      obtain ⟨hnext, hactions⟩ := h.agree _ _ i hi hview
      rw [if_pos rfl, if_pos rfl, exec_concat, List.map_append, List.map_singleton]
      have hcall : (call step (exec step s is).2 i).answered
          = (call step (exec step s (is.filter concerns)).2 i).answered :=
        congrArg (Prod.mk i) hactions
      rw [hcall]
      exact ⟨rfl, hnext⟩

end Machine
