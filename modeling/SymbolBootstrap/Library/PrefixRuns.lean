import Mathlib.Data.List.Basic

/-!
A fold seen as a run: the state reached after each prefix of the inputs, and the
invariant rule for runs whose steps all meet a condition on the state they start from.
-/
namespace Library.PrefixRuns

variable {σ α : Type*} (step : σ → α → σ) (start : σ) (inputs : List α)

/-- The state after the first `n` inputs. -/
def stateAt (n : ℕ) : σ := (inputs.take n).foldl step start

/-- Every step of the run meets `ok` in the state it starts from. -/
def EveryStep (ok : σ → α → Prop) : Prop :=
  ∀ n input, inputs[n]? = some input → ok (stateAt step start inputs n) input

variable {inputs} in
theorem stateAt_succ {n : ℕ} {input : α} (h : inputs[n]? = some input) :
    stateAt step start inputs (n + 1) = step (stateAt step start inputs n) input := by
  unfold stateAt
  rw [List.take_add_one, h, Option.toList_some, List.foldl_append]
  rfl

theorem stateAt_of_none {n : ℕ} (h : inputs[n]? = none) :
    stateAt step start inputs (n + 1) = stateAt step start inputs n := by
  unfold stateAt
  rw [List.take_add_one, h, Option.toList_none, List.append_nil]

theorem stateAt_length : stateAt step start inputs inputs.length = inputs.foldl step start := by
  unfold stateAt
  rw [List.take_length]

variable {inputs} in
/-- The run continues from the state after `n` inputs with the next one. -/
theorem foldl_eq_from {n : ℕ} {input : α} (h : inputs[n]? = some input) :
    inputs.foldl step start =
      (inputs.drop (n + 1)).foldl step (step (stateAt step start inputs n) input) := by
  rw [← stateAt_succ step start h, stateAt, ← List.foldl_append, List.take_append_drop]

/-- Invariant rule: what holds at the start and is kept by every step that meets the
condition holds after every prefix of a run whose steps all meet it. -/
theorem invariant_of_everyStep {inv : σ → Prop} {ok : σ → α → Prop} (hstart : inv start)
    (hstep : ∀ state, ∀ input ∈ inputs, inv state → ok state input → inv (step state input))
    (hok : EveryStep step start inputs ok) (n : ℕ) : inv (stateAt step start inputs n) := by
  induction n with
  | zero => exact hstart
  | succ n ih =>
    cases hinput : inputs[n]? with
    | none =>
      rw [stateAt_of_none step start inputs hinput]
      exact ih
    | some input =>
      rw [stateAt_succ step start hinput]
      exact hstep _ input (List.mem_of_getElem? hinput) ih (hok n input hinput)

/-- Where the invariant makes every step meet the condition, all of them meet it. -/
theorem everyStep_of_invariant {inv : σ → Prop} {ok : σ → α → Prop} (hstart : inv start)
    (hstep : ∀ state, ∀ input ∈ inputs, inv state → ok state input → inv (step state input))
    (hok : ∀ n input, inputs[n]? = some input → inv (stateAt step start inputs n) →
      ok (stateAt step start inputs n) input) : EveryStep step start inputs ok := by
  have hinv : ∀ n, inv (stateAt step start inputs n) := by
    intro n
    induction n with
    | zero => exact hstart
    | succ n ih =>
      cases hinput : inputs[n]? with
      | none =>
        rw [stateAt_of_none step start inputs hinput]
        exact ih
      | some input =>
        rw [stateAt_succ step start hinput]
        exact hstep _ input (List.mem_of_getElem? hinput) ih (hok n input hinput ih)
  exact fun n input hinput => hok n input hinput (hinv n)

/-- Invariant rule for the inputs done and the state they lead to. -/
theorem invariant_of_inputs {inv : List α → σ → Prop} (hstart : inv [] start)
    (hstep : ∀ done state, ∀ input ∈ inputs, inv done state →
      inv (done ++ [input]) (step state input)) (n : ℕ) :
    inv (inputs.take n) (stateAt step start inputs n) := by
  induction n with
  | zero => exact hstart
  | succ n ih =>
    cases hinput : inputs[n]? with
    | none =>
      rw [stateAt_of_none step start inputs hinput, List.take_add_one, hinput,
        Option.toList_none, List.append_nil]
      exact ih
    | some input =>
      rw [stateAt_succ step start hinput, List.take_add_one, hinput, Option.toList_some]
      exact hstep _ _ input (List.mem_of_getElem? hinput) ih

/-- Where every step from a good state reaches a good state exactly when it meets the
condition, every prefix is good exactly when every step meets it. -/
theorem everyPrefix_iff_everyStep {good : σ → Prop} {ok : σ → α → Prop} (hstart : good start)
    (hstep : ∀ state, ∀ input ∈ inputs, good state →
      (good (step state input) ↔ ok state input)) :
    (∀ n, good (stateAt step start inputs n)) ↔ EveryStep step start inputs ok := by
  constructor
  · intro hgood n input hinput
    have hnext := hgood (n + 1)
    rw [stateAt_succ step start hinput] at hnext
    exact (hstep _ input (List.mem_of_getElem? hinput) (hgood n)).mp hnext
  · intro hok
    apply invariant_of_everyStep step start inputs hstart _ hok
    intro state input hmem hgood hmeets
    exact (hstep state input hmem hgood).mpr hmeets

end Library.PrefixRuns
