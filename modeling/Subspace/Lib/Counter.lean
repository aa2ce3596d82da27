import Mathlib

/-!
# Counters that number what a system accepts

A system steps through its inputs and at some steps accepts a number. Where
each step either accepts nothing and leaves a counter as it is, or accepts the
counter's value and moves the counter up by one, a run accepts exactly the
values the counter passes, each once and in increasing order
(`accepted_eq_range'`). This is how nonces number the messages of a channel:
a message is accepted only at the channel's next nonce, which then moves past
it.
-/

namespace Subspace.Lib

variable {σ τ : Type*} (step : σ → τ → σ) (accept : σ → τ → List ℕ) (counter : σ → ℕ)

/-- What a run from `s` accepts, step by step. -/
def accepted : σ → List τ → List ℕ
  | _, [] => []
  | s, t :: ts => accept s t ++ accepted (step s t) ts

/-- A step that numbers with the counter: it accepts nothing and leaves the
counter, or accepts the counter's value and moves the counter past it. -/
def Numbers (s : σ) (t : τ) : Prop :=
  accept s t = [] ∧ counter (step s t) = counter s ∨
    accept s t = [counter s] ∧ counter (step s t) = counter s + 1

variable {step accept counter}

section Run

-- the invariant the steps keep, and the inputs they take
variable (inv : σ → Prop) (good : τ → Prop)

theorem le_counter_foldl (preserved : ∀ s t, inv s → good t → inv (step s t))
    (numbers : ∀ s t, inv s → good t → Numbers step accept counter s t) :
    ∀ (ts : List τ) (s : σ), inv s → (∀ t ∈ ts, good t) → counter s ≤ counter (ts.foldl step s)
  | [], _, _, _ => le_rfl
  | t :: ts, s, holds, allGood => by
    have goodT := allGood t List.mem_cons_self
    have rest := le_counter_foldl preserved numbers ts (step s t) (preserved s t holds goodT)
      fun t' member => allGood t' (List.mem_cons_of_mem t member)
    rw [List.foldl_cons]
    rcases numbers s t holds goodT with ⟨-, same⟩ | ⟨-, up⟩ <;> omega

/-- A run of steps that number with the counter accepts the values the
counter moves over, each once and in order. -/
theorem accepted_eq_range' (preserved : ∀ s t, inv s → good t → inv (step s t))
    (numbers : ∀ s t, inv s → good t → Numbers step accept counter s t) :
    ∀ (ts : List τ) (s : σ), inv s → (∀ t ∈ ts, good t) →
      accepted step accept s ts = List.range' (counter s) (counter (ts.foldl step s) - counter s)
  | [], _, _, _ => by simp [accepted]
  | t :: ts, s, holds, allGood => by
    have goodT := allGood t List.mem_cons_self
    have goodTs : ∀ t' ∈ ts, good t' := fun t' member => allGood t' (List.mem_cons_of_mem t member)
    have holds' := preserved s t holds goodT
    have later := le_counter_foldl inv good preserved numbers ts (step s t) holds' goodTs
    rw [accepted, accepted_eq_range' preserved numbers ts (step s t) holds' goodTs, List.foldl_cons]
    rcases numbers s t holds goodT with ⟨none, same⟩ | ⟨one, up⟩
    · rw [none, same, List.nil_append]
    · -- the counter's value, then the values after it
      rw [one, up]
      rw [up] at later
      rw [show counter (ts.foldl step (step s t)) - counter s =
        counter (ts.foldl step (step s t)) - (counter s + 1) + 1 by omega, List.range'_succ]
      rfl

end Run

end Subspace.Lib
