import Mathlib.Logic.Function.Iterate
import XerosKernel.Execution

/-!
Counting the events of a run. What has to wait for a number of events of some kind, and for each of
them for one less, comes about when that many and one have happened; a value that grows with each of
them has grown by their number.
-/

namespace Execution

variable {σ ε : Type} {step : σ → ε → Option σ} {guard : σ → ε → Prop} {counts : ε → Bool}
  {waits : Nat → σ → Prop} {goal : σ → Prop}

/-- A counted event takes one off the number, and the other events add nothing to it. -/
def Advances (step : σ → ε → Option σ) (guard : σ → ε → Prop) (counts : ε → Bool)
    (waits : Nat → σ → Prop) (goal : σ → Prop) : Prop :=
  ∀ k state event after, waits k state → guard state event → step state event = some after →
    goal after ∨ ∃ k', k' + (counts event).toNat ≤ k ∧ waits k' after

theorem countP_cons_toNat (counts : ε → Bool) (event : ε) (rest : List ε) :
    (event :: rest).countP counts = rest.countP counts + (counts event).toNat := by
  cases counted : counts event with
  | true => simp [counted]
  | false => simp [counted]

theorem run_countdown (advances : Advances step guard counts waits goal) {k : Nat}
    {state final : σ} {events : List ε} (waiting : waits k state)
    (along : Along step guard state events) (reached : run step state events = some final)
    (enough : k < events.countP counts) :
    ∃ front back middle, events = front ++ back ∧ run step state front = some middle ∧
      goal middle ∧ front.countP counts ≤ k + 1 := by
  induction events generalizing state k with
  | nil => exact absurd enough (Nat.not_lt_zero k)
  | cons event rest ih =>
      obtain ⟨after, stepped, tail⟩ := run_cons_eq_some.mp reached
      have counted := countP_cons_toNat counts event
      rw [counted] at enough
      rcases advances k state event after waiting along.1 stepped with isGoal | ⟨k', fewer, waits'⟩
      · refine ⟨[event], rest, after, rfl, ?_, isGoal, ?_⟩
        · rw [run, stepped]
          rfl
        · have single := counted []
          rw [single, List.countP_nil]
          have bound := Bool.toNat_le (counts event)
          omega
      · obtain ⟨front, back, middle, rfl, reached', isGoal, few⟩ :=
          ih waits' (along.2 after stepped) tail (by omega)
        refine ⟨event :: front, back, middle, rfl, ?_, isGoal, ?_⟩
        · rw [run, stepped]
          exact reached'
        · rw [counted]
          omega

/-! Events that count in some states only. -/

def tally (step : σ → ε → Option σ) (counts : σ → ε → Bool) : σ → List ε → Nat
  | _, [] => 0
  | state, event :: rest => (counts state event).toNat +
      match step state event with
      | none => 0
      | some after => tally step counts after rest

theorem run_tally {α : Type} (counts : σ → ε → Bool) (value : σ → α) (grow : α → α)
    (grows : ∀ state event after, step state event = some after →
      value after = if counts state event then grow (value state) else value state)
    {state final : σ} {events : List ε} (reached : run step state events = some final) :
    value final = grow^[tally step counts state events] (value state) := by
  induction events generalizing state with
  | nil =>
      cases reached
      rfl
  | cons event rest ih =>
      obtain ⟨after, stepped, tail⟩ := run_cons_eq_some.mp reached
      have first := grows state event after stepped
      simp only [tally, stepped]
      rw [ih tail, first, Nat.add_comm]
      cases counts state event with
      | true => exact (Function.iterate_succ_apply grow _ _).symm
      | false => rfl

end Execution
