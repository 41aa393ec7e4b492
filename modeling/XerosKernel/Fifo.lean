import Mathlib.Data.List.Basic
import Mathlib.Data.List.Perm.Basic
import XerosKernel.Execution

/-!
A queue of distinct elements from which any element can be deleted, and what a run of it
serves: the elements that were not deleted, in the order they arrived.
-/

namespace Fifo

variable {α : Type} [DecidableEq α]

inductive Op (α : Type)
  | enqueue (x : α)
  | dequeue
  | delete (x : α)

structure State (α : Type) where
  queue : List α
  served : List α
  deriving DecidableEq

/-- `none` where the operation is not allowed: an element that waits is not added again,
nothing is taken from an empty queue, and only an element that waits is deleted. -/
def step (state : State α) : Op α → Option (State α)
  | .enqueue x => if x ∈ state.queue then none else some { state with queue := state.queue ++ [x] }
  | .dequeue =>
      match state.queue with
      | [] => none
      | x :: rest => some { queue := rest, served := state.served ++ [x] }
  | .delete x => if x ∈ state.queue then some { state with queue := state.queue.erase x } else none

def enqueued : List (Op α) → List α
  | [] => []
  | .enqueue x :: ops => x :: enqueued ops
  | .dequeue :: ops => enqueued ops
  | .delete _ :: ops => enqueued ops

def deleted : List (Op α) → List α
  | [] => []
  | .enqueue _ :: ops => deleted ops
  | .dequeue :: ops => deleted ops
  | .delete x :: ops => x :: deleted ops

variable {state after : State α} {x : α} {ops : List (Op α)}

theorem step_enqueue (stepped : step state (.enqueue x) = some after) :
    x ∉ state.queue ∧ after = { state with queue := state.queue ++ [x] } := by
  simp only [step] at stepped
  split at stepped
  · simp at stepped
  · rename_i absent
    exact ⟨absent, (Option.some.inj stepped).symm⟩

theorem step_dequeue (stepped : step state .dequeue = some after) :
    ∃ x, state.queue = x :: after.queue ∧ after.served = state.served ++ [x] := by
  simp only [step] at stepped
  split at stepped
  · simp at stepped
  · rename_i x rest waiting
    cases stepped
    exact ⟨x, waiting, rfl⟩

theorem step_delete (stepped : step state (.delete x) = some after) :
    x ∈ state.queue ∧ after = { state with queue := state.queue.erase x } := by
  simp only [step] at stepped
  split at stepped
  · rename_i member
    exact ⟨member, (Option.some.inj stepped).symm⟩
  · simp at stepped

theorem served_in_order (reached : Execution.run step state ops = some after) :
    (after.served ++ after.queue).Sublist (state.served ++ state.queue ++ enqueued ops) := by
  induction ops generalizing state with
  | nil =>
      cases reached
      simp [enqueued]
  | cons op ops ih =>
      obtain ⟨middle, stepped, rest⟩ := Execution.run_cons_eq_some.mp reached
      have behind := ih rest
      cases op with
      | enqueue x =>
          obtain ⟨_, rfl⟩ := step_enqueue stepped
          simpa [enqueued] using behind
      | dequeue =>
          obtain ⟨x, waiting, served⟩ := step_dequeue stepped
          rw [served] at behind
          rw [waiting]
          simpa [enqueued] using behind
      | delete x =>
          obtain ⟨_, rfl⟩ := step_delete stepped
          apply behind.trans
          simp only [enqueued, List.append_assoc]
          apply List.Sublist.append_left
          exact List.Sublist.append_right List.erase_sublist _

theorem served_exactly_once (reached : Execution.run step state ops = some after) :
    (after.served ++ after.queue ++ deleted ops).Perm
      (state.served ++ state.queue ++ enqueued ops) := by
  induction ops generalizing state with
  | nil =>
      cases reached
      simp [enqueued, deleted]
  | cons op ops ih =>
      obtain ⟨middle, stepped, rest⟩ := Execution.run_cons_eq_some.mp reached
      have behind := ih rest
      cases op with
      | enqueue x =>
          obtain ⟨_, rfl⟩ := step_enqueue stepped
          simpa [enqueued, deleted] using behind
      | dequeue =>
          obtain ⟨x, waiting, served⟩ := step_dequeue stepped
          rw [served] at behind
          rw [waiting]
          simpa [enqueued, deleted] using behind
      | delete x =>
          obtain ⟨member, rfl⟩ := step_delete stepped
          have moved : (after.served ++ after.queue ++ x :: deleted ops).Perm
              (x :: (state.served ++ state.queue.erase x ++ enqueued ops)) :=
            List.perm_middle.trans (behind.cons x)
          have restored : (x :: (state.served ++ state.queue.erase x ++ enqueued ops)).Perm
              (state.served ++ state.queue ++ enqueued ops) := by
            rw [List.append_assoc, List.append_assoc]
            apply List.perm_middle.symm.trans
            apply List.Perm.append_left
            exact (List.perm_cons_erase member).symm.append_right _
          exact moved.trans restored

end Fifo
