import XerosKernel.Fifo
import XerosKernel.ReadyQueue
import XerosKernel.Runs

/-!
The ready queue refines a queue with deletion, over any sequence of its operations.
-/

namespace XerosKernel

open IntrusiveList Execution

inductive ReadyCall
  | ready (p : Slot)
  | next
  | removeFromReady (p : Slot)

def ReadyCall.op : ReadyCall → Fifo.Op Slot
  | .ready p => .enqueue p
  | .next => .dequeue
  | .removeFromReady p => .delete p

structure Scheduled where
  kernel : Kernel
  returned : List Slot

def Scheduled.step (s : Scheduled) : ReadyCall → Option Scheduled
  | .ready p => some { s with kernel := XerosKernel.ready s.kernel p }
  | .next => (XerosKernel.next s.kernel).map fun result =>
      { kernel := result.1, returned := s.returned ++ [result.2] }
  | .removeFromReady p => (XerosKernel.removeFromReady s.kernel p).map fun kernel =>
      { s with kernel }

def Scheduled.Refines (s : Scheduled) (fifo : Fifo.State Slot) : Prop :=
  ReadyQueue s.kernel fifo.queue ∧ s.returned = fifo.served

theorem readyCall_refines (s : Scheduled) (fifo : Fifo.State Slot) (call : ReadyCall)
    (fifo' : Fifo.State Slot) (refines : s.Refines fifo)
    (stepped : Fifo.step fifo call.op = some fifo') :
    ∃ s', s.step call = some s' ∧ s'.Refines fifo' := by
  obtain ⟨queue, same⟩ := refines
  cases call with
  | ready p =>
      obtain ⟨absent, rfl⟩ := Fifo.step_enqueue stepped
      exact ⟨_, rfl, queue.append absent, same⟩
  | next =>
      obtain ⟨p, waiting, served⟩ := Fifo.step_dequeue stepped
      rw [waiting] at queue
      obtain ⟨taken, behind⟩ := queue.next_cons
      refine ⟨⟨popped s.kernel p, s.returned ++ [p]⟩, ?_, behind, ?_⟩
      · rw [Scheduled.step, taken]
        rfl
      · rw [served, same]
  | removeFromReady p =>
      obtain ⟨_, rfl⟩ := Fifo.step_delete stepped
      obtain ⟨kernel', removed, behind, _⟩ := queue.remove (p := p)
      refine ⟨⟨kernel', s.returned⟩, ?_, behind, same⟩
      rw [Scheduled.step, removed]
      rfl

namespace ReadyQueue

variable {kernel : Kernel} {rq : List Slot}

theorem head_none (queue : ReadyQueue kernel rq) : kernel.head = none ↔ rq = [] := by
  rw [queue.chain.head_eq]
  exact List.head?_eq_none_iff

theorem tail_none (queue : ReadyQueue kernel rq) : kernel.tail = none ↔ rq = [] := by
  rw [queue.last]
  exact List.getLast?_eq_none_iff

theorem last_link (queue : ReadyQueue kernel rq) {last : Slot} (tail : kernel.tail = some last) :
    kernel.link last = none := by
  rw [queue.last] at tail
  obtain ⟨front, rfl⟩ := List.getLast?_eq_some_iff.mp tail
  obtain ⟨_, _, chain⟩ := seg_append.mp queue.chain
  exact chain.2

end ReadyQueue

/-- The queue is read along `next` from `head`; `ready` appends to it, `next` takes its first
process and `removeFromReady` deletes one, in any order, and processes that are not removed
are scheduled in the order they became ready. -/
theorem ready_queue_refines_fifo {kernel : Kernel} {rq : List Slot} {calls : List ReadyCall}
    {fifo : Fifo.State Slot} (queue : ReadyQueue kernel rq)
    (allowed : run Fifo.step ⟨rq, []⟩ (calls.map ReadyCall.op) = some fifo) :
    ∃ kernel', run Scheduled.step ⟨kernel, []⟩ calls = some ⟨kernel', fifo.served⟩ ∧
      Chain kernel'.link kernel'.head fifo.queue ∧
      (kernel'.head = none ↔ fifo.queue = []) ∧ (kernel'.tail = none ↔ fifo.queue = []) ∧
      (∀ last, fifo.queue.getLast? = some last →
        kernel'.tail = some last ∧ kernel'.link last = none) ∧
      (fifo.served ++ fifo.queue).Sublist (rq ++ Fifo.enqueued (calls.map ReadyCall.op)) ∧
      (fifo.served ++ fifo.queue ++ Fifo.deleted (calls.map ReadyCall.op)).Perm
        (rq ++ Fifo.enqueued (calls.map ReadyCall.op)) := by
  have related : Scheduled.Refines ⟨kernel, []⟩ ⟨rq, []⟩ := ⟨queue, rfl⟩
  obtain ⟨⟨kernel', returned⟩, reached, behind, same⟩ :=
    run_refines readyCall_refines related allowed
  have served : returned = fifo.served := same
  subst served
  refine ⟨kernel', reached, behind.chain, behind.head_none, behind.tail_none, ?_, ?_, ?_⟩
  · intro last isLast
    have tail : kernel'.tail = some last := behind.last.trans isLast
    exact ⟨tail, behind.last_link tail⟩
  · simpa using Fifo.served_in_order allowed
  · simpa using Fifo.served_exactly_once allowed

def sampleCalls : List ReadyCall :=
  [.ready 0, .ready 1, .ready 2, .removeFromReady 1, .ready 1, .next, .removeFromReady 1,
    .removeFromReady 2]

theorem ready_queue_refines_fifo_sample :
    ∃ kernel', run Scheduled.step ⟨dispatchinit sampleEnv (kmeminit sampleEnv), []⟩ sampleCalls =
        some ⟨kernel', [0]⟩ ∧
      kernel'.head = none ∧ kernel'.tail = none := by
  have allowed : run Fifo.step ⟨[], []⟩ (sampleCalls.map ReadyCall.op) = some ⟨[], [0]⟩ := by
    decide
  have queue : ReadyQueue (dispatchinit sampleEnv (kmeminit sampleEnv)) [] := ⟨rfl, rfl⟩
  obtain ⟨kernel', reached, _, head, tail, _⟩ := ready_queue_refines_fifo queue allowed
  exact ⟨kernel', reached, head.mpr rfl, tail.mpr rfl⟩

end XerosKernel
