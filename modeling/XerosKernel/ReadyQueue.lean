import Mathlib.Data.Fintype.Card
import XerosKernel.IntrusiveList
import XerosKernel.SchedulerCore

/-!
The ready queue as a list. `ready` appends, `next` takes the first process and
`removeFromReady` deletes one, and each leaves every other field of the table alone.
-/

namespace XerosKernel

open IntrusiveList

/-! What the three operations do to the table. -/

section Ready

variable (kernel : Kernel) (p i : Slot)

@[simp] theorem ready_proctab : (ready kernel p).proctab i =
    { kernel.proctab i with
      next := if kernel.tail = some i then some p
        else if i = p then none else (kernel.proctab i).next
      state := if i = p then .ready else (kernel.proctab i).state } := by
  cases tail : kernel.tail with
  | none => by_cases same : i = p <;> simp [ready, tail, same]
  | some last =>
      by_cases behind : i = last
      · subst behind
        by_cases same : i = p <;> simp [ready, tail, same]
      · have other : last ≠ i := fun equal => behind equal.symm
        by_cases same : i = p
        · subst same
          simp [ready, tail, behind, other]
        · simp [ready, tail, behind, other, same]

@[simp] theorem ready_head :
    (ready kernel p).head = if kernel.tail = none then some p else kernel.head := by
  cases tail : kernel.tail <;> simp [ready, tail]

@[simp] theorem ready_tail : (ready kernel p).tail = some p := rfl

@[simp] theorem ready_sleepQ : (ready kernel p).sleepQ = kernel.sleepQ := by
  cases tail : kernel.tail <;> simp [ready, tail]

@[simp] theorem ready_nextpid : (ready kernel p).nextpid = kernel.nextpid := by
  cases tail : kernel.tail <;> simp [ready, tail]

@[simp] theorem ready_heap : (ready kernel p).heap = kernel.heap := by
  cases tail : kernel.tail <;> simp [ready, tail]

@[simp] theorem ready_mem : (ready kernel p).mem = kernel.mem := by
  cases tail : kernel.tail <;> simp [ready, tail]

@[simp] theorem ready_kbd : (ready kernel p).kbd = kernel.kbd := by
  cases tail : kernel.tail <;> simp [ready, tail]

@[simp] theorem ready_seed : (ready kernel p).seed = kernel.seed := by
  cases tail : kernel.tail <;> simp [ready, tail]

@[simp] theorem ready_accepted : (ready kernel p).accepted = kernel.accepted := by
  cases tail : kernel.tail <;> simp [ready, tail]

@[simp] theorem ready_pushed : (ready kernel p).pushed = kernel.pushed := by
  cases tail : kernel.tail <;> simp [ready, tail]

theorem ready_link : (ready kernel p).link i =
    if kernel.tail = some i then some p else if i = p then none else kernel.link i := by
  simp [Kernel.link]

end Ready

def popped (kernel : Kernel) (p : Slot) : Kernel :=
  ({ kernel with
    head := kernel.link p
    tail := if kernel.link p = none then none else kernel.tail }).modify p
      fun pcb => { pcb with next := none, prev := none }

theorem next_eq (kernel : Kernel) : next kernel = kernel.head.map fun p => (popped kernel p, p) := by
  cases head : kernel.head with
  | none => simp [next, head]
  | some p => by_cases alone : (kernel.proctab p).next = none <;>
      simp [next, head, popped, Kernel.link, alone]

/-! The list behind the pointers. -/

/-- The ready queue holds `rq`, from `head` to `tail`. -/
structure ReadyQueue (kernel : Kernel) (rq : List Slot) : Prop where
  chain : Chain kernel.link kernel.head rq
  last : kernel.tail = rq.getLast?

namespace ReadyQueue

variable {kernel kernel' : Kernel} {p : Slot} {rq : List Slot}

theorem nodup (queue : ReadyQueue kernel rq) : rq.Nodup := queue.chain.nodup

theorem congr (queue : ReadyQueue kernel rq) (head : kernel'.head = kernel.head)
    (tail : kernel'.tail = kernel.tail) (link : ∀ i ∈ rq, kernel'.link i = kernel.link i) :
    ReadyQueue kernel' rq where
  chain := by
    rw [head]
    exact queue.chain.congr link
  last := tail.trans queue.last

theorem empty (queue : ReadyQueue kernel []) : kernel.head = none ∧ kernel.tail = none :=
  ⟨queue.chain, queue.last⟩

theorem append (queue : ReadyQueue kernel rq) (absent : p ∉ rq) :
    ReadyQueue (ready kernel p) (rq ++ [p]) := by
  refine ⟨?_, by simp⟩
  rcases List.eq_nil_or_concat rq with rfl | ⟨front, last, rfl⟩
  · have tail : kernel.tail = none := queue.last
    simp [ready_link, tail]
  · rw [List.concat_eq_append] at queue absent ⊢
    have tail : kernel.tail = some last := by simpa using queue.last
    have unique := queue.nodup
    have lastAbsent : last ∉ front := by
      intro member
      exact (List.nodup_append.mp unique).2.2 last member last (by simp) rfl
    have pAbsent : p ∉ front ∧ p ≠ last := by simpa using absent
    have chain : Chain kernel.link (ready kernel p).head (front ++ [last]) := by
      rw [ready_head, if_neg (by simp [tail])]
      exact queue.chain
    rw [List.append_assoc]
    refine chain.snoc ?_ ?_ ?_
    · simp [ready_link, tail]
    · rw [ready_link, if_neg, if_pos rfl]
      simp [tail, pAbsent.2.symm]
    · intro node member
      have notLast : last ≠ node := fun equal => lastAbsent (equal ▸ member)
      have notFresh : node ≠ p := fun equal => pAbsent.1 (equal ▸ member)
      simp [ready_link, tail, notLast, notFresh]

theorem next_cons (queue : ReadyQueue kernel (p :: rq)) :
    next kernel = some (popped kernel p, p) ∧ ReadyQueue (popped kernel p) rq := by
  have unique := List.nodup_cons.mp queue.nodup
  refine ⟨by rw [next_eq, queue.chain.1]; rfl, ?_, ?_⟩
  · refine Seg.congr ?_ queue.chain.2
    intro node member
    have different : node ≠ p := fun equal => unique.1 (equal ▸ member)
    simp [popped, Kernel.link, different]
  · cases rq with
    | nil =>
        have ends : kernel.link p = none := queue.chain.2
        simp [popped, ends]
    | cons behind rest =>
        have more : kernel.link p = some behind := queue.chain.2.1
        have tail := queue.last
        simpa [popped, more] using tail

theorem next_nil (queue : ReadyQueue kernel []) : next kernel = none := by
  rw [next_eq, queue.empty.1]
  rfl

end ReadyQueue

structure Appended (kernel kernel' : Kernel) (woken : List Slot) : Prop where
  tail : kernel'.tail = woken.getLast?.or kernel.tail
  chain : woken ≠ [] → Chain kernel'.link (kernel.tail.elim kernel'.head kernel'.link) woken
  head : kernel.tail ≠ none ∨ woken = [] → kernel'.head = kernel.head
  others : ∀ i ∉ woken, kernel.tail ≠ some i ∨ woken = [] → kernel'.link i = kernel.link i

namespace Appended

variable {kernel kernel' : Kernel} {rq woken : List Slot}

theorem refl : Appended kernel kernel [] :=
  ⟨rfl, fun more => absurd rfl more, fun _ => rfl, fun _ _ _ => rfl⟩

theorem readyQueue (appended : Appended kernel kernel' woken) (queue : ReadyQueue kernel rq)
    (apart : ∀ i ∈ rq, i ∉ woken) : ReadyQueue kernel' (rq ++ woken) := by
  rcases eq_or_ne woken [] with rfl | more
  · rw [List.append_nil]
    refine queue.congr (appended.head (Or.inr rfl)) appended.tail ?_
    exact fun i _ => appended.others i (by simp) (Or.inr rfl)
  · have last : (rq ++ woken).getLast? = woken.getLast?.or rq.getLast? :=
      List.getLast?_append
    refine ⟨?_, by rw [appended.tail, last, queue.last]⟩
    have behind := appended.chain more
    rcases List.eq_nil_or_concat rq with rfl | ⟨front, t, rfl⟩
    · rw [queue.empty.2] at behind
      exact behind
    · rw [List.concat_eq_append] at *
      have isLast : kernel.tail = some t := by simpa using queue.last
      rw [isLast] at behind
      obtain ⟨middle, before, here⟩ := seg_append.mp queue.chain
      have unique := List.nodup_append.mp queue.nodup
      rw [List.append_assoc, appended.head (Or.inl (by simp [isLast]))]
      refine seg_append.mpr ⟨middle, before.congr ?_, here.1, behind⟩
      intro i inFront
      refine appended.others i (apart i (by simp [inFront])) (Or.inl ?_)
      intro same
      rw [isLast, Option.some.injEq] at same
      exact unique.2.2 i inFront t (by simp) same.symm

end Appended

/-! Searching. -/

/-- On a list that ends, the loop stops: at the node in front of the target if the target is
on the rest of the list, and at the end otherwise. -/
theorem searchFrom_of_chain {kernel : Kernel} (target prev : Slot) {curr : Option Slot}
    {rest : List Slot} {fuel : Nat} (chain : Chain kernel.link curr rest)
    (enough : rest.length < fuel) :
    (target ∉ rest ∧ searchFrom kernel target fuel prev curr = some none) ∨
      ∃ front before back, prev :: rest = front ++ before :: target :: back ∧
        searchFrom kernel target fuel prev curr = some (some before) := by
  induction rest generalizing fuel prev curr with
  | nil =>
      cases fuel with
      | zero => simp at enough
      | succ fuel =>
          rw [seg_nil.mp chain]
          exact Or.inl ⟨by simp, rfl⟩
  | cons node rest ih =>
      cases fuel with
      | zero => simp at enough
      | succ fuel =>
          rw [chain.1]
          simp only [searchFrom]
          by_cases found : node = target
          · subst found
            exact Or.inr ⟨[], prev, rest, by simp, by simp⟩
          · have shorter : rest.length < fuel := by
              simp only [List.length_cons] at enough
              omega
            rw [if_neg found]
            rcases ih node chain.2 shorter with ⟨absent, stop⟩ | found'
            · exact Or.inl ⟨by simp [absent, Ne.symm found], stop⟩
            · obtain ⟨front, before, back, split, stop⟩ := found'
              exact Or.inr ⟨prev :: front, before, back, by simp [split], stop⟩

theorem length_lt_loopFuel {nodes : List Slot} (unique : nodes.Nodup) :
    nodes.length < loopFuel := by
  have bound := unique.length_le_card
  simp only [Fintype.card_fin] at bound
  exact Nat.lt_succ_of_le bound

def Pcb.unlinked (pcb : Pcb) : Pcb := { pcb with next := none, prev := none, sleepdiff := 0 }

/-- What is left of a kernel when all that its queues store is cleared. Two kernels that
agree here differ at most in the order and the extent of the queues. -/
def Kernel.unlinked (kernel : Kernel) : Kernel :=
  { kernel with
    proctab := fun i => (kernel.proctab i).unlinked
    head := none
    tail := none
    sleepQ := none }

section Unlinked

variable (kernel : Kernel) (p : Slot)

theorem modify_unlinked (write write' : Pcb → Pcb)
    (same : (write (kernel.proctab p)).unlinked = write' (kernel.proctab p).unlinked) :
    (kernel.modify p write).unlinked = kernel.unlinked.modify p write' := by
  have table : (kernel.modify p write).unlinked.proctab =
      (kernel.unlinked.modify p write').proctab := by
    funext i
    by_cases at_p : i = p
    · subst at_p
      simpa [Kernel.unlinked] using same
    · simp [Kernel.unlinked, at_p]
  simp only [Kernel.unlinked, Kernel.modify] at table ⊢
  rw [table]

theorem modify_id : kernel.modify p (fun pcb => pcb) = kernel := by
  have table : (kernel.modify p fun pcb => pcb).proctab = kernel.proctab := by
    funext i
    by_cases at_p : i = p <;> simp [at_p]
  simp only [Kernel.modify] at table ⊢
  rw [table]

theorem modify_links (write : Pcb → Pcb) (same : ∀ pcb, (write pcb).unlinked = pcb.unlinked) :
    (kernel.modify p write).unlinked = kernel.unlinked := by
  rw [modify_unlinked kernel p write (fun pcb => pcb) (same _), modify_id]

theorem ready_unlinked : (ready kernel p).unlinked =
    kernel.unlinked.modify p fun pcb => { pcb with state := .ready } := by
  have state := modify_unlinked kernel p (fun pcb => { pcb with next := none, state := .ready })
    (fun pcb => { pcb with state := .ready }) rfl
  rw [← state]
  cases tail : kernel.tail with
  | none =>
      simp only [ready, Kernel.modify_tail, tail]
      rfl
  | some last =>
      simp only [ready, Kernel.modify_tail, tail]
      exact modify_links _ last (fun pcb => { pcb with next := some p }) fun _ => rfl

theorem popped_unlinked : (popped kernel p).unlinked = kernel.unlinked :=
  modify_links _ p (fun pcb => { pcb with next := none, prev := none }) fun _ => rfl

end Unlinked

namespace ReadyQueue

variable {kernel : Kernel} {p : Slot} {rq : List Slot}

def dropFront (kernel : Kernel) (p : Slot) : Kernel :=
  { kernel with
    head := kernel.link p
    tail := if kernel.link p = none then none else kernel.tail }

def bypass (kernel : Kernel) (prev p : Slot) : Kernel :=
  ({ kernel.modify prev fun pcb => { pcb with next := kernel.link p } with
    tail := if kernel.tail = some p then some prev else kernel.tail }).modify p
      fun pcb => { pcb with next := none }

theorem bypass_unlinked (kernel : Kernel) (prev p : Slot) :
    (bypass kernel prev p).unlinked = kernel.unlinked := by
  have first := modify_links kernel prev (fun pcb => { pcb with next := kernel.link p })
    fun _ => rfl
  exact (modify_links _ p (fun pcb => { pcb with next := none }) fun _ => rfl).trans first

theorem bypass_sleepdiff (kernel : Kernel) (prev p i : Slot) :
    ((bypass kernel prev p).proctab i).sleepdiff = (kernel.proctab i).sleepdiff := by
  have first := Kernel.modify_same kernel prev (fun pcb => { pcb with next := kernel.link p })
    (·.sleepdiff) rfl i
  exact (Kernel.modify_same _ p (fun pcb => { pcb with next := none }) (·.sleepdiff) rfl i).trans
    first

theorem removeFromReady_bypass {first prev : Slot} (head : kernel.head = some first)
    (other : first ≠ p)
    (search : searchFrom kernel p loopFuel first (kernel.link first) = some (some prev)) :
    removeFromReady kernel p = some (bypass kernel prev p) := by
  simp only [removeFromReady, head, if_neg other]
  rw [show (kernel.proctab first).next = kernel.link first from rfl, search]
  by_cases isLast : kernel.tail = some p <;>
    simp [bypass, Kernel.link, Kernel.modify, isLast]

theorem dropFront_queue (queue : ReadyQueue kernel (p :: rq)) :
    ReadyQueue (dropFront kernel p) rq := by
  refine ⟨queue.chain.2, ?_⟩
  cases rq with
  | nil =>
      have ends : kernel.link p = none := queue.chain.2
      simp [dropFront, ends]
  | cons behind rest =>
      have more : kernel.link p = some behind := queue.chain.2.1
      have tail := queue.last
      simpa [dropFront, more] using tail

theorem bypass_queue {front back : List Slot} {prev : Slot}
    (queue : ReadyQueue kernel (front ++ prev :: p :: back)) :
    ReadyQueue (bypass kernel prev p) (front ++ prev :: back) := by
  have unique := queue.nodup
  rw [List.nodup_append] at unique
  obtain ⟨_, tailUnique, apart⟩ := unique
  obtain ⟨prevAbsent, tailUnique⟩ := List.nodup_cons.mp tailUnique
  obtain ⟨pAbsent, _⟩ := List.nodup_cons.mp tailUnique
  have different : prev ≠ p := fun equal => prevAbsent (by simp [equal])
  refine ⟨queue.chain.unlink ?_ ?_, ?_⟩
  · simp [bypass, Kernel.link, different]
  · intro other member
    have notPrev : other ≠ prev := by
      rintro rfl
      rcases List.mem_append.mp member with before | after
      · exact apart other before other (by simp) rfl
      · exact prevAbsent (by simp [after])
    have notP : other ≠ p := by
      rintro rfl
      rcases List.mem_append.mp member with before | after
      · exact apart other before other (by simp) rfl
      · exact pAbsent after
    simp [bypass, Kernel.link, notPrev, notP]
  · have tail := queue.last
    rcases List.eq_nil_or_concat back with rfl | ⟨middle, last, rfl⟩
    · have isLast : kernel.tail = some p := by simpa using tail
      simp [bypass, isLast]
    · rw [List.concat_eq_append] at tail pAbsent ⊢
      have before : front ++ prev :: p :: (middle ++ [last]) =
        (front ++ prev :: p :: middle) ++ [last] := by simp
      have after : front ++ prev :: (middle ++ [last]) = (front ++ prev :: middle) ++ [last] := by
        simp
      rw [before, List.getLast?_concat] at tail
      rw [after, List.getLast?_concat]
      have notLast : last ≠ p := fun equal => pAbsent (by simp [equal])
      simp [bypass, tail, notLast]

theorem remove (queue : ReadyQueue kernel rq) :
    ∃ kernel', removeFromReady kernel p = some kernel' ∧ ReadyQueue kernel' (rq.erase p) ∧
      kernel'.unlinked = kernel.unlinked ∧ kernel'.sleepQ = kernel.sleepQ ∧
      (∀ i, (kernel'.proctab i).sleepdiff = (kernel.proctab i).sleepdiff) ∧
      ∀ i ∉ rq, kernel'.link i = kernel.link i := by
  cases rq with
  | nil =>
      refine ⟨kernel, by simp [removeFromReady, queue.empty.1], ?_, rfl, rfl, fun _ => rfl,
        fun _ _ => rfl⟩
      simpa using queue
  | cons first rest =>
      have unique := List.nodup_cons.mp queue.nodup
      have head : kernel.head = some first := queue.chain.1
      by_cases front : first = p
      · subst front
        refine ⟨dropFront kernel first, ?_, ?_, rfl, rfl, fun _ => rfl, fun _ _ => rfl⟩
        · by_cases alone : (kernel.proctab first).next = none <;>
            simp [removeFromReady, head, dropFront, Kernel.link, alone]
        · simpa using queue.dropFront_queue
      · have enough : rest.length < loopFuel := length_lt_loopFuel unique.2
        rcases searchFrom_of_chain p first queue.chain.2 enough with
          ⟨absent, search⟩ | ⟨before, prev, back, split, search⟩
        · refine ⟨kernel, ?_, ?_, rfl, rfl, fun _ => rfl, fun _ _ => rfl⟩
          · simp only [removeFromReady, head, if_neg front]
            rw [show (kernel.proctab first).next = kernel.link first from rfl, search]
          · rw [List.erase_of_not_mem (by simp [absent, Ne.symm front])]
            exact queue
        · rw [split] at queue ⊢
          have erased : (before ++ prev :: p :: back).erase p = before ++ prev :: back := by
            have whole := queue.nodup
            rw [List.nodup_append] at whole
            have absent : p ∉ before := fun member => whole.2.2 p member p (by simp) rfl
            have different : prev ≠ p := fun equal =>
              (List.nodup_cons.mp whole.2.1).1 (by simp [equal])
            rw [List.erase_append_right _ absent, List.erase_cons_tail (by simpa using different)]
            simp
          refine ⟨bypass kernel prev p, removeFromReady_bypass head front search, ?_,
            bypass_unlinked kernel prev p, rfl, ?_, ?_⟩
          · rw [erased]
            exact queue.bypass_queue
          · exact bypass_sleepdiff kernel prev p
          · intro i absent
            have notPrev : i ≠ prev := fun equal => absent (by simp [equal])
            have notP : i ≠ p := fun equal => absent (by simp [equal])
            simp [bypass, Kernel.link, notPrev, notP]

end ReadyQueue

end XerosKernel
