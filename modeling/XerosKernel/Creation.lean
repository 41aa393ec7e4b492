import XerosKernel.LocalCalls
import XerosKernel.Runs

/-!
`create` in full: the slots that its loop looks at, the process that it adds, and the two ways in
which it fails.
-/

namespace XerosKernel

open IntrusiveList

section Search

variable {kernel : Kernel} {nextpid : Word}

/-- The slot in round `k` of the loop of `create`. -/
def slotAfter (nextpid : Word) (k : Nat) : Slot := Fin.ofNat MAX_PROC (nextpid.toNat + k)

theorem slotAfter_val (nextpid : Word) (k : Nat) :
    (slotAfter nextpid k).val = (nextpid.toNat + k) % 64 := rfl

theorem slotOf_val (pid : Word) : (slotOf pid).val = pid.toNat % 64 := rfl

theorem slotOf_add (nextpid : Word) (k : Nat) :
    slotOf (nextpid + BitVec.ofNat 32 k) = slotAfter nextpid k := by
  apply Fin.ext
  rw [slotAfter_val, slotOf_val, BitVec.toNat_add, BitVec.toNat_ofNat]
  omega

theorem slotAfter_surjective (nextpid : Word) (i : Slot) :
    ∃ k, 1 ≤ k ∧ k ≤ MAX_PROC ∧ slotAfter nextpid k = i := by
  have below : i.val < 64 := i.isLt
  have last : (i.val + 63 - nextpid.toNat % 64) % 64 + 1 ≤ 64 := by omega
  refine ⟨(i.val + 63 - nextpid.toNat % 64) % 64 + 1, by omega, last, Fin.ext ?_⟩
  rw [slotAfter_val]
  omega

theorem add_succ_ofNat (nextpid : Word) (k : Nat) :
    nextpid + 1 + BitVec.ofNat 32 k = nextpid + BitVec.ofNat 32 (k + 1) := by
  rw [BitVec.add_assoc, BitVec.ofNat_add, BitVec.add_comm 1]
  rfl

theorem slotAfter_succ (nextpid : Word) (k : Nat) :
    slotAfter (nextpid + 1) k = slotAfter nextpid (k + 1) := by
  rw [← slotOf_add, ← slotOf_add, add_succ_ofNat]

structure FirstFree (kernel : Kernel) (k : Nat) : Prop where
  positive : 1 ≤ k
  bounded : k ≤ MAX_PROC
  free : (kernel.proctab (slotAfter kernel.nextpid k)).state = .stopped
  first : ∀ j, 1 ≤ j → j < k → (kernel.proctab (slotAfter kernel.nextpid j)).state ≠ .stopped

theorem createSearch_busy (fuel : Nat) (nextpid : Word)
    (busy : ∀ j, 1 ≤ j → j ≤ fuel → (kernel.proctab (slotAfter nextpid j)).state ≠ .stopped) :
    createSearch kernel fuel nextpid = (nextpid + BitVec.ofNat 32 fuel, none) := by
  induction fuel generalizing nextpid with
  | zero => simp [createSearch]
  | succ fuel ih =>
      have here : (kernel.proctab (slotOf (nextpid + 1))).state ≠ .stopped := by
        have first := busy 1 (Nat.le_refl 1) (by omega)
        rwa [← slotOf_add] at first
      have rest : ∀ j, 1 ≤ j → j ≤ fuel →
          (kernel.proctab (slotAfter (nextpid + 1) j)).state ≠ .stopped := by
        intro j positive bounded
        rw [slotAfter_succ]
        exact busy (j + 1) (by omega) (by omega)
      simp only [createSearch, if_neg here]
      rw [ih (nextpid + 1) rest, add_succ_ofNat]

theorem createSearch_finds {fuel k : Nat} (positive : 1 ≤ k) (bounded : k ≤ fuel)
    (free : (kernel.proctab (slotAfter nextpid k)).state = .stopped)
    (first : ∀ j, 1 ≤ j → j < k → (kernel.proctab (slotAfter nextpid j)).state ≠ .stopped) :
    createSearch kernel fuel nextpid =
      (nextpid + BitVec.ofNat 32 k, some (slotAfter nextpid k)) := by
  induction fuel generalizing nextpid k with
  | zero => omega
  | succ fuel ih =>
      by_cases last : k = 1
      · subst last
        rw [← slotOf_add] at free ⊢
        have here : (kernel.proctab (slotOf (nextpid + 1))).state = .stopped := free
        simp only [createSearch, if_pos here]
        rfl
      · have here : (kernel.proctab (slotOf (nextpid + 1))).state ≠ .stopped := by
          have busy := first 1 (Nat.le_refl 1) (by omega)
          rwa [← slotOf_add] at busy
        obtain ⟨before, rfl⟩ : ∃ before, k = before + 1 := ⟨k - 1, by omega⟩
        have rest : ∀ j, 1 ≤ j → j < before →
            (kernel.proctab (slotAfter (nextpid + 1) j)).state ≠ .stopped := by
          intro j positive below
          rw [slotAfter_succ]
          exact first (j + 1) (by omega) (by omega)
        rw [← slotAfter_succ] at free
        simp only [createSearch, if_neg here]
        rw [ih (by omega) (by omega) free rest, add_succ_ofNat, slotAfter_succ]

theorem FirstFree.search {k : Nat} (free : FirstFree kernel k) :
    createSearch kernel MAX_PROC kernel.nextpid =
      (kernel.nextpid + BitVec.ofNat 32 k, some (slotAfter kernel.nextpid k)) :=
  createSearch_finds free.positive free.bounded free.free free.first

theorem firstFree_or_busy (kernel : Kernel) :
    (∃ k, FirstFree kernel k) ∨ ∀ i, (kernel.proctab i).state ≠ .stopped := by
  by_cases some : ∃ k, 1 ≤ k ∧ k ≤ MAX_PROC ∧
      (kernel.proctab (slotAfter kernel.nextpid k)).state = .stopped
  · refine Or.inl ⟨Nat.find some, ?_⟩
    obtain ⟨positive, bounded, free⟩ := Nat.find_spec some
    refine ⟨positive, bounded, free, fun j jPositive below isFree => ?_⟩
    exact Nat.find_min some below ⟨jPositive, by omega, isFree⟩
  · refine Or.inr fun i isFree => some ?_
    obtain ⟨k, positive, bounded, rfl⟩ := slotAfter_surjective kernel.nextpid i
    exact ⟨k, positive, bounded, isFree⟩

end Search

section Create

variable {env : Env} {kernel kernel' : Kernel} {fp stackSize block : Word} {heap : Heap} {k : Nat}

/-- `kernel'` is `kernel` with a new process in slot `i`, which the loop finds in round `k`. -/
structure Adds (kernel kernel' : Kernel) (k : Nat) (i : Slot) : Prop where
  found : FirstFree kernel k
  nextpid : kernel'.nextpid = kernel.nextpid + BitVec.ofNat 32 k
  slot : i = slotAfter kernel.nextpid k
  pid : (kernel'.proctab i).pid = kernel.nextpid + BitVec.ofNat 32 k
  index : (kernel'.proctab i).pid.toNat % MAX_PROC = i.val
  state : (kernel'.proctab i).state = .ready
  others : ∀ j ≠ i, kernel'.proctab j =
    if kernel.tail = some j then { kernel.proctab j with next := some i } else kernel.proctab j
  appended : kernel.tail ≠ some i → Appended kernel kernel' [i]
  queue : ∀ rq, ReadyQueue kernel rq → (ReadyQueue kernel' (rq ++ [i]) ↔ i ∉ rq)

theorem ready_appended {p : Slot} (notLast : kernel.tail ≠ some p) :
    Appended kernel (ready kernel p) [p] where
  tail := rfl
  chain := by
    intro _
    have last : (ready kernel p).link p = none := by
      rw [ready_link, if_neg notLast, if_pos rfl]
    refine ⟨?_, last⟩
    cases isTail : kernel.tail with
    | none => rw [Option.elim_none, ready_head, if_pos isTail]
    | some t => rw [Option.elim_some, ready_link, if_pos isTail]
  head := by
    rintro (more | none)
    · rw [ready_head, if_neg more]
    · cases none
  others := by
    rintro i notIn (other | none)
    · rw [ready_link, if_neg other, if_neg (by simpa using notIn)]
    · cases none

theorem ready_queue_iff {p : Slot} {rq : List Slot} (queue : ReadyQueue kernel rq) :
    ReadyQueue (ready kernel p) (rq ++ [p]) ↔ p ∉ rq := by
  constructor
  · intro queue' isIn
    exact (List.nodup_append.mp queue'.nodup).2.2 p isIn p (by simp) rfl
  · exact queue.append

theorem adds_of_ready {base : Kernel} {i : Slot} {esp pid : Word} (found : FirstFree kernel k)
    (nextpid : base.nextpid = kernel.nextpid + BitVec.ofNat 32 k)
    (slot : i = slotAfter kernel.nextpid k) (outside : Outside kernel base)
    (isPid : pid = kernel.nextpid + BitVec.ofNat 32 k) :
    Adds kernel (ready (base.modify i fun pcb =>
      { pcb with esp := esp, state := .ready, pid := pid }) i) k i := by
  generalize filled : base.modify i (fun pcb =>
    { pcb with esp := esp, state := .ready, pid := pid }) = middle
  have tail : middle.tail = kernel.tail := by rw [← filled, Kernel.modify_tail, outside.tail]
  have head : middle.head = kernel.head := by rw [← filled, Kernel.modify_head, outside.head]
  have link : ∀ j, middle.link j = kernel.link j := by
    intro j
    rw [← filled, Kernel.link, Kernel.modify_same base i (fun pcb =>
      { pcb with esp := esp, state := .ready, pid := pid }) (·.next) rfl, outside.table]
    rfl
  have number : ((ready middle i).proctab i).pid = kernel.nextpid + BitVec.ofNat 32 k := by
    rw [ready_proctab, ← filled, Kernel.modify_proctab, if_pos rfl, isPid]
  exact {
    found := found
    nextpid := by rw [ready_nextpid, ← filled, Kernel.modify_nextpid, nextpid]
    slot := slot
    pid := number
    index := by
      rw [number, slot, ← slotOf_add]
      rfl
    state := by simp [ready_proctab]
    others := by
      intro j other
      have same : middle.proctab j = kernel.proctab j := by
        rw [← filled, Kernel.modify_proctab, if_neg other, outside.table]
      rw [ready_proctab, tail, same, if_neg other, if_neg other]
      split <;> rfl
    appended := by
      intro notLast
      rw [← tail] at notLast
      have appended := ready_appended notLast
      refine ⟨appended.tail.trans (by rw [tail]), ?_, ?_, ?_⟩
      · rw [← tail]
        exact appended.chain
      · rw [← tail, ← head]
        exact appended.head
      · intro j notIn
        rw [← tail, ← link]
        exact appended.others j notIn
    queue := fun rq queue => ready_queue_iff (queue.congr head tail fun j _ => link j) }

theorem create_busy (busy : ∀ i, (kernel.proctab i).state ≠ .stopped) :
    create env kernel fp stackSize = some (CREATE_FAILURE,
      { kernel with nextpid := kernel.nextpid + BitVec.ofNat 32 MAX_PROC }) := by
  have search := createSearch_busy MAX_PROC kernel.nextpid
    fun j _ _ => busy (slotAfter kernel.nextpid j)
  simp only [create, search]

theorem create_found (env : Env) (fp : Word) (found : FirstFree kernel k)
    (allocated : kmalloc kernel.heap (stackNeed stackSize) = some (block, heap)) :
    if block = 0 then create env kernel fp stackSize = some (CREATE_FAILURE,
      { kernel with nextpid := kernel.nextpid + BitVec.ofNat 32 k, heap := heap })
    else ∃ base esp, base.nextpid = kernel.nextpid + BitVec.ofNat 32 k ∧ Outside kernel base ∧
      create env kernel fp stackSize = some (kernel.nextpid + BitVec.ofNat 32 k,
        ready (base.modify (slotAfter kernel.nextpid k) fun pcb =>
          { pcb with esp := esp, state := .ready, pid := kernel.nextpid + BitVec.ofNat 32 k })
          (slotAfter kernel.nextpid k)) := by
  simp only [create, found.search, allocated]
  split
  · rfl
  · refine ⟨_, _, ?_, ?_, rfl⟩
    · rfl
    · exact ⟨rfl, rfl, rfl, rfl, rfl, rfl⟩

theorem create_all_or_nothing (env : Env) (kernel : Kernel) (fp stackSize : Word) {block : Word}
    {heap : Heap} (allocated : kmalloc kernel.heap (stackNeed stackSize) = some (block, heap)) :
    ((∀ i, (kernel.proctab i).state ≠ .stopped) ∨ block = 0 →
      ∃ kernel', create env kernel fp stackSize = some (CREATE_FAILURE, kernel') ∧
        kernel'.proctab = kernel.proctab ∧ kernel'.head = kernel.head ∧
        kernel'.tail = kernel.tail) ∧
    (¬ ((∀ i, (kernel.proctab i).state ≠ .stopped) ∨ block = 0) →
      ∃ kernel' k i, create env kernel fp stackSize =
        some (kernel.nextpid + BitVec.ofNat 32 k, kernel') ∧ Adds kernel kernel' k i) := by
  rcases firstFree_or_busy kernel with ⟨k, found⟩ | busy
  · have free : ¬ ∀ i, (kernel.proctab i).state ≠ .stopped := fun busy => busy _ found.free
    have result := create_found env fp found allocated
    by_cases none : block = 0
    · rw [if_pos none] at result
      exact ⟨fun _ => ⟨_, result, rfl, rfl, rfl⟩, fun some => absurd (Or.inr none) some⟩
    · rw [if_neg none] at result
      obtain ⟨base, esp, counter, outside, created⟩ := result
      exact ⟨fun fails => absurd fails (not_or.mpr ⟨free, none⟩),
        fun _ => ⟨_, k, _, created, adds_of_ready found counter rfl outside rfl⟩⟩
  · refine ⟨fun _ => ⟨_, create_busy busy, rfl, rfl, rfl⟩, fun some => absurd (Or.inl busy) some⟩

end Create

theorem create_adds_fourth : ∃ d kernel' k i, Reaches sampleEnv anyRequest creatorRun d ∧
    create sampleEnv d.kernel 0x5000 0 =
      some (d.kernel.nextpid + BitVec.ofNat 32 k, kernel') ∧ Adds d.kernel kernel' k i := by
  obtain ⟨d, reaches, free, ⟨block, heap⟩, allocated, nonzero⟩ := reaches_of_check sampleEnv
    anyRequest creatorRun (fun d => (d.kernel.proctab 4).state = .stopped ∧
      ∃ result ∈ kmalloc d.kernel.heap (stackNeed 0), result.1 ≠ 0) (by decide +kernel)
  have fits : ¬ ((∀ i, (d.kernel.proctab i).state ≠ .stopped) ∨ block = 0) :=
    not_or.mpr ⟨fun busy => busy 4 free, nonzero⟩
  obtain ⟨kernel', k, i, created, adds⟩ :=
    (create_all_or_nothing sampleEnv d.kernel 0x5000 0 allocated).2 fits
  exact ⟨d, kernel', k, i, reaches, created, adds⟩

end XerosKernel
