import XerosKernel.Freeing

/-!
Pointers that `kfree` should not get: never allocated, or given back before. The header of a block
on the free list still passes the sanity check, so only the head of the list is recognized.
-/

namespace XerosKernel

open Execution HeapState IntrusiveList

/-- The tests of `kfree` refuse the pointer, or there is nothing that its block could be compared
with but itself. -/
def Harmless (env : Env) (heap : Heap) (ptr : Word) : Prop :=
  kfreeRejects env ptr ∨
    heap.sanity (ptr - sizeofMemHeader) ≠ heap.size (ptr - sizeofMemHeader) + 16 ∨
    ptr - sizeofMemHeader = heap.memSlot ∨ heap.memSlot = 0

instance (env : Env) (heap : Heap) (ptr : Word) : Decidable (Harmless env heap ptr) :=
  inferInstanceAs (Decidable (_ ∨ _))

def FreesHarmlessly (env : Env) (state : HeapState) (call : HeapCall) : Prop :=
  Owned state call ∨ ∃ ptr, call = .free ptr ∧ Harmless env state.heap ptr

instance (env : Env) (state : HeapState) : (call : HeapCall) →
    Decidable (FreesHarmlessly env state call)
  | .malloc _ => isTrue (Or.inl trivial)
  | .free ptr => decidable_of_iff (Owned state (.free ptr) ∨ Harmless env state.heap ptr) (by
      simp [FreesHarmlessly])

variable {env : Env} {heap heap' : Heap} {nodes : List Word} {state final : HeapState}
  {ptr first req_size c value : Word}

/-! One call. -/

theorem kfreeLoop_accepts {fuel : Nat} (notNull : first ≠ 0)
    (freed : kfreeLoop heap ptr fuel first = some (value, heap')) : value = 1 := by
  induction fuel generalizing first with
  | zero => cases freed
  | succ fuel ih =>
      simp only [kfreeLoop, if_neg notNull] at freed
      by_cases last : heap.next first = 0
      · rw [if_pos last] at freed
        split at freed
        · cases freed
          rfl
        · cases freed
          rfl
      · rw [if_neg last] at freed
        by_cases before : ptr - sizeofMemHeader < heap.next first
        · rw [if_pos before] at freed
          split_ifs at freed
          all_goals
            cases freed
            rfl
        · rw [if_neg before] at freed
          exact ih last freed

theorem kfree_refuses (harmless : Harmless env heap ptr) : kfree env heap ptr = some (0, heap) := by
  by_cases rejected : kfreeRejects env ptr
  · rw [kfree, if_pos rejected]
  · rw [kfree, if_neg rejected]
    by_cases corrupt : (heap.header (ptr - sizeofMemHeader)).sanityCheck ≠
        heap.size (ptr - sizeofMemHeader) + 16
    · simp only [if_pos corrupt]
    · simp only [if_neg corrupt]
      rcases harmless with refused | fails | isHead | empty
      · exact absurd refused rejected
      · exact absurd fails corrupt
      · have lower : ¬ ptr - sizeofMemHeader < heap.memSlot := by bv_omega
        have higher : ¬ heap.memSlot < ptr - sizeofMemHeader := by bv_omega
        rw [if_neg lower, if_neg higher]
      · have lower : ¬ ptr - sizeofMemHeader < heap.memSlot := by bv_omega
        rw [if_neg lower, empty, kfreeLoop_null, ite_self]

theorem kfree_accepts (harmful : ¬ Harmless env heap ptr)
    (freed : kfree env heap ptr = some (value, heap')) : value = 1 := by
  obtain ⟨accepted, harmful⟩ := not_or.mp harmful
  obtain ⟨sane, harmful⟩ := not_or.mp harmful
  obtain ⟨notHead, some'⟩ := not_or.mp harmful
  have passes : ¬ (heap.header (ptr - sizeofMemHeader)).sanityCheck ≠
      heap.size (ptr - sizeofMemHeader) + 16 := sane
  rw [kfree, if_neg accepted] at freed
  simp only [if_neg passes] at freed
  by_cases lower : ptr - sizeofMemHeader < heap.memSlot
  · rw [if_pos lower] at freed
    split at freed
    · cases freed
      rfl
    · cases freed
      rfl
  · have higher : heap.memSlot < ptr - sizeofMemHeader := by bv_omega
    rw [if_neg lower, if_pos higher] at freed
    exact kfreeLoop_accepts some' freed

theorem kfree_harmless (env : Env) (heap : Heap) (ptr : Word) :
    kfree env heap ptr = some (0, heap) ↔ Harmless env heap ptr := by
  constructor
  · intro freed
    by_contra harmful
    exact absurd (kfree_accepts harmful freed) (by decide)
  · exact kfree_refuses

/-! Loops end. -/

theorem kfreeLoop_ends {fuel : Nat} (chain : Chain heap.nextPtr (pointer first) nodes)
    (enough : nodes.length < fuel) : (kfreeLoop heap ptr fuel first).isSome := by
  induction nodes generalizing first fuel with
  | nil =>
      obtain ⟨fuel, rfl⟩ := Nat.exists_eq_add_one_of_ne_zero (Nat.ne_of_gt enough)
      have zero : first = 0 := pointer_eq_none.mp chain
      simp [kfreeLoop, zero]
  | cons node rest ih =>
      obtain ⟨fuel, rfl⟩ := Nat.exists_eq_add_one_of_ne_zero
        (Nat.ne_of_gt (Nat.lt_of_le_of_lt (Nat.zero_le _) enough))
      obtain ⟨notNull, rfl⟩ := pointer_eq_some.mp chain.1
      have shorter : rest.length < fuel := by
        simp only [List.length_cons] at enough
        omega
      simp only [kfreeLoop, if_neg notNull]
      split_ifs
      all_goals first
        | rfl
        | exact ih chain.2 shorter

theorem kfree_ends (listed : Listed heap nodes) (ptr : Word) : (kfree env heap ptr).isSome := by
  simp only [kfree]
  split_ifs
  all_goals first
    | rfl
    | exact kfreeLoop_ends listed listed.length_lt

theorem kmallocLoop_passes {fuel : Nat} (notNull : c ≠ 0) (unfit : ¬ Suits heap req_size c) :
    kmallocLoop heap req_size (fuel + 1) c = kmallocLoop heap req_size fuel (heap.next c) := by
  have notLarger : ¬ req_size + sizeofMemHeader < heap.size c := fun larger => unfit (Or.inl larger)
  have notEnough : ¬ req_size ≤ heap.size c := fun fits => unfit (Or.inr fits)
  rw [kmallocLoop, if_neg notNull, if_neg notLarger, if_neg notEnough]

theorem kmallocLoop_stuck (loop : heap.next c = c) (notNull : c ≠ 0)
    (unfit : ¬ Suits heap req_size c) (fuel : Nat) : kmallocLoop heap req_size fuel c = none := by
  induction fuel with
  | zero => rfl
  | succ fuel ih => rw [kmallocLoop_passes notNull unfit, loop, ih]

/-! Runs. -/

theorem Threaded.survives {whole : List Word} {call : HeapCall}
    (threaded : Threaded state.heap whole state.live)
    (guard : FreesHarmlessly env state call ∧ RestFits state call)
    (stepped : HeapState.step env state call = some final) :
    ∃ whole', Threaded final.heap whole' final.live := by
  obtain ⟨owned | ⟨ptr, rfl, harmless⟩, fits⟩ := guard
  · exact threaded.step ⟨owned, fits⟩ stepped
  · rw [HeapState.step, (kfree_harmless env state.heap ptr).mpr harmless] at stepped
    cases stepped
    exact ⟨whole, threaded.drop _⟩

/-- `kfree` returns 0 and changes nothing exactly when its tests refuse the pointer, or its block is
the head of the list, or there is no list. In every run in which each pointer that is not live is
such a one, and in which the rests of split blocks fit, the list stays finite, and every later
call of `kmalloc` and `kfree` returns. -/
theorem invalid_frees (env : Env) :
    (∀ heap ptr, kfree env heap ptr = some (0, heap) ↔ Harmless env heap ptr) ∧
    ∀ calls final, Layout env → aligned env.freemem ≠ 0 →
      Along (HeapState.step env) (fun state call => FreesHarmlessly env state call ∧
        RestFits state call) (start env) calls →
      run (HeapState.step env) (start env) calls = some final →
      (∃ nodes, Listed final.heap nodes) ∧ (∀ size, (kmalloc final.heap size).isSome) ∧
        ∀ ptr, (kfree env final.heap ptr).isSome := by
  refine ⟨kfree_harmless env, fun calls final layout notNull along reached => ?_⟩
  have kept : ∀ (state : HeapState) call after,
      (∃ whole, Threaded state.heap whole state.live) →
      FreesHarmlessly env state call ∧ RestFits state call →
      HeapState.step env state call = some after →
      ∃ whole, Threaded after.heap whole after.live := by
    rintro state call after ⟨whole, threaded⟩ guard stepped
    exact threaded.survives guard stepped
  obtain ⟨whole, threaded⟩ :=
    run_invariant kept ⟨_, kmeminit_threaded layout notNull⟩ along reached
  obtain ⟨lost, nodes, _, listed, _⟩ := threaded.reached
  refine ⟨⟨nodes, listed⟩, fun size => ?_, kfree_ends listed⟩
  rw [kmalloc_eq listed]
  rfl

theorem invalid_frees_head : ∃ final nodes, Listed final.heap nodes ∧
    run (HeapState.step sampleEnv) (start sampleEnv)
      [.malloc 100, .malloc 200, .free 0x9610, .free 0x9610] = some final ∧
    ∀ size, (kmalloc final.heap size).isSome := by
  have along : Along (HeapState.step sampleEnv)
      (fun state call => FreesHarmlessly sampleEnv state call ∧ RestFits state call)
      (start sampleEnv) [.malloc 100, .malloc 200, .free 0x9610, .free 0x9610] := by
    decide +kernel
  have check : ∃ final ∈ run (HeapState.step sampleEnv) (start sampleEnv)
      [.malloc 100, .malloc 200, .free 0x9610, .free 0x9610], True := by decide +kernel
  obtain ⟨final, reached, _⟩ := check
  obtain ⟨⟨nodes, listed⟩, mallocs, _⟩ :=
    (invalid_frees sampleEnv).2 _ final sampleEnv_layout (by decide) along reached
  exact ⟨final, nodes, listed, reached, mallocs⟩

/-- Both blocks are given back, and the second one once more: it becomes its own successor, and a
request that no block can serve goes round for ever. -/
theorem invalid_frees_broken : ∃ final heap', Along (HeapState.step sampleEnv) Owned
      (start sampleEnv) [.malloc 100, .malloc 200, .free 0x9610, .free 0x9690] ∧
    run (HeapState.step sampleEnv) (start sampleEnv)
      [.malloc 100, .malloc 200, .free 0x9610, .free 0x9690] = some final ∧
    0x9690 - sizeofMemHeader ∉ final.live ∧
    kfree sampleEnv final.heap 0x9690 = some (1, heap') ∧ heap'.next 0x9680 = 0x9680 ∧
    kmalloc heap' 0x300000 = none := by
  have along : Along (HeapState.step sampleEnv) Owned (start sampleEnv)
      [.malloc 100, .malloc 200, .free 0x9610, .free 0x9690] := by decide +kernel
  have check : ∃ final ∈ run (HeapState.step sampleEnv) (start sampleEnv)
      [.malloc 100, .malloc 200, .free 0x9610, .free 0x9690],
      0x9690 - sizeofMemHeader ∉ final.live ∧
      ∃ result ∈ kfree sampleEnv final.heap 0x9690,
        result.1 = 1 ∧ result.2.memSlot = 0x9600 ∧ result.2.next 0x9600 = 0x9680 ∧
        result.2.next 0x9680 = 0x9680 ∧ ¬ Suits result.2 0x300000 0x9600 ∧
        ¬ Suits result.2 0x300000 0x9680 := by decide +kernel
  obtain ⟨final, reached, notLive, ⟨result, heap'⟩, freed, facts⟩ := check
  obtain ⟨accepted, slot, second, loop, unfit, unfit'⟩ := facts
  simp only at accepted slot second loop unfit unfit'
  subst accepted
  refine ⟨final, heap', along, reached, notLive, freed, loop, ?_⟩
  have size : aligned 0x300000 = 0x300000 := by decide
  have started : ¬ ((0x300000 : Word) = 0 ∨ heap'.memSlot = 0) := by
    rw [slot]
    decide
  have stuck := kmallocLoop_stuck loop (by decide) unfit' (2 ^ 32)
  rw [kmalloc, size, if_neg started, slot, listFuel, kmallocLoop_passes (by decide) unfit, second,
    stuck]

end XerosKernel
