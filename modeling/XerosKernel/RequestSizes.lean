import XerosKernel.HeapRuns

/-!
The sizes of a request to `kmalloc`. The request is rounded up, the size of a header is added to
it, and it is added to the address of the block; each sum is taken modulo 2^32.
-/

namespace XerosKernel

open HeapState

def Splits (heap : Heap) (size c : Word) : Prop :=
  aligned size + sizeofMemHeader < heap.size c

instance (heap : Heap) (size c : Word) : Decidable (Splits heap size c) :=
  inferInstanceAs (Decidable (_ < _))

/-- The free block `c` has room for the request, and so has the block that is returned. No sum
wraps, and the new header, which the new `memSlot` points to, lies between the end of the returned
data and the end of `c`. -/
structure SizesFit (heap heap' : Heap) (size c : Word) : Prop where
  capacity : size ≤ heap.size c
  usable : size ≤ heap'.size c
  rounded : size.toNat ≤ (aligned size).toNat
  required : (aligned size + sizeofMemHeader).toNat =
    (aligned size).toNat + sizeofMemHeader.toNat
  address : Splits heap size c →
    heap'.memSlot.toNat = c.toNat + sizeofMemHeader.toNat + (aligned size).toNat
  above : Splits heap size c → c.toNat + sizeofMemHeader.toNat + size.toNat ≤ heap'.memSlot.toNat
  inside : Splits heap size c → heap'.memSlot.toNat + sizeofMemHeader.toNat ≤ blockEnd heap c

variable {heap heap' : Heap} {size req_size c ptr first : Word}

/-! The block that is returned. -/

theorem kmallocLoop_found {fuel : Nat} (notNull : ptr ≠ 0)
    (returned : kmallocLoop heap req_size fuel first = some (ptr, heap')) :
    ∃ c, mallocSearch heap req_size fuel first = some c ∧ Suits heap req_size c ∧
      ptr = c + sizeofMemHeader ∧ heap' = useBlock heap req_size c := by
  induction fuel generalizing first with
  | zero => cases returned
  | succ fuel ih =>
      simp only [kmallocLoop] at returned
      simp only [mallocSearch]
      by_cases ends : first = 0
      · rw [if_pos ends] at returned
        cases returned
        exact absurd rfl notNull
      · rw [if_neg ends] at returned ⊢
        by_cases larger : req_size + sizeofMemHeader < heap.size first
        · rw [if_pos larger] at returned
          cases returned
          have suits : Suits heap req_size first := Or.inl larger
          exact ⟨first, if_pos suits, suits, rfl, by rw [useBlock, if_pos larger]⟩
        · rw [if_neg larger] at returned
          by_cases fits : req_size ≤ heap.size first
          · rw [if_pos fits] at returned
            cases returned
            have suits : Suits heap req_size first := Or.inr fits
            exact ⟨first, if_pos suits, suits, rfl, by rw [useBlock, if_neg larger]⟩
          · rw [if_neg fits] at returned
            have unfit : ¬ Suits heap req_size first := fun suits => suits.elim larger fits
            rw [if_neg unfit]
            exact ih returned

theorem kmalloc_found (notNull : ptr ≠ 0) (returned : kmalloc heap size = some (ptr, heap')) :
    ∃ c, chosenBlock heap size = some c ∧ aligned size ≠ 0 ∧ Suits heap (aligned size) c ∧
      ptr = c + sizeofMemHeader ∧ heap' = useBlock heap (aligned size) c := by
  simp only [kmalloc] at returned
  by_cases refused : aligned size = 0 ∨ heap.memSlot = 0
  · rw [if_pos refused] at returned
    cases returned
    exact absurd rfl notNull
  · rw [if_neg refused] at returned
    have some' : aligned size ≠ 0 := fun zero => refused (Or.inl zero)
    obtain ⟨c, searched, suits, result⟩ := kmallocLoop_found notNull returned
    exact ⟨c, by rw [chosenBlock, if_neg some', searched], some', suits, result⟩

theorem relink_prev_size (heap : Heap) (addr prev a : Word) :
    (heap.write addr fun header => { header with prev := prev }).size a = heap.size a := by
  simp only [Heap.size, Heap.write]
  split <;> rfl

theorem relink_next_size (heap : Heap) (addr next a : Word) :
    (heap.write addr fun header => { header with next := next }).size a = heap.size a := by
  simp only [Heap.size, Heap.write]
  split <;> rfl

theorem useBlock_splits (splits : req_size + sizeofMemHeader < heap.size c) :
    (useBlock heap req_size c).memSlot = c + sizeofMemHeader + req_size ∧
      (useBlock heap req_size c).size c = req_size := by
  rw [useBlock, if_pos splits]
  refine ⟨rfl, ?_⟩
  have written : ∀ heap : Heap, (heap.write c fun header =>
      { header with size := req_size, sanityCheck := req_size + 16 }).size c = req_size := by
    simp [Heap.size, Heap.write]
  simp only [splitBlock, Heap.memSlot_size]
  split_ifs <;> simp only [relink_prev_size, relink_next_size, written]

theorem useBlock_takes (whole : ¬ req_size + sizeofMemHeader < heap.size c) :
    (useBlock heap req_size c).size c = heap.size c := by
  rw [useBlock, if_neg whole]
  unfold takeBlock
  split_ifs <;> simp only [Heap.memSlot_size, relink_prev_size, relink_next_size]

/-! Sums. -/

theorem aligned_covers (some' : aligned size ≠ 0) :
    size.toNat ≤ (aligned size).toNat ∧ (aligned size).toNat % 16 = 0 := by
  have value := aligned_toNat size
  have bound := size.isLt
  have positive : (aligned size).toNat ≠ 0 := fun zero => some' (BitVec.eq_of_toNat_eq zero)
  split at value
  · omega
  · omega

theorem required_toNat (some' : aligned size ≠ 0) :
    (aligned size + sizeofMemHeader).toNat = (aligned size).toNat + sizeofMemHeader.toNat ↔
      aligned size ≠ 0xfffffff0 := by
  have grid := (aligned_covers some').2
  have bound := (aligned size).isLt
  have last : aligned size = 0xfffffff0 ↔ (aligned size).toNat = 0xfffffff0 :=
    BitVec.toNat_inj.symm
  have header : sizeofMemHeader.toNat = 16 := rfl
  rw [BitVec.toNat_add, header, ne_eq, last]
  constructor
  · intro sum isLast
    omega
  · intro notLast
    omega

theorem address_toNat (c size : Word) :
    (c + sizeofMemHeader + size).toNat = c.toNat + sizeofMemHeader.toNat + size.toNat ↔
      c.toNat + sizeofMemHeader.toNat + size.toNat < 2 ^ 32 := by
  have bound := (c + sizeofMemHeader + size).isLt
  have header : sizeofMemHeader.toNat = 16 := rfl
  constructor
  · intro sum
    omega
  · intro fits
    rw [BitVec.toNat_add, BitVec.toNat_add, Nat.mod_add_mod, Nat.mod_eq_of_lt fits]

/-- Whatever the heap looks like, the sizes of a request fit unless it is rounded to 0xfffffff0, or
the block that is split does not end below the end of the address space. -/
theorem kmalloc_sizes {heap heap' : Heap} {size ptr : Word}
    (returned : kmalloc heap size = some (ptr, heap')) (notNull : ptr ≠ 0) :
    ∃ c, chosenBlock heap size = some c ∧ ptr = c + sizeofMemHeader ∧
      (SizesFit heap heap' size c ↔ aligned size ≠ 0xfffffff0 ∧
        (Splits heap size c → c.toNat + sizeofMemHeader.toNat + (aligned size).toNat < 2 ^ 32)) ∧
      (blockEnd heap c ≤ 2 ^ 32 → (SizesFit heap heap' size c ↔ aligned size ≠ 0xfffffff0)) := by
  obtain ⟨c, chosen, some', suits, pointsTo, rfl⟩ := kmalloc_found notNull returned
  obtain ⟨rounded, _⟩ := aligned_covers some'
  have header : sizeofMemHeader.toNat = 16 := rfl
  have exact' : SizesFit heap (useBlock heap (aligned size) c) size c ↔
      aligned size ≠ 0xfffffff0 ∧ (Splits heap size c →
        c.toNat + sizeofMemHeader.toNat + (aligned size).toNat < 2 ^ 32) := by
    constructor
    · intro fit
      refine ⟨(required_toNat some').mp fit.required, fun splits => ?_⟩
      have address := fit.address splits
      rw [(useBlock_splits splits).1] at address
      exact (address_toNat c (aligned size)).mp address
    · rintro ⟨notLast, room⟩
      have required := (required_toNat some').mpr notLast
      have enough : (aligned size).toNat ≤ (heap.size c).toNat := by
        rcases suits with larger | fits
        · have larger := BitVec.lt_def.mp larger
          omega
        · exact BitVec.le_def.mp fits
      have capacity : size ≤ heap.size c := BitVec.le_def.mpr (Nat.le_trans rounded enough)
      by_cases splits : Splits heap size c
      · obtain ⟨slot, usable⟩ := useBlock_splits splits
        have address := (address_toNat c (aligned size)).mpr (room splits)
        rw [← slot] at address
        have larger : (aligned size + sizeofMemHeader).toNat < (heap.size c).toNat :=
          BitVec.lt_def.mp splits
        refine ⟨capacity, ?_, rounded, required, fun _ => address, fun _ => ?_, fun _ => ?_⟩
        · rw [usable]
          exact BitVec.le_def.mpr rounded
        · omega
        · unfold blockEnd
          omega
      · refine ⟨capacity, ?_, rounded, required, fun split => absurd split splits,
          fun split => absurd split splits, fun split => absurd split splits⟩
        rw [useBlock_takes splits]
        exact capacity
  refine ⟨c, chosen, pointsTo, exact', fun ends => ?_⟩
  rw [exact', and_iff_left_of_imp]
  intro notLast splits
  have required := (required_toNat some').mpr notLast
  have larger : (aligned size + sizeofMemHeader).toNat < (heap.size c).toNat :=
    BitVec.lt_def.mp splits
  unfold blockEnd at ends
  omega

theorem kmalloc_sizes_first : ∃ heap' c, chosenBlock (start sampleEnv).heap 100 = some c ∧
    kmalloc (start sampleEnv).heap 100 = some (c + sizeofMemHeader, heap') ∧
    SizesFit (start sampleEnv).heap heap' 100 c := by
  have check : blockEnd (start sampleEnv).heap 0x9600 ≤ 2 ^ 32 ∧
      ∃ result ∈ kmalloc (start sampleEnv).heap 100, result.1 = 0x9610 := by
    decide +kernel
  obtain ⟨ends, ⟨ptr, heap'⟩, returned, isFirst⟩ := check
  have place : ptr = 0x9610 := isFirst
  have notNull : ptr ≠ 0 := by
    rw [place]
    decide
  obtain ⟨c, chosen, pointsTo, _, fits⟩ := kmalloc_sizes returned notNull
  have first : c = 0x9600 := by
    rw [place, sizeofMemHeader] at pointsTo
    bv_omega
  have notLast : aligned 100 ≠ 0xfffffff0 := by decide
  exact ⟨heap', c, chosen, pointsTo ▸ returned, (fits (first ▸ ends)).mpr notLast⟩

/-- A first request of 0xfffffff0 bytes is granted: the sum with the size of a header is 0. -/
theorem kmalloc_sizes_broken : ∃ heap', chosenBlock (start sampleEnv).heap 0xfffffff0 = some 0x9600 ∧
    kmalloc (start sampleEnv).heap 0xfffffff0 = some (0x9610, heap') ∧
    (start sampleEnv).heap.size 0x9600 = 0x969f0 ∧
    ¬ SizesFit (start sampleEnv).heap heap' 0xfffffff0 0x9600 := by
  have check : chosenBlock (start sampleEnv).heap 0xfffffff0 = some 0x9600 ∧
      (start sampleEnv).heap.size 0x9600 = 0x969f0 ∧
      ∃ result ∈ kmalloc (start sampleEnv).heap 0xfffffff0, result.1 = 0x9610 := by
    decide +kernel
  obtain ⟨chosen, room, ⟨ptr, heap'⟩, returned, isFirst⟩ := check
  obtain rfl : ptr = 0x9610 := isFirst
  refine ⟨heap', chosen, returned, room, fun fit => ?_⟩
  have capacity := fit.capacity
  rw [room] at capacity
  revert capacity
  decide

end XerosKernel
