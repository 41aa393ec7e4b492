import XerosKernel.HeapRuns
import XerosKernel.Runs

/-!
Headers under any use of the memory manager. Pointers may be freed again and again and sizes
may drift, but a header is only ever written on the 16-byte grid, with its checksum.
-/

namespace XerosKernel

open Execution IntrusiveList

abbrev OnGrid (addr : Word) : Prop := addr.toNat % 16 = 0

variable {env : Env} {heap heap' : Heap} {known : Set Word}
  {h curr ptr size req_size prev next value : Word}

theorem OnGrid.add (left : OnGrid h) (right : OnGrid size) : OnGrid (h + size) := by
  unfold OnGrid at *
  rw [BitVec.toNat_add]
  omega

theorem aligned_onGrid (addr : Word) : OnGrid (aligned addr) := by
  have value := aligned_toNat addr
  unfold OnGrid
  split at value <;> omega

theorem OnGrid.aligned_eq (grid : OnGrid h) : aligned h = h := by
  have value := aligned_toNat h
  rw [if_pos grid] at value
  exact BitVec.eq_of_toNat_eq value

theorem sizeofMemHeader_onGrid : OnGrid sizeofMemHeader := by decide

/-- All headers that the free list and the returned pointers lead to are among the known ones.
The null pointer is known, and its header is never checked. -/
structure Integrity (original : Word → MemHeader) (heap : Heap) (known : Set Word) : Prop where
  null : 0 ∈ known
  grid : ∀ h ∈ known, OnGrid h
  sane : ∀ h ∈ known, h ≠ 0 → heap.sanity h = heap.size h + 16
  slot : heap.memSlot ∈ known
  links : ∀ h ∈ known, h ≠ 0 → heap.prev h ∈ known ∧ heap.next h ∈ known
  others : ∀ a ∉ known, heap.header a = original a

namespace Integrity

variable {original : Word → MemHeader}

theorem setSlot (intact : Integrity original heap known) (isKnown : h ∈ known) :
    Integrity original { heap with memSlot := h } known :=
  ⟨intact.null, intact.grid, intact.sane, isKnown, intact.links, intact.others⟩

theorem write (intact : Integrity original heap known) (isKnown : h ∈ known)
    {change : MemHeader → MemHeader}
    (sane : h ≠ 0 → (change (heap.header h)).sanityCheck = (change (heap.header h)).size + 16)
    (links : h ≠ 0 → (change (heap.header h)).prev ∈ known ∧
      (change (heap.header h)).next ∈ known) :
    Integrity original (heap.write h change) known where
  null := intact.null
  grid := intact.grid
  sane := by
    intro a inKnown notNull
    by_cases same : a = h
    · subst same
      simpa using sane notNull
    · simpa [same] using intact.sane a inKnown notNull
  slot := intact.slot
  links := by
    intro a inKnown notNull
    by_cases same : a = h
    · subst same
      simpa using links notNull
    · simpa [same] using intact.links a inKnown notNull
  others := by
    intro a unknown
    have other : a ≠ h := fun same => unknown (same ▸ isKnown)
    simpa [Heap.write, other] using intact.others a unknown

theorem resize (intact : Integrity original heap known) (isKnown : h ∈ known) (size : Word) :
    Integrity original
      (heap.write h fun header => { header with size := size, sanityCheck := size + 16 }) known :=
  intact.write isKnown (fun _ => rfl) fun notNull => intact.links h isKnown notNull

theorem setPrev (intact : Integrity original heap known) (isKnown : h ∈ known)
    (target : prev ∈ known) :
    Integrity original (heap.write h fun header => { header with prev := prev }) known :=
  intact.write isKnown (fun notNull => intact.sane h isKnown notNull)
    fun notNull => ⟨target, (intact.links h isKnown notNull).2⟩

theorem setNext (intact : Integrity original heap known) (isKnown : h ∈ known)
    (target : next ∈ known) :
    Integrity original (heap.write h fun header => { header with next := next }) known :=
  intact.write isKnown (fun notNull => intact.sane h isKnown notNull)
    fun notNull => ⟨(intact.links h isKnown notNull).1, target⟩

theorem complete (intact : Integrity original heap known) (grid : OnGrid h) (size : Word)
    (before : prev ∈ known) (behind : next ∈ known) :
    Integrity original (completeHeader heap h size prev next) (insert h known) where
  null := Set.mem_insert_of_mem h intact.null
  grid := by
    rintro a (rfl | inKnown)
    · exact grid
    · exact intact.grid a inKnown
  sane := by
    rintro a inKnown notNull
    by_cases same : a = h
    · simp [same]
    · simpa [same] using intact.sane a (inKnown.resolve_left same) notNull
  slot := Set.mem_insert_of_mem h intact.slot
  links := by
    intro a inKnown notNull
    by_cases same : a = h
    · subst same
      simp [before, behind]
    · obtain ⟨prevKnown, nextKnown⟩ := intact.links a (inKnown.resolve_left same) notNull
      simp [same, prevKnown, nextKnown]
  others := by
    intro a unknown
    obtain ⟨other, unknown⟩ := not_or.mp unknown
    simpa [completeHeader, Heap.write, other] using intact.others a unknown

theorem recomplete (intact : Integrity original heap known) (isKnown : h ∈ known) (size : Word)
    (before : prev ∈ known) (behind : next ∈ known) :
    Integrity original (completeHeader heap h size prev next) known := by
  have completed := intact.complete (intact.grid h isKnown) size before behind
  rwa [Set.insert_eq_of_mem isKnown] at completed

theorem relinkRight (intact : Integrity original heap known) (isKnown : curr ∈ known)
    (notNull : curr ≠ 0) (target : prev ∈ known) :
    Integrity original (if heap.next curr ≠ 0 then
      heap.write (heap.next curr) fun header => { header with prev := prev } else heap) known := by
  split
  · exact intact.setPrev (intact.links curr isKnown notNull).2 target
  · exact intact

theorem relinkLeft (intact : Integrity original heap known) (isKnown : curr ∈ known)
    (notNull : curr ≠ 0) (target : next ∈ known) :
    Integrity original (if heap.prev curr ≠ 0 then
      heap.write (heap.prev curr) fun header => { header with next := next } else heap) known := by
  split
  · exact intact.setNext (intact.links curr isKnown notNull).1 target
  · exact intact

end Integrity

theorem kmeminit_integrity (grid : OnGrid env.HOLEEND) :
    Integrity env.header (kmeminit env) {0, aligned env.freemem, env.HOLEEND} where
  null := by simp
  grid := by
    rintro h (rfl | rfl | rfl)
    · rfl
    · exact aligned_onGrid env.freemem
    · exact grid
  sane := by
    intro h inKnown notNull
    by_cases last : h = env.HOLEEND
    · simp [kmeminit, last]
    · obtain rfl := (inKnown.resolve_left notNull).resolve_right last
      simp [kmeminit, last]
  slot := by simp
  links := by
    intro h inKnown notNull
    by_cases last : h = env.HOLEEND
    · simp [kmeminit, last]
    · obtain rfl := (inKnown.resolve_left notNull).resolve_right last
      simp [kmeminit, last]
  others := by
    intro a unknown
    simp only [Set.mem_insert_iff, Set.mem_singleton_iff, not_or] at unknown
    obtain ⟨_, notFirst, notLast⟩ := unknown
    simp [kmeminit, completeHeader, Heap.write, notFirst, notLast]

/-! `kmalloc`. -/

section Malloc

variable {original : Word → MemHeader}

theorem splitBlock_integrity (intact : Integrity original heap known) (isKnown : curr ∈ known)
    (notNull : curr ≠ 0) (grid : OnGrid req_size) :
    ∃ known', known ⊆ known' ∧ Integrity original (splitBlock heap curr req_size) known' := by
  obtain ⟨before, behind⟩ := intact.links curr isKnown notNull
  have place : OnGrid (curr + sizeofMemHeader + req_size) :=
    ((intact.grid curr isKnown).add sizeofMemHeader_onGrid).add grid
  have completed := intact.complete place (heap.size curr - req_size) before behind
  have here := Set.mem_insert_of_mem (curr + sizeofMemHeader + req_size) isKnown
  have fresh := Set.mem_insert (curr + sizeofMemHeader + req_size) known
  have resized := completed.resize here req_size
  have linkedRight := resized.relinkRight here notNull fresh
  have linkedLeft := linkedRight.relinkLeft here notNull fresh
  exact ⟨_, Set.subset_insert _ known, linkedLeft.setSlot fresh⟩

theorem takeBlock_integrity (intact : Integrity original heap known) (isKnown : curr ∈ known)
    (notNull : curr ≠ 0) : Integrity original (takeBlock heap curr) known := by
  obtain ⟨before, behind⟩ := intact.links curr isKnown notNull
  unfold takeBlock
  split_ifs
  · exact intact.setSlot intact.null
  · exact (intact.setSlot behind).setPrev behind intact.null
  · have linked := (intact.setSlot before).setNext before behind
    exact linked.setPrev (linked.links curr isKnown notNull).2
      (linked.links curr isKnown notNull).1
  · exact (intact.setSlot before).setNext before intact.null

theorem kmallocLoop_integrity {fuel : Nat} (intact : Integrity original heap known)
    (isKnown : curr ∈ known) (grid : OnGrid req_size)
    (returned : kmallocLoop heap req_size fuel curr = some (value, heap')) :
    ∃ known', known ⊆ known' ∧ Integrity original heap' known' ∧
      (value ≠ 0 → value - sizeofMemHeader ∈ known' ∧ value - sizeofMemHeader ≠ 0) := by
  induction fuel generalizing curr with
  | zero => cases returned
  | succ fuel ih =>
      rw [kmallocLoop] at returned
      by_cases null : curr = 0
      · rw [if_pos null] at returned
        cases returned
        exact ⟨known, subset_rfl, intact, fun some' => absurd rfl some'⟩
      · rw [if_neg null] at returned
        have header : curr + sizeofMemHeader - sizeofMemHeader = curr :=
          BitVec.add_sub_cancel curr _
        by_cases larger : req_size + sizeofMemHeader < heap.size curr
        · rw [if_pos larger] at returned
          cases returned
          obtain ⟨known', grows, split'⟩ := splitBlock_integrity intact isKnown null grid
          rw [header]
          exact ⟨known', grows, split', fun _ => ⟨grows isKnown, null⟩⟩
        · rw [if_neg larger] at returned
          by_cases fits : req_size ≤ heap.size curr
          · rw [if_pos fits] at returned
            cases returned
            rw [header]
            exact ⟨known, subset_rfl, takeBlock_integrity intact isKnown null,
              fun _ => ⟨isKnown, null⟩⟩
          · rw [if_neg fits] at returned
            exact ih (intact.links curr isKnown null).2 returned

theorem kmalloc_integrity (intact : Integrity original heap known)
    (returned : kmalloc heap size = some (value, heap')) :
    ∃ known', known ⊆ known' ∧ Integrity original heap' known' ∧
      (value ≠ 0 → value - sizeofMemHeader ∈ known' ∧ value - sizeofMemHeader ≠ 0) := by
  simp only [kmalloc] at returned
  split at returned
  · cases returned
    exact ⟨known, subset_rfl, intact, fun some' => absurd rfl some'⟩
  · exact kmallocLoop_integrity intact intact.slot (aligned_onGrid size) returned

end Malloc

/-! `kfree`. -/

section Free

variable {original : Word → MemHeader}

theorem kfreeLoop_integrity {fuel : Nat} (intact : Integrity original heap known)
    (isKnown : curr ∈ known) (owned : ptr - sizeofMemHeader ∈ known)
    (returned : kfreeLoop heap ptr fuel curr = some (value, heap')) :
    Integrity original heap' known := by
  induction fuel generalizing curr with
  | zero => cases returned
  | succ fuel ih =>
      simp only [kfreeLoop] at returned
      by_cases null : curr = 0
      · rw [if_pos null] at returned
        cases returned
        exact intact
      · obtain ⟨before, behind⟩ := intact.links curr isKnown null
        rw [if_neg null] at returned
        by_cases last : heap.next curr = 0
        · rw [if_pos last] at returned
          split_ifs at returned
          · cases returned
            exact intact.resize isKnown _
          · cases returned
            exact (intact.recomplete owned _ isKnown intact.null).setNext isKnown owned
        · have rest := (intact.links _ behind last).2
          rw [if_neg last] at returned
          split_ifs at returned
          · cases returned
            exact (intact.recomplete isKnown _ before rest).setPrev rest isKnown
          · cases returned
            exact intact.recomplete isKnown _ before rest
          · cases returned
            exact intact.resize isKnown _
          · cases returned
            exact ((intact.setNext isKnown owned).setPrev rest owned).recomplete owned _ isKnown
              rest
          · cases returned
            exact (intact.setNext isKnown owned).recomplete owned _ isKnown rest
          · cases returned
            exact ((intact.recomplete owned _ isKnown behind).setNext isKnown owned).setPrev
              behind owned
          · exact ih behind returned

theorem kfree_integrity (intact : Integrity original heap known)
    (owned : ptr - sizeofMemHeader ∈ known)
    (returned : kfree env heap ptr = some (value, heap')) : Integrity original heap' known := by
  simp only [kfree] at returned
  split_ifs at returned with _ _ lower
  · cases returned
    exact intact
  · cases returned
    exact intact
  · have someSlot : heap.memSlot ≠ 0 := by bv_omega
    have behind := (intact.links _ intact.slot someSlot).2
    have completed := intact.recomplete owned
      (heap.size (ptr - sizeofMemHeader) + heap.size heap.memSlot + sizeofMemHeader) intact.null
      behind
    cases returned
    exact (completed.setPrev (completed.links _ intact.slot someSlot).2 owned).setSlot owned
  · cases returned
    exact ((intact.recomplete owned _ intact.null intact.slot).setPrev intact.slot owned).setSlot
      owned
  · exact kfreeLoop_integrity intact intact.slot owned returned
  · cases returned
    exact intact

end Free

/-! Runs. -/

/-- The heap and every pointer that `kmalloc` has returned, freed or not. -/
structure Handed where
  heap : Heap
  returned : List Word

namespace Handed

def start (env : Env) : Handed := ⟨kmeminit env, []⟩

def step (env : Env) (state : Handed) : HeapCall → Option Handed
  | .malloc size => (kmalloc state.heap size).map fun result =>
      ⟨result.2, if result.1 = 0 then state.returned else result.1 :: state.returned⟩
  | .free ptr => (kfree env state.heap ptr).map fun result => ⟨result.2, state.returned⟩

/-- `kfree` gets pointers that `kmalloc` returned at some time. -/
def FreesReturned (state : Handed) : HeapCall → Prop
  | .malloc _ => True
  | .free ptr => ptr ∈ state.returned

instance (state : Handed) : (call : HeapCall) → Decidable (FreesReturned state call)
  | .malloc _ => isTrue trivial
  | .free _ => inferInstanceAs (Decidable (_ ∈ _))

def OnFreeList (state : Handed) (h : Word) : Prop :=
  ∃ passed, Seg state.heap.nextPtr (pointer state.heap.memSlot) passed (some h)

def Intact (original : Word → MemHeader) (state : Handed) : Prop :=
  ∃ known, Integrity original state.heap known ∧
    ∀ ptr ∈ state.returned, ptr - sizeofMemHeader ∈ known ∧ ptr - sizeofMemHeader ≠ 0

end Handed

open Handed

variable {original : Word → MemHeader} {state final : Handed} {call : HeapCall}

theorem Handed.Intact.step (intact : Intact original state) (owned : FreesReturned state call)
    (stepped : Handed.step env state call = some final) : Intact original final := by
  obtain ⟨known, integrity, headers⟩ := intact
  cases call with
  | malloc size =>
      obtain ⟨⟨value, heap'⟩, returned, rfl⟩ := Option.map_eq_some_iff.mp stepped
      obtain ⟨known', grows, integrity', header⟩ := kmalloc_integrity integrity returned
      refine ⟨known', integrity', ?_⟩
      have before : ∀ ptr ∈ state.returned,
          ptr - sizeofMemHeader ∈ known' ∧ ptr - sizeofMemHeader ≠ 0 := by
        intro ptr isIn
        exact ⟨grows (headers ptr isIn).1, (headers ptr isIn).2⟩
      by_cases failed : value = 0
      · simp only [failed, if_true]
        exact before
      · simp only [failed, if_false]
        exact List.forall_mem_cons.mpr ⟨header failed, before⟩
  | free ptr =>
      obtain ⟨⟨value, heap'⟩, returned, rfl⟩ := Option.map_eq_some_iff.mp stepped
      exact ⟨known, kfree_integrity integrity (headers ptr owned).1 returned, headers⟩

theorem Integrity.follows (integrity : Integrity original heap known) {nodes : List Word}
    {first : Word} (isKnown : first ∈ known)
    (passed : Seg heap.nextPtr (pointer first) nodes (some h)) : h ∈ known ∧ h ≠ 0 := by
  induction nodes generalizing first with
  | nil =>
      obtain ⟨notNull, rfl⟩ := pointer_eq_some.mp passed
      exact ⟨isKnown, notNull⟩
  | cons node rest ih =>
      obtain ⟨notNull, rfl⟩ := pointer_eq_some.mp passed.1
      exact ih (integrity.links first isKnown notNull).2 passed.2

/-- Whatever is allocated, and freed once or many times: the headers on the free list and those
of all pointers ever returned are on the 16-byte grid and carry their checksum, so `kfree` never
refuses such a pointer for its alignment or its checksum; and no header off the grid is written. -/
theorem header_integrity {env : Env} {calls : List HeapCall} {final : Handed}
    (grid : OnGrid env.HOLEEND) (along : Along (Handed.step env) FreesReturned (start env) calls)
    (reached : run (Handed.step env) (start env) calls = some final) :
    (∀ h, OnFreeList final h ∨ h + sizeofMemHeader ∈ final.returned →
      OnGrid h ∧ final.heap.sanity h = final.heap.size h + 16) ∧
    (∀ ptr ∈ final.returned, ptr = aligned ptr ∧
      (final.heap.header (ptr - sizeofMemHeader)).sanityCheck =
        final.heap.size (ptr - sizeofMemHeader) + 16) ∧
    ∀ a, ¬ OnGrid a → final.heap.header a = env.header a := by
  have initial : Intact env.header (start env) :=
    ⟨_, kmeminit_integrity grid, fun ptr isIn => absurd isIn List.not_mem_nil⟩
  have kept : ∀ state call after, Intact env.header state → FreesReturned state call →
      Handed.step env state call = some after → Intact env.header after :=
    fun state call after intact owned stepped => intact.step owned stepped
  obtain ⟨known, integrity, headers⟩ := run_invariant kept initial along reached
  refine ⟨?_, ?_, ?_⟩
  · intro h either
    have inKnown : h ∈ known ∧ h ≠ 0 := by
      rcases either with ⟨passed, path⟩ | isIn
      · exact integrity.follows integrity.slot path
      · have header := headers _ isIn
        rwa [BitVec.add_sub_cancel] at header
    exact ⟨integrity.grid h inKnown.1, integrity.sane h inKnown.1 inKnown.2⟩
  · intro ptr isIn
    obtain ⟨inKnown, notNull⟩ := headers ptr isIn
    have place := (integrity.grid _ inKnown).add sizeofMemHeader_onGrid
    rw [BitVec.sub_add_cancel] at place
    exact ⟨place.aligned_eq.symm, integrity.sane _ inKnown notNull⟩
  · intro a offGrid
    exact integrity.others a fun inKnown => offGrid (integrity.grid a inKnown)

theorem header_integrity_twice : ∃ final,
    run (Handed.step sampleEnv) (start sampleEnv)
      [.malloc 100, .malloc 200, .free 0x9610, .free 0x9690, .free 0x9690] =
        some final ∧
    (0x9690 : Word) ∈ final.returned ∧
    (final.heap.header (0x9690 - sizeofMemHeader)).sanityCheck =
      final.heap.size (0x9690 - sizeofMemHeader) + 16 := by
  have along : Along (Handed.step sampleEnv) FreesReturned (start sampleEnv)
      [.malloc 100, .malloc 200, .free 0x9610, .free 0x9690, .free 0x9690] := by
    decide +kernel
  have check : ∃ final ∈ run (Handed.step sampleEnv) (start sampleEnv)
      [.malloc 100, .malloc 200, .free 0x9610, .free 0x9690, .free 0x9690],
      (0x9690 : Word) ∈ final.returned := by decide +kernel
  obtain ⟨final, reached, isIn⟩ := check
  exact ⟨final, reached, isIn, ((header_integrity (by decide) along reached).2.1 _ isIn).2⟩

end XerosKernel
