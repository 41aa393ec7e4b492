import XerosKernel.Execution
import XerosKernel.FreeList

/-!
What `kmalloc` and `kfree` do to the blocks. A block is taken from the front of the list or
right behind it, and is linked in again at its address, alone or with the block on its
right.
-/

namespace XerosKernel

open DoublyLinked

/-! Writes. -/

namespace Heap

def sanity (heap : Heap) (addr : Word) : Word := (heap.header addr).sanityCheck

variable (heap : Heap) (addr a : Word) (change : MemHeader → MemHeader)

@[simp] theorem write_size : (heap.write addr change).size a =
    if a = addr then (change (heap.header addr)).size else heap.size a := by
  by_cases same : a = addr <;> simp [size, write, same]

@[simp] theorem write_prev : (heap.write addr change).prev a =
    if a = addr then (change (heap.header addr)).prev else heap.prev a := by
  by_cases same : a = addr <;> simp [prev, write, same]

@[simp] theorem write_next : (heap.write addr change).next a =
    if a = addr then (change (heap.header addr)).next else heap.next a := by
  by_cases same : a = addr <;> simp [next, write, same]

@[simp] theorem write_sanity : (heap.write addr change).sanity a =
    if a = addr then (change (heap.header addr)).sanityCheck else heap.sanity a := by
  by_cases same : a = addr <;> simp [sanity, write, same]

@[simp] theorem header_size : (heap.header a).size = heap.size a := rfl
@[simp] theorem header_prev : (heap.header a).prev = heap.prev a := rfl
@[simp] theorem header_next : (heap.header a).next = heap.next a := rfl
@[simp] theorem header_sanity : (heap.header a).sanityCheck = heap.sanity a := rfl

variable (newHeader size prev next : Word)

@[simp] theorem completeHeader_size :
    (completeHeader heap newHeader size prev next).size a =
      if a = newHeader then size else heap.size a := write_size ..

@[simp] theorem completeHeader_prev :
    (completeHeader heap newHeader size prev next).prev a =
      if a = newHeader then prev else heap.prev a := write_prev ..

@[simp] theorem completeHeader_next :
    (completeHeader heap newHeader size prev next).next a =
      if a = newHeader then next else heap.next a := write_next ..

@[simp] theorem completeHeader_sanity :
    (completeHeader heap newHeader size prev next).sanity a =
      if a = newHeader then size + 16 else heap.sanity a := write_sanity ..

@[simp] theorem completeHeader_memSlot :
    (completeHeader heap newHeader size prev next).memSlot = heap.memSlot := rfl

@[simp] theorem memSlot_size : ({ heap with memSlot := addr } : Heap).size a = heap.size a := rfl
@[simp] theorem memSlot_prev : ({ heap with memSlot := addr } : Heap).prev a = heap.prev a := rfl
@[simp] theorem memSlot_next : ({ heap with memSlot := addr } : Heap).next a = heap.next a := rfl
@[simp] theorem memSlot_sanity :
    ({ heap with memSlot := addr } : Heap).sanity a = heap.sanity a := rfl

end Heap

/-! The invariant. -/

/-- The free list holds `nodes`; `live` are the headers of the allocated blocks. -/
structure Tracked (heap : Heap) (nodes live : List Word) : Prop where
  list : FreeList heap nodes
  ascending : Ascending nodes
  unique : live.Nodup
  real : ∀ h ∈ live, h ≠ 0
  apart : ∀ h ∈ live, h ∉ nodes
  sane : ∀ h ∈ nodes ++ live, heap.sanity h = heap.size h + 16

variable {env : Env} {heap heap' : Heap} {nodes live front back below above : List Word}
  {c p t newHeader req_size : Word} {rest : List Word}

theorem Tracked.drop (tracked : Tracked heap nodes live) (h : Word) :
    Tracked heap nodes (live.erase h) where
  list := tracked.list
  ascending := tracked.ascending
  unique := tracked.unique.erase h
  real := fun a isIn => tracked.real a (List.mem_of_mem_erase isIn)
  apart := fun a isIn => tracked.apart a (List.mem_of_mem_erase isIn)
  sane := by
    intro a isIn
    refine tracked.sane a ?_
    rcases List.mem_append.mp isIn with inNodes | inLive
    · exact List.mem_append_left _ inNodes
    · exact List.mem_append_right _ (List.mem_of_mem_erase inLive)

/-! Taking a whole block. -/

theorem head_not_mem {a : Word} (unique : nodes.Nodup) (head : nodes.head? = some a) :
    a ∉ nodes.tail := by
  obtain ⟨tail, rfl⟩ := List.head?_eq_some_iff.mp head
  exact (List.nodup_cons.mp unique).1

theorem last_not_mem {a : Word} (unique : nodes.Nodup) (last : nodes.getLast? = some a) :
    a ∉ nodes.dropLast := by
  obtain ⟨front, rfl⟩ := List.getLast?_eq_some_iff.mp last
  rw [List.dropLast_concat]
  intro isIn
  exact (List.nodup_append.mp unique).2.2 a isIn a (by simp) rfl

theorem Linked.neighbours_ne {first : Option Word} (linked : Linked heap first (front ++ c :: back))
    (notNull : c ≠ 0) : heap.prev c ≠ c ∧ heap.next c ≠ c := by
  obtain ⟨nextEq, prevEq⟩ := linked.links_at
  have unique := linked.chain.nodup
  rw [List.nodup_append, List.nodup_cons] at unique
  constructor
  · intro same
    have last : front.getLast? = some c := by
      rw [← prevEq, Heap.prevPtr, same]
      exact pointer_of_ne notNull
    exact unique.2.2 c (List.mem_of_getLast? last) c (by simp) rfl
  · intro same
    have first : back.head? = some c := by
      rw [← nextEq, Heap.nextPtr, same]
      exact pointer_of_ne notNull
    exact unique.2.1.1 (List.mem_of_head? first)

theorem takeBlock_links (notPrev : heap.prev c ≠ c) (notNext : heap.next c ≠ c) :
    (∀ a, (takeBlock heap c).next a =
      if heap.prev c ≠ 0 ∧ heap.prev c = a then heap.next c else heap.next a) ∧
    (∀ a, (takeBlock heap c).prev a =
      if heap.next c ≠ 0 ∧ heap.next c = a then heap.prev c else heap.prev a) ∧
    (takeBlock heap c).memSlot = (if heap.prev c = 0 then heap.next c else heap.prev c) ∧
    (∀ a, (takeBlock heap c).size a = heap.size a) ∧
    ∀ a, (takeBlock heap c).sanity a = heap.sanity a := by
  by_cases noPrev : heap.prev c = 0 <;> by_cases noNext : heap.next c = 0
  · rw [takeBlock, if_pos ⟨noPrev, noNext⟩]
    simp [noPrev, noNext]
  · rw [takeBlock, if_neg fun both => noNext both.2, if_pos noPrev]
    simp [noPrev]
    grind
  · rw [takeBlock, if_neg fun both => noPrev both.1, if_neg noPrev,
      if_neg fun other => other noNext]
    simp [noNext]
    grind
  · rw [takeBlock, if_neg fun both => noPrev both.1, if_neg noPrev, if_pos noNext]
    simp
    grind

theorem Tracked.carry {nodes' live' : List Word} (tracked : Tracked heap nodes live)
    (list : FreeList heap' nodes') (ascending : Ascending nodes')
    (same : (nodes' ++ live').Perm (nodes ++ live))
    (sane : ∀ a ∈ nodes ++ live, heap.sanity a = heap.size a + 16 →
      heap'.sanity a = heap'.size a + 16) : Tracked heap' nodes' live' := by
  have unique : (nodes' ++ live').Nodup := same.nodup_iff.mpr (List.nodup_append.mpr
    ⟨tracked.list.nodup, tracked.unique, fun a inNodes b inLive other =>
      tracked.apart b inLive (other ▸ inNodes)⟩)
  obtain ⟨_, uniqueLive, apart⟩ := List.nodup_append.mp unique
  refine ⟨list, ascending, uniqueLive, ?_, fun a inLive inNodes => apart a inNodes a inLive rfl, ?_⟩
  · intro a isIn
    rcases List.mem_append.mp (same.mem_iff.mp (List.mem_append_right _ isIn)) with old | old
    · exact tracked.list.ne_zero old
    · exact tracked.real a old
  · intro a isIn
    have before := same.mem_iff.mp isIn
    exact sane a before (tracked.sane a before)

theorem Linked.take {first : Option Word} (linked : Linked heap first (front ++ c :: back))
    (notNull : c ≠ 0) :
    Linked (takeBlock heap c) (if front = [] then back.head? else first) (front ++ back) := by
  obtain ⟨nextEq, prevEq⟩ := linked.links_at
  obtain ⟨notPrev, notNext⟩ := linked.neighbours_ne notNull
  obtain ⟨nextTo, prevTo, _, _, _⟩ := takeBlock_links notPrev notNext
  have unique := linked.chain.nodup
  rw [List.nodup_append, List.nodup_cons] at unique
  have cut : front ++ c :: back = front ++ [c] ++ back := by simp
  have shape : front ++ back = front ++ [] ++ back := by simp
  rw [cut] at linked
  rw [shape]
  refine DList.splice linked ?_ (fun some' => if_neg some') ?_ ?_
  · rw [← nextEq, ← prevEq]
    refine ⟨?_, ?_, trivial⟩
    · by_cases noPrev : heap.prev c = 0
      · have none : heap.prevPtr c = none := pointer_eq_none.mpr noPrev
        have empty : front = [] := List.getLast?_eq_none_iff.mp (prevEq.symm.trans none)
        rw [none, follow, if_pos empty]
      · rw [Heap.prevPtr, pointer_of_ne noPrev, follow, Heap.nextPtr, nextTo,
          if_pos ⟨noPrev, rfl⟩]
        rfl
    · by_cases noNext : heap.next c = 0
      · rw [Heap.nextPtr, pointer_eq_none.mpr noNext]
        trivial
      · rw [Heap.nextPtr, pointer_of_ne noNext, Back, Heap.prevPtr, prevTo,
          if_pos ⟨noNext, rfl⟩]
        rfl
  · intro a isIn
    rw [Heap.nextPtr, nextTo, if_neg, Heap.nextPtr]
    rintro ⟨notNull, rfl⟩
    have last : front.getLast? = some (heap.prev c) := prevEq.symm.trans (pointer_of_ne notNull)
    rcases List.mem_append.mp isIn with inFront | inBack
    · exact last_not_mem unique.1 last inFront
    · exact unique.2.2 _ (List.mem_of_getLast? last) _ (List.mem_cons_of_mem _ inBack) rfl
  · intro a isIn
    rw [Heap.prevPtr, prevTo, if_neg, Heap.prevPtr]
    rintro ⟨notNull, rfl⟩
    have behind : back.head? = some (heap.next c) := nextEq.symm.trans (pointer_of_ne notNull)
    rcases List.mem_append.mp isIn with inFront | inTail
    · exact unique.2.2 _ inFront _ (List.mem_cons_of_mem _ (List.mem_of_head? behind)) rfl
    · exact head_not_mem unique.2.1.2 behind inTail

theorem Tracked.takes (tracked : Tracked heap (front ++ c :: back) live)
    (near : front.length ≤ 1) :
    Tracked (takeBlock heap c) (front ++ back) (c :: live) ∧
      ∀ a, (takeBlock heap c).size a = heap.size a := by
  have list := tracked.list
  have linked : Linked heap (pointer heap.memSlot) (front ++ c :: back) := list
  have notNull := list.ne_zero (c := c) (by simp)
  obtain ⟨nextEq, prevEq⟩ := list.links_at
  obtain ⟨notPrev, notNext⟩ := linked.neighbours_ne notNull
  obtain ⟨_, _, slot, size, sanity⟩ := takeBlock_links notPrev notNext
  have head : pointer (takeBlock heap c).memSlot =
      if front = [] then back.head? else pointer heap.memSlot := by
    by_cases empty : front = []
    · have noPrev : heap.prev c = 0 := by
        rw [empty] at prevEq
        exact pointer_eq_none.mp prevEq
      rw [if_pos empty, slot, if_pos noPrev]
      exact nextEq
    · obtain ⟨a, rfl⟩ := List.length_eq_one_iff.mp
        (Nat.le_antisymm near (List.length_pos_iff.mpr empty))
      obtain ⟨notNull, last⟩ := pointer_eq_some.mp prevEq
      rw [if_neg empty, slot, if_neg notNull, last, list.chain.memSlot_cons]
      rfl
  have whole : FreeList (takeBlock heap c) (front ++ back) := by
    rw [FreeList, head]
    exact linked.take notNull
  refine ⟨tracked.carry whole ?_ ?_ ?_, size⟩
  · exact tracked.ascending.sublist (by simp)
  · simpa using List.Perm.append_left front List.perm_middle
  · intro a _ sane
    rw [size, sanity]
    exact sane

/-! Splitting a block. -/

theorem splitBlock_links (notSelf : newHeader ≠ c) (notPrev : heap.prev c ≠ c)
    (notLoop : heap.next c ≠ c) (notBefore : heap.prev c ≠ newHeader)
    (notNext : heap.next c ≠ newHeader) (shape : newHeader = c + sizeofMemHeader + req_size) :
    (∀ a, (splitBlock heap c req_size).next a = if a = newHeader then heap.next c
      else if heap.prev c ≠ 0 ∧ heap.prev c = a then newHeader else heap.next a) ∧
    (∀ a, (splitBlock heap c req_size).prev a = if a = newHeader then heap.prev c
      else if heap.next c ≠ 0 ∧ heap.next c = a then newHeader else heap.prev a) ∧
    (splitBlock heap c req_size).memSlot = newHeader ∧
    (∀ a, (splitBlock heap c req_size).size a =
      if a = newHeader then heap.size c - req_size else if a = c then req_size else heap.size a) ∧
    ∀ a, (splitBlock heap c req_size).sanity a =
      if a = newHeader then heap.size c - req_size + 16
      else if a = c then req_size + 16 else heap.sanity a := by
  by_cases noNext : heap.next c = 0 <;> by_cases noPrev : heap.prev c = 0
  · simp [splitBlock, noPrev, noNext, Ne.symm notSelf, ← shape]
    grind
  · have more : (heap.prev c = 0#32) = False := eq_false noPrev
    simp [splitBlock, more, noNext, Ne.symm notSelf, ← shape]
    grind
  · have more : (heap.next c = 0#32) = False := eq_false noNext
    simp [splitBlock, noPrev, more, Ne.symm notSelf, Ne.symm notLoop, ← shape]
    grind
  · have more : (heap.next c = 0#32) = False := eq_false noNext
    have less : (heap.prev c = 0#32) = False := eq_false noPrev
    simp [splitBlock, less, more, Ne.symm notSelf, Ne.symm notLoop, ← shape]
    grind

theorem Linked.neighbours_fresh {first : Option Word}
    (linked : Linked heap first (front ++ c :: back))
    (fresh : newHeader ∉ front ++ c :: back) (real : newHeader ≠ 0) :
    heap.prev c ≠ newHeader ∧ heap.next c ≠ newHeader := by
  obtain ⟨nextEq, prevEq⟩ := linked.links_at
  constructor
  · intro same
    rw [Heap.prevPtr, same, pointer_of_ne real] at prevEq
    exact fresh (List.mem_append_left _ (List.mem_of_getLast? prevEq.symm))
  · intro same
    rw [Heap.nextPtr, same, pointer_of_ne real] at nextEq
    exact fresh (List.mem_append_right _ (List.mem_cons_of_mem _ (List.mem_of_head? nextEq.symm)))

theorem Linked.split {first : Option Word} (linked : Linked heap first (front ++ c :: back))
    (notNull : c ≠ 0) (real : newHeader ≠ 0) (fresh : newHeader ∉ front ++ c :: back)
    (shape : newHeader = c + sizeofMemHeader + req_size) :
    Linked (splitBlock heap c req_size) (if front = [] then some newHeader else first)
      (front ++ newHeader :: back) := by
  obtain ⟨nextEq, prevEq⟩ := linked.links_at
  obtain ⟨notPrev, notLoop⟩ := linked.neighbours_ne notNull
  obtain ⟨notBefore, notNext⟩ := linked.neighbours_fresh fresh real
  have notSelf : newHeader ≠ c := fun same => fresh (by simp [same])
  obtain ⟨nextTo, prevTo, _, _, _⟩ :=
    splitBlock_links notSelf notPrev notLoop notBefore notNext shape
  have ne : ∀ a ∈ front ++ c :: back, a ≠ newHeader := fun a isIn same => fresh (same ▸ isIn)
  have unique := linked.chain.nodup
  rw [List.nodup_append, List.nodup_cons] at unique
  have cut : front ++ c :: back = front ++ [c] ++ back := by simp
  have shape' : front ++ newHeader :: back = front ++ [newHeader] ++ back := by simp
  rw [cut] at linked
  rw [shape']
  refine DList.splice linked ?_ (fun some' => if_neg some') ?_ ?_
  · rw [← nextEq, ← prevEq]
    refine ⟨?_, ?_, ?_, ?_, trivial⟩
    · by_cases noPrev : heap.prev c = 0
      · have none : heap.prevPtr c = none := pointer_eq_none.mpr noPrev
        have empty : front = [] := List.getLast?_eq_none_iff.mp (prevEq.symm.trans none)
        rw [none, follow, if_pos empty]
      · rw [Heap.prevPtr, pointer_of_ne noPrev, follow, Heap.nextPtr, nextTo, if_neg notBefore,
          if_pos ⟨noPrev, rfl⟩]
        exact pointer_of_ne real
    · rw [Back, Heap.prevPtr, prevTo, if_pos rfl]
      rfl
    · rw [follow, Heap.nextPtr, nextTo, if_pos rfl]
      rfl
    · by_cases noNext : heap.next c = 0
      · rw [Heap.nextPtr, pointer_eq_none.mpr noNext]
        trivial
      · rw [Heap.nextPtr, pointer_of_ne noNext, Back, Heap.prevPtr, prevTo, if_neg notNext,
          if_pos ⟨noNext, rfl⟩]
        exact pointer_of_ne real
  · intro a isIn
    have kept : a ≠ newHeader := by
      rcases List.mem_append.mp isIn with inFront | inBack
      · exact ne a (List.mem_append_left _ (List.mem_of_mem_dropLast inFront))
      · exact ne a (List.mem_append_right _ (List.mem_cons_of_mem _ inBack))
    rw [Heap.nextPtr, nextTo, if_neg kept, if_neg, Heap.nextPtr]
    rintro ⟨notNull, rfl⟩
    have last : front.getLast? = some (heap.prev c) := prevEq.symm.trans (pointer_of_ne notNull)
    rcases List.mem_append.mp isIn with inFront | inBack
    · exact last_not_mem unique.1 last inFront
    · exact unique.2.2 _ (List.mem_of_getLast? last) _ (List.mem_cons_of_mem _ inBack) rfl
  · intro a isIn
    have kept : a ≠ newHeader := by
      rcases List.mem_append.mp isIn with inFront | inBack
      · exact ne a (List.mem_append_left _ inFront)
      · exact ne a (List.mem_append_right _ (List.mem_cons_of_mem _ (List.mem_of_mem_tail inBack)))
    rw [Heap.prevPtr, prevTo, if_neg kept, if_neg, Heap.prevPtr]
    rintro ⟨notNull, rfl⟩
    have behind : back.head? = some (heap.next c) := nextEq.symm.trans (pointer_of_ne notNull)
    rcases List.mem_append.mp isIn with inFront | inTail
    · exact unique.2.2 _ inFront _ (List.mem_cons_of_mem _ (List.mem_of_head? behind)) rfl
    · exact head_not_mem unique.2.1.2 behind inTail

theorem Tracked.splits (tracked : Tracked heap (c :: back) live)
    (shape : newHeader = c + sizeofMemHeader + req_size) (behind : c < newHeader)
    (before : ∀ a ∈ back, newHeader < a) (fresh : newHeader ∉ live) :
    Tracked (splitBlock heap c req_size) (newHeader :: back) (c :: live) ∧
      ∀ a, (splitBlock heap c req_size).size a = if a = newHeader then heap.size c - req_size
        else if a = c then req_size else heap.size a := by
  have linked : Linked heap (pointer heap.memSlot) ([] ++ c :: back) := tracked.list
  have notNull := tracked.list.ne_zero (c := c) (by simp)
  have real : newHeader ≠ 0 := by bv_omega
  have notSelf : newHeader ≠ c := by bv_omega
  have absent : newHeader ∉ [] ++ c :: back := by
    rw [List.nil_append, List.mem_cons, not_or]
    exact ⟨notSelf, fun isIn => BitVec.lt_irrefl _ (before newHeader isIn)⟩
  obtain ⟨notPrev, notLoop⟩ := linked.neighbours_ne notNull
  obtain ⟨notBefore, notNext⟩ := linked.neighbours_fresh absent real
  obtain ⟨_, _, slot, size, sanity⟩ :=
    splitBlock_links notSelf notPrev notLoop notBefore notNext shape
  have unique := List.nodup_cons.mp tracked.list.nodup
  have whole : FreeList (splitBlock heap c req_size) (newHeader :: back) := by
    rw [FreeList, slot, pointer_of_ne real]
    exact linked.split notNull real absent shape
  obtain ⟨_, ascending⟩ := List.pairwise_cons.mp tracked.ascending
  refine ⟨⟨whole, List.pairwise_cons.mpr ⟨before, ascending⟩, ?_, ?_, ?_, ?_⟩, size⟩
  · exact List.nodup_cons.mpr ⟨fun isIn => tracked.apart c isIn (by simp), tracked.unique⟩
  · exact List.forall_mem_cons.mpr ⟨notNull, tracked.real⟩
  · intro a isIn
    rw [List.mem_cons, not_or]
    rcases List.mem_cons.mp isIn with rfl | inLive
    · exact ⟨notSelf.symm, unique.1⟩
    · refine ⟨fun same => fresh (same ▸ inLive), fun inBack => ?_⟩
      exact tracked.apart a inLive (List.mem_cons_of_mem _ inBack)
  · intro a isIn
    rw [sanity, size]
    split_ifs with isRest isC
    · rfl
    · rfl
    · refine tracked.sane a ?_
      simp only [List.cons_append, List.mem_cons, List.mem_append] at isIn ⊢
      tauto

/-! Linking a block in. -/

/-- `p` is linked in between `before` and `after` with the size `extent`; 0 stands for no
neighbour. -/
structure LinkedIn (heap heap' : Heap) (p before after extent : Word) : Prop where
  next : ∀ a ≠ 0, heap'.next a = if a = p then after else if a = before then p else heap.next a
  prev : ∀ a ≠ 0, heap'.prev a = if a = p then before else if a = after then p else heap.prev a
  memSlot : heap'.memSlot = if before = 0 then p else heap.memSlot
  size : ∀ a, heap'.size a = if a = p then extent else heap.size a
  sanity : ∀ a, heap'.sanity a = if a = p then extent + 16 else heap.sanity a

def ptrEndAddr (heap : Heap) (p : Word) : Word := p + sizeofMemHeader + heap.size p

def remaining (heap : Heap) (p : Word) (above : List Word) : List Word :=
  if above.head? = some (ptrEndAddr heap p) then above.tail else above

def mergedSize (heap : Heap) (p : Word) (above : List Word) : Word :=
  if above.head? = some (ptrEndAddr heap p) then
    heap.size p + heap.size (ptrEndAddr heap p) + sizeofMemHeader
  else heap.size p

theorem pointer_getD (addr : Word) : (pointer addr).getD 0 = addr := by
  by_cases zero : addr = 0
  · rw [pointer_eq_none.mpr zero, zero]
    rfl
  · rw [pointer_of_ne zero]
    rfl

theorem Listed.next_getD (listed : Listed heap (front ++ c :: back)) :
    heap.next c = back.head?.getD 0 := by
  rw [← listed.next_at, Heap.nextPtr, pointer_getD]

theorem Listed.next_ne (listed : Listed heap nodes) (isIn : c ∈ nodes) (absent : p ∉ nodes)
    (notNull : p ≠ 0) : heap.next c ≠ p := by
  obtain ⟨front, back, rfl⟩ := List.append_of_mem isIn
  rintro rfl
  have head : back.head? = some (heap.next c) := listed.next_at.symm.trans (pointer_of_ne notNull)
  exact absent (List.mem_append_right _ (List.mem_cons_of_mem _ (List.mem_of_head? head)))

theorem remaining_touch (rest : List Word) (touch : ptrEndAddr heap p = t) :
    remaining heap p (t :: rest) = rest ∧
      mergedSize heap p (t :: rest) = heap.size p + heap.size t + sizeofMemHeader := by
  rw [remaining, mergedSize, touch]
  exact ⟨if_pos rfl, if_pos rfl⟩

theorem remaining_apart (rest : List Word) (apart : ptrEndAddr heap p ≠ t) :
    remaining heap p (t :: rest) = t :: rest ∧ mergedSize heap p (t :: rest) = heap.size p := by
  have no : (t :: rest).head? ≠ some (ptrEndAddr heap p) := by
    simpa using apart.symm
  exact ⟨if_neg no, if_neg no⟩

theorem leftNeighbour_eq (listed : Listed heap (front ++ c :: above))
    (low : ∀ a ∈ front ++ [c], a < p) (high : ∀ a ∈ above, p < a) :
    heap.memSlot < p ∧ leftNeighbour heap p = some c ∧
      kfreeLoop heap (p + sizeofMemHeader) listFuel heap.memSlot =
        kfreeLoop heap (p + sizeofMemHeader) 1 c := by
  have header : p + sizeofMemHeader - sizeofMemHeader = p := BitVec.add_sub_cancel ..
  have slot : heap.memSlot < p := by
    cases front with
    | nil => exact listed.memSlot_cons ▸ low c (by simp)
    | cons first front => exact listed.memSlot_cons ▸ low first (by simp)
  have enough : front.length < listFuel := by
    have bound := listed.length_lt
    rw [List.length_append] at bound
    omega
  obtain ⟨loop, search⟩ := kfreeLoop_eq header listed low high enough
  refine ⟨slot, ?_, loop⟩
  rw [leftNeighbour, if_pos slot, search]

theorem kfree_links_first (listed : Listed heap above) (absent : p ∉ above)
    (high : ∀ a ∈ above, p < a) (some' : heap.memSlot ≠ 0) (notNull : p ≠ 0)
    (accepted : ¬ kfreeRejects env (p + sizeofMemHeader))
    (sane : heap.sanity p = heap.size p + 16) :
    ∃ heap', kfree env heap (p + sizeofMemHeader) = some (1, heap') ∧
      LinkedIn heap heap' p 0 ((remaining heap p above).head?.getD 0)
        (mergedSize heap p above) := by
  have header : p + sizeofMemHeader - sizeofMemHeader = p := BitVec.add_sub_cancel ..
  cases above with
  | nil => exact absurd listed.memSlot_nil some'
  | cons t rest =>
      have slot : heap.memSlot = t := listed.memSlot_cons
      have lower : p < heap.memSlot := slot ▸ high t (by simp)
      have alone : Listed heap ([] ++ t :: rest) := listed
      have follows : heap.next t = rest.head?.getD 0 := Listed.next_getD alone
      have far : heap.next t ≠ p := listed.next_ne (by simp) absent notNull
      rw [kfree, if_neg accepted]
      simp only [header]
      rw [if_neg fun other => other sane, if_pos lower, slot]
      have ne : t ≠ p := fun same => BitVec.lt_irrefl _ (same ▸ slot ▸ lower)
      by_cases touch : ptrEndAddr heap p = t
      · obtain ⟨stays, size⟩ := remaining_touch rest touch
        rw [stays, size, ← follows]
        refine ⟨_, if_pos touch, ?_⟩
        constructor <;> simp [ne] <;> grind
      · obtain ⟨stays, size⟩ := remaining_apart rest touch
        rw [stays, size]
        refine ⟨_, if_neg touch, ?_⟩
        constructor <;> simp [ne] <;> grind

theorem kfree_links_behind {front : List Word} {c : Word}
    (listed : Listed heap (front ++ c :: above)) (absent : p ∉ front ++ c :: above)
    (low : ∀ a ∈ front ++ [c], a < p) (high : ∀ a ∈ above, p < a) (notNull : p ≠ 0)
    (accepted : ¬ kfreeRejects env (p + sizeofMemHeader))
    (sane : heap.sanity p = heap.size p + 16) (plain : ¬ ScaledHit heap p) :
    ∃ heap', kfree env heap (p + sizeofMemHeader) = some (1, heap') ∧
      LinkedIn heap heap' p c ((remaining heap p above).head?.getD 0)
        (mergedSize heap p above) := by
  have header : p + sizeofMemHeader - sizeofMemHeader = p := BitVec.add_sub_cancel ..
  have behind : c < p := low c (by simp)
  obtain ⟨slot, left, loop⟩ := leftNeighbour_eq listed low high
  have notEnd : currEndAddr heap c ≠ p := fun same => plain ⟨c, left, same⟩
  have notC : c ≠ 0 := listed.ne_zero (by simp)
  have notNil : (c = 0#32) = False := eq_false notC
  have ne : p ≠ c := fun same => BitVec.lt_irrefl _ (same ▸ behind)
  have follows : heap.next c = above.head?.getD 0 := Listed.next_getD listed
  have higher : ¬ p < heap.memSlot := by bv_omega
  rw [kfree, if_neg accepted]
  simp only [header]
  rw [if_neg fun other => other sane, if_neg higher, if_pos slot, loop, kfreeLoop, if_neg notC]
  simp only [header]
  cases above with
  | nil =>
      have last : heap.next c = 0 := follows
      rw [if_pos last, if_neg notEnd.symm]
      refine ⟨_, rfl, ?_⟩
      have alone : remaining heap p [] = [] ∧ mergedSize heap p [] = heap.size p := ⟨rfl, rfl⟩
      constructor <;> simp [alone, notNil, Ne.symm ne] <;> grind
  | cons t rest =>
      have next : heap.next c = t := follows
      have more : heap.next c ≠ 0 := next ▸ listed.ne_zero (by simp)
      have cut : front ++ c :: t :: rest = (front ++ [c]) ++ t :: rest := by simp
      have further : heap.next t = rest.head?.getD 0 := Listed.next_getD (cut ▸ listed)
      have far : heap.next t ≠ p := listed.next_ne (by simp) absent notNull
      rw [if_neg more, if_pos (next ▸ high t (by simp)), next, if_neg fun both => notEnd both.1,
        if_neg notEnd]
      by_cases touch : p + sizeofMemHeader + heap.size p = t
      · obtain ⟨stays, size⟩ := remaining_touch rest touch
        rw [if_pos touch, stays, size, ← further]
        refine ⟨_, rfl, ?_⟩
        by_cases end' : heap.next t = 0
        · constructor <;> simp [end', notNil] <;> grind
        · have more' : (heap.next t = 0#32) = False := eq_false end'
          constructor <;> simp [more', notNil] <;> grind
      · obtain ⟨stays, size⟩ := remaining_apart rest touch
        rw [if_neg touch, stays, size]
        refine ⟨_, rfl, ?_⟩
        constructor <;> simp [notNil, Ne.symm ne] <;> grind

theorem kfree_links (listed : Listed heap (below ++ above)) (low : ∀ a ∈ below, a < p)
    (high : ∀ a ∈ above, p < a) (some' : heap.memSlot ≠ 0) (notNull : p ≠ 0)
    (accepted : ¬ kfreeRejects env (p + sizeofMemHeader))
    (sane : heap.sanity p = heap.size p + 16) (plain : ¬ ScaledHit heap p) :
    ∃ heap', kfree env heap (p + sizeofMemHeader) = some (1, heap') ∧
      LinkedIn heap heap' p (below.getLast?.getD 0) ((remaining heap p above).head?.getD 0)
        (mergedSize heap p above) := by
  have absent : p ∉ below ++ above := by
    intro isIn
    rcases List.mem_append.mp isIn with inBelow | inAbove
    · exact BitVec.lt_irrefl _ (low p inBelow)
    · exact BitVec.lt_irrefl _ (high p inAbove)
  rcases List.eq_nil_or_concat below with rfl | ⟨front, c, rfl⟩
  · exact kfree_links_first listed absent high some' notNull accepted sane
  · rw [List.concat_eq_append] at *
    rw [List.append_assoc, List.singleton_append] at listed absent
    rw [List.getLast?_concat, Option.getD_some]
    exact kfree_links_behind listed absent low high notNull accepted sane plain

theorem pointer_of_getD {link : Option Word} (real : ∀ a ∈ link, a ≠ 0) :
    pointer (link.getD 0) = link := by
  cases link with
  | none => rfl
  | some a => exact pointer_of_ne (real a rfl)

theorem of_getD {link : Option Word} {a : Word} (real : a ≠ 0) (same : link.getD 0 = a) :
    link = some a := by
  cases link with
  | none => exact absurd same.symm real
  | some b => exact congrArg some same

/-- The list once the block stands between `below` and `above`. What points back from the first
node does not matter if the block becomes the new first one. -/
theorem links_in {first : Option Word} {prev : Word → Option Word} {old : List Word}
    {extent : Word} (list : DList first heap.nextPtr prev (below ++ old ++ above))
    (same : ∀ a ∈ below ++ above.tail, prev a = heap.prevPtr a)
    (reals : ∀ a ∈ below ++ old ++ above, a ≠ 0) (notNull : p ≠ 0)
    (absent : p ∉ below ++ old ++ above)
    (linked : LinkedIn heap heap' p (below.getLast?.getD 0) (above.head?.getD 0) extent) :
    Linked heap' (if below = [] then some p else first) (below ++ p :: above) := by
  have unique := list.chain.nodup
  rw [List.append_assoc, List.nodup_append] at unique
  have uniqueAbove := (List.nodup_append.mp unique.2.1).2.1
  have apart : ∀ a ∈ below, a ∉ above := fun a inBelow inAbove =>
    unique.2.2 a inBelow a (List.mem_append_right _ inAbove) rfl
  have realBelow : ∀ a ∈ below.getLast?, a ≠ 0 := fun a last =>
    reals a (by simp [List.mem_of_getLast? last])
  have realAbove : ∀ a ∈ above.head?, a ≠ 0 := fun a head =>
    reals a (by simp [List.mem_of_head? head])
  have target : Linked heap' (if below = [] then some p else first) (below ++ [p] ++ above) := by
    refine DList.splice list ⟨?_, ?_, ?_, ?_, trivial⟩ (fun some' => if_neg some') ?_ ?_
    · cases last : below.getLast? with
      | none => rw [follow, if_pos (List.getLast?_eq_none_iff.mp last)]
      | some c =>
          have real := realBelow c last
          have ne : c ≠ p := fun same => absent (by simp [← same, List.mem_of_getLast? last])
          rw [follow, Heap.nextPtr, linked.next c real, if_neg ne, last,
            Option.getD_some, if_pos rfl]
          exact pointer_of_ne notNull
    · rw [Back, Heap.prevPtr, linked.prev p notNull, if_pos rfl]
      exact pointer_of_getD realBelow
    · rw [follow, Heap.nextPtr, linked.next p notNull, if_pos rfl]
      exact pointer_of_getD realAbove
    · cases head : above.head? with
      | none => trivial
      | some t =>
          have real := realAbove t head
          have ne : t ≠ p := fun same => absent (by simp [← same, List.mem_of_head? head])
          rw [Back, Heap.prevPtr, linked.prev t real, if_neg ne, head,
            Option.getD_some, if_pos rfl]
          exact pointer_of_ne notNull
    · intro a isIn
      have inAll : a ∈ below ++ old ++ above := by
        rcases List.mem_append.mp isIn with inBelow | inAbove
        · simp [List.mem_of_mem_dropLast inBelow]
        · simp [inAbove]
      have ne : a ≠ p := fun same => absent (same ▸ inAll)
      rw [Heap.nextPtr, linked.next a (reals a inAll), if_neg ne, if_neg, Heap.nextPtr]
      intro same
      have last := of_getD (reals a inAll) same.symm
      rcases List.mem_append.mp isIn with inBelow | inAbove
      · exact last_not_mem unique.1 last inBelow
      · exact apart a (List.mem_of_getLast? last) inAbove
    · intro a isIn
      have inAll : a ∈ below ++ old ++ above := by
        rcases List.mem_append.mp isIn with inBelow | inAbove
        · simp [inBelow]
        · simp [List.mem_of_mem_tail inAbove]
      have ne : a ≠ p := fun same => absent (same ▸ inAll)
      rw [same a isIn, Heap.prevPtr, linked.prev a (reals a inAll), if_neg ne, if_neg, Heap.prevPtr]
      intro same
      have head := of_getD (reals a inAll) same.symm
      rcases List.mem_append.mp isIn with inBelow | inAbove
      · exact apart a inBelow (List.mem_of_head? head)
      · exact head_not_mem uniqueAbove head inAbove
  simpa using target

theorem FreeList.links_in {old : List Word} {extent : Word}
    (list : FreeList heap (below ++ old ++ above)) (notNull : p ≠ 0)
    (absent : p ∉ below ++ old ++ above)
    (linked : LinkedIn heap heap' p (below.getLast?.getD 0) (above.head?.getD 0) extent) :
    FreeList heap' (below ++ p :: above) := by
  have head : pointer heap'.memSlot = if below = [] then some p else pointer heap.memSlot := by
    rw [linked.memSlot]
    cases last : below.getLast? with
    | none =>
        rw [if_pos (List.getLast?_eq_none_iff.mp last), Option.getD_none, if_pos rfl]
        exact pointer_of_ne notNull
    | some c =>
        have isIn := List.mem_of_getLast? last
        have some' : below ≠ [] := List.ne_nil_of_mem isIn
        rw [if_neg some', Option.getD_some, if_neg (list.ne_zero (by simp [isIn]))]
  rw [FreeList, head]
  exact XerosKernel.links_in list (fun _ _ => rfl) (fun _ isIn => list.ne_zero isIn) notNull absent
    linked

theorem remaining_sublist (heap : Heap) (p : Word) (above : List Word) :
    ∃ old, above = old ++ remaining heap p above := by
  by_cases touch : above.head? = some (ptrEndAddr heap p)
  · obtain ⟨rest, rfl⟩ := List.head?_eq_some_iff.mp touch
    exact ⟨[ptrEndAddr heap p], by simp [remaining]⟩
  · exact ⟨[], by simp [remaining, touch]⟩

theorem ascending_insert {old stays : List Word} (ascending : Ascending (below ++ (old ++ stays)))
    (low : ∀ a ∈ below, a < p) (high : ∀ a ∈ old ++ stays, p < a) :
    Ascending (below ++ p :: stays) := by
  obtain ⟨lower, upper, _⟩ := List.pairwise_append.mp ascending
  obtain ⟨_, upper, _⟩ := List.pairwise_append.mp upper
  refine List.pairwise_append.mpr ⟨lower, List.pairwise_cons.mpr ⟨?_, upper⟩, ?_⟩
  · exact fun a isIn => high a (List.mem_append_right _ isIn)
  · intro a inBelow b isIn
    rcases List.mem_cons.mp isIn with rfl | inStays
    · exact low a inBelow
    · exact BitVec.lt_trans (low a inBelow) (high b (List.mem_append_right _ inStays))

theorem FreeList.frees (list : FreeList heap nodes) (ascending : Ascending nodes)
    (absent : p ∉ nodes) (notNull : p ≠ 0) (some' : heap.memSlot ≠ 0)
    (accepted : ¬ kfreeRejects env (p + sizeofMemHeader))
    (sane : heap.sanity p = heap.size p + 16) (plain : ¬ ScaledHit heap p) :
    ∃ below above heap', nodes = below ++ above ∧ (∀ a ∈ below, a < p) ∧ (∀ a ∈ above, p < a) ∧
      kfree env heap (p + sizeofMemHeader) = some (1, heap') ∧
      LinkedIn heap heap' p (below.getLast?.getD 0) ((remaining heap p above).head?.getD 0)
        (mergedSize heap p above) ∧
      FreeList heap' (below ++ p :: remaining heap p above) ∧
      Ascending (below ++ p :: remaining heap p above) := by
  obtain ⟨below, above, rfl, low, high⟩ := ascending_split ascending absent
  obtain ⟨heap', freed, linked⟩ :=
    kfree_links list.chain low high some' notNull accepted sane plain
  obtain ⟨old, parts⟩ := remaining_sublist heap p above
  refine ⟨below, above, heap', rfl, low, high, freed, linked, ?_⟩
  generalize remaining heap p above = stays at *
  subst parts
  refine ⟨?_, ascending_insert ascending low high⟩
  rw [← List.append_assoc] at list absent
  exact list.links_in notNull absent linked

theorem Tracked.frees (tracked : Tracked heap nodes live) (isLive : p ∈ live)
    (some' : heap.memSlot ≠ 0) (accepted : ¬ kfreeRejects env (p + sizeofMemHeader))
    (plain : ¬ ScaledHit heap p) :
    ∃ below above heap', nodes = below ++ above ∧ (∀ a ∈ below, a < p) ∧ (∀ a ∈ above, p < a) ∧
      kfree env heap (p + sizeofMemHeader) = some (1, heap') ∧
      (∀ a, heap'.size a = if a = p then mergedSize heap p above else heap.size a) ∧
      Tracked heap' (below ++ p :: remaining heap p above) (live.erase p) := by
  have sane := tracked.sane p (List.mem_append_right _ isLive)
  obtain ⟨below, above, heap', rfl, low, high, freed, linked, list, ascending⟩ :=
    tracked.list.frees tracked.ascending (tracked.apart p isLive) (tracked.real p isLive) some'
      accepted sane plain
  refine ⟨below, above, heap', rfl, low, high, freed, linked.size, ?_⟩
  obtain ⟨old, parts⟩ := remaining_sublist heap p above
  have kept : ∀ a ∈ below ++ remaining heap p above, a ∈ below ++ above := by
    intro a isIn
    rw [parts]
    simp only [List.mem_append] at isIn ⊢
    tauto
  have apart : ∀ h ∈ live.erase p, h ≠ p ∧ h ∈ live := fun h isIn =>
    (tracked.unique.mem_erase_iff).mp isIn
  refine ⟨list, ascending, tracked.unique.erase p, ?_, ?_, ?_⟩
  · exact fun a isIn => tracked.real a (apart a isIn).2
  · intro a isIn inNodes
    obtain ⟨ne, isLive'⟩ := apart a isIn
    refine tracked.apart a isLive' (kept a ?_)
    simpa [ne] using inNodes
  · intro a isIn
    rw [linked.sanity, linked.size]
    by_cases same : a = p
    · rw [if_pos same, if_pos same]
    · rw [if_neg same, if_neg same]
      refine tracked.sane a ?_
      simp only [List.mem_append, List.mem_cons, same, false_or] at isIn
      rcases isIn with (inBelow | inStays) | inLive
      · simp [inBelow]
      · exact List.mem_append_left _ (kept a (by simp [inStays]))
      · simp [(apart a inLive).2]

end XerosKernel
