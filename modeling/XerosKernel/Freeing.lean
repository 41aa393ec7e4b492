import XerosKernel.Coalescing

/-!
Giving back a block in any reachable state of the allocator. `memSlot` may point into the middle
of the list or nowhere, so the invariant keeps the whole list apart from the part of it that
`memSlot` reaches.
-/

namespace XerosKernel

open DoublyLinked Execution HeapState IntrusiveList

variable {env : Env} {heap heap' : Heap} {nodes live front back below above : List Word}
  {c p t : Word} {state final : HeapState} {calls : List HeapCall}

/-! Null pointers. -/

def kfreeLoopDerefs (heap : Heap) (ptr : Word) : Nat → Word → List Word
  | 0, _ => []
  | fuel + 1, curr =>
      let ptrHeader := ptr - sizeofMemHeader
      if curr = 0 then []
      else if heap.next curr = 0 then [curr]
      else if ptrHeader < heap.next curr then
        let temp := heap.next curr
        let tempNext := heap.next temp
        -- cases E and G write to `tempNext` after testing it
        if ptr + heap.size ptrHeader = temp ∧ tempNext ≠ 0 then [curr, temp, tempNext]
        else [curr, temp]
      else curr :: kfreeLoopDerefs heap ptr fuel (heap.next curr)

/-- The list pointers that `kfree` dereferences. -/
def kfreeDerefs (env : Env) (heap : Heap) (ptr : Word) : List Word :=
  if kfreeRejects env ptr then []
  else
    let ptrHeader := ptr - sizeofMemHeader
    if (heap.header ptrHeader).sanityCheck ≠ heap.size ptrHeader + 16 then []
    else
      let curr := heap.memSlot
      if ptrHeader < curr then
        -- case A writes to `curr->next`
        if ptr + heap.size ptrHeader = curr then [curr, heap.next curr] else [curr]
      else if curr < ptrHeader then kfreeLoopDerefs heap ptr listFuel curr
      else []

theorem kfreeLoopDerefs_real (heap : Heap) (ptr : Word) (fuel : Nat) (curr : Word) :
    0 ∉ kfreeLoopDerefs heap ptr fuel curr := by
  induction fuel generalizing curr with
  | zero => simp [kfreeLoopDerefs]
  | succ fuel ih =>
      simp only [kfreeLoopDerefs]
      split_ifs with null last before touch
      · simp
      · simpa using Ne.symm null
      · simpa using ⟨Ne.symm null, Ne.symm last, Ne.symm touch.2⟩
      · simpa using ⟨Ne.symm null, Ne.symm last⟩
      · rw [List.mem_cons, not_or]
        exact ⟨Ne.symm null, ih (heap.next curr)⟩

def ReachesNull (heap : Heap) (p : Word) : Prop :=
  p < heap.memSlot ∧ ptrEndAddr heap p = heap.memSlot ∧ heap.next heap.memSlot = 0

instance (heap : Heap) (p : Word) : Decidable (ReachesNull heap p) :=
  inferInstanceAs (Decidable (_ ∧ _))

theorem kfreeDerefs_null (accepted : ¬ kfreeRejects env (p + sizeofMemHeader))
    (sane : heap.sanity p = heap.size p + 16) :
    0 ∈ kfreeDerefs env heap (p + sizeofMemHeader) ↔ ReachesNull heap p := by
  have header : p + sizeofMemHeader - sizeofMemHeader = p := BitVec.add_sub_cancel ..
  rw [kfreeDerefs, if_neg accepted]
  simp only [header]
  rw [if_neg fun other => other sane]
  by_cases lower : p < heap.memSlot
  · have slot : (0 : Word) ≠ heap.memSlot := by bv_omega
    rw [if_pos lower]
    by_cases touch : p + sizeofMemHeader + heap.size p = heap.memSlot
    · rw [if_pos touch]
      simp only [List.mem_cons, List.not_mem_nil, or_false, slot, false_or]
      exact ⟨fun null => ⟨lower, touch, null.symm⟩, fun reaches => reaches.2.2.symm⟩
    · rw [if_neg touch]
      simp only [List.mem_singleton, slot, false_iff]
      exact fun reaches => touch reaches.2.1
  · rw [if_neg lower]
    have never : 0 ∉ (if heap.memSlot < p then
        kfreeLoopDerefs heap (p + sizeofMemHeader) listFuel heap.memSlot else []) := by
      split
      · exact kfreeLoopDerefs_real _ _ _ _
      · simp
    exact ⟨fun null => absurd null never, fun reaches => absurd reaches.1 lower⟩

/-! The whole list. -/

/-- The nodes of `whole` are linked both ways and in order, and hold no allocated block;
`memSlot` points to one of them. -/
structure Threaded (heap : Heap) (whole live : List Word) : Prop where
  linked : Linked heap whole.head? whole
  slot : heap.memSlot = 0 ∨ heap.memSlot ∈ whole
  ascending : Ascending whole
  real : ∀ h ∈ whole ++ live, h ≠ 0
  unique : live.Nodup
  apart : ∀ h ∈ live, h ∉ whole
  sane : ∀ h ∈ whole ++ live, heap.sanity h = heap.size h + 16

theorem Linked.listed {lost : List Word}
    (linked : Linked heap (lost ++ nodes).head? (lost ++ nodes))
    (slot : pointer heap.memSlot = nodes.head?) : Listed heap nodes := by
  obtain ⟨middle, _, rest⟩ := seg_append.mp linked.chain
  rw [Listed, slot, ← Seg.head_eq rest]
  exact rest

namespace Threaded

variable {whole : List Word}

theorem reached (threaded : Threaded heap whole live) :
    ∃ lost nodes, whole = lost ++ nodes ∧ Listed heap nodes ∧
      (nodes = [] → heap.memSlot = 0) := by
  by_cases null : heap.memSlot = 0
  · refine ⟨whole, [], by simp, ?_, fun _ => null⟩
    rw [Listed, pointer_eq_none.mpr null]
    rfl
  · obtain ⟨lost, rest, rfl⟩ := List.append_of_mem (threaded.slot.resolve_left null)
    refine ⟨lost, _, rfl, threaded.linked.listed (pointer_of_ne null), fun empty => ?_⟩
    cases empty

theorem drop (threaded : Threaded heap whole live) (h : Word) :
    Threaded heap whole (live.erase h) where
  linked := threaded.linked
  slot := threaded.slot
  ascending := threaded.ascending
  real := by
    intro a isIn
    refine threaded.real a ?_
    simp only [List.mem_append] at isIn ⊢
    exact isIn.imp_right List.mem_of_mem_erase
  unique := threaded.unique.erase h
  apart := fun a isIn => threaded.apart a (List.mem_of_mem_erase isIn)
  sane := by
    intro a isIn
    refine threaded.sane a ?_
    simp only [List.mem_append] at isIn ⊢
    exact isIn.imp_right List.mem_of_mem_erase

/-! `kmalloc`. -/

theorem take (threaded : Threaded heap (front ++ c :: back) live) :
    Threaded (takeBlock heap c) (front ++ back) (c :: live) := by
  have linked := threaded.linked
  have notNull := threaded.real c (by simp)
  obtain ⟨nextEq, prevEq⟩ := linked.links_at
  obtain ⟨notPrev, notNext⟩ := linked.neighbours_ne notNull
  obtain ⟨_, _, slot, size, sanity⟩ := takeBlock_links notPrev notNext
  have unique := linked.chain.nodup
  have same : ∀ a, a ∈ front ++ back ++ c :: live → a ∈ front ++ c :: back ++ live := by
    intro a isIn
    simp only [List.mem_append, List.mem_cons] at isIn ⊢
    tauto
  refine ⟨?_, ?_, threaded.ascending.sublist (by simp), fun a isIn => threaded.real a (same a isIn),
    ?_, ?_, ?_⟩
  · have head : (front ++ back).head? =
        if front = [] then back.head? else (front ++ c :: back).head? := by
      cases front <;> simp
    rw [head]
    exact linked.take notNull
  · rw [slot]
    by_cases noPrev : heap.prev c = 0
    · rw [if_pos noPrev]
      by_cases noNext : heap.next c = 0
      · exact Or.inl noNext
      · rw [Heap.nextPtr, pointer_of_ne noNext] at nextEq
        exact Or.inr (List.mem_append_right _ (List.mem_of_head? nextEq.symm))
    · rw [if_neg noPrev]
      rw [Heap.prevPtr, pointer_of_ne noPrev] at prevEq
      exact Or.inr (List.mem_append_left _ (List.mem_of_getLast? prevEq.symm))
  · exact List.nodup_cons.mpr ⟨fun isIn => threaded.apart c isIn (by simp), threaded.unique⟩
  · intro a isIn inWhole
    rcases List.mem_cons.mp isIn with rfl | inLive
    · rw [List.nodup_append, List.nodup_cons] at unique
      rcases List.mem_append.mp inWhole with inFront | inBack
      · exact unique.2.2 a inFront a (by simp) rfl
      · exact unique.2.1.1 inBack
    · refine threaded.apart a inLive ?_
      simp only [List.mem_append, List.mem_cons] at inWhole ⊢
      tauto
  · intro a isIn
    rw [size, sanity]
    exact threaded.sane a (same a isIn)

theorem split {newHeader req_size : Word} (threaded : Threaded heap (front ++ c :: back) live)
    (shape : newHeader = c + sizeofMemHeader + req_size) (behind : c < newHeader)
    (before : ∀ a ∈ back, newHeader < a) (fresh : newHeader ∉ live) :
    Threaded (splitBlock heap c req_size) (front ++ newHeader :: back) (c :: live) := by
  have linked := threaded.linked
  have notNull := threaded.real c (by simp)
  have real : newHeader ≠ 0 := by bv_omega
  have lower : ∀ a ∈ front, a < c := fun a inFront =>
    (List.pairwise_append.mp threaded.ascending).2.2 a inFront c (by simp)
  have absent : newHeader ∉ front ++ c :: back := by
    rw [List.mem_append, List.mem_cons, not_or, not_or]
    refine ⟨fun inFront => ?_, by bv_omega, fun inBack => BitVec.lt_irrefl _ (before _ inBack)⟩
    exact BitVec.lt_irrefl _ (BitVec.lt_trans (lower _ inFront) behind)
  obtain ⟨notPrev, notLoop⟩ := linked.neighbours_ne notNull
  obtain ⟨notBefore, notNext⟩ := linked.neighbours_fresh absent real
  obtain ⟨_, _, slot, size, sanity⟩ :=
    splitBlock_links (by bv_omega) notPrev notLoop notBefore notNext shape
  have unique := linked.chain.nodup
  have same : ∀ a ∈ front ++ newHeader :: back ++ c :: live,
      a = newHeader ∨ a ∈ front ++ c :: back ++ live := by
    intro a isIn
    simp only [List.mem_append, List.mem_cons] at isIn ⊢
    tauto
  refine ⟨?_, ?_, ?_, ?_, ?_, ?_, ?_⟩
  · have head : (front ++ newHeader :: back).head? =
        if front = [] then some newHeader else (front ++ c :: back).head? := by
      cases front <;> simp
    rw [head]
    exact linked.split notNull real absent shape
  · exact Or.inr (by simp [slot])
  · have others : Ascending (front ++ ([] ++ back)) := threaded.ascending.sublist (by simp)
    exact ascending_insert others (fun a inFront => BitVec.lt_trans (lower a inFront) behind) before
  · intro a isIn
    rcases same a isIn with rfl | old
    · exact real
    · exact threaded.real a old
  · exact List.nodup_cons.mpr ⟨fun isIn => threaded.apart c isIn (by simp), threaded.unique⟩
  · intro a isIn inWhole
    rw [List.nodup_append, List.nodup_cons] at unique
    simp only [List.mem_append, List.mem_cons] at inWhole
    rcases List.mem_cons.mp isIn with rfl | inLive
    · rcases inWhole with inFront | isNew | inBack
      · exact unique.2.2 a inFront a (by simp) rfl
      · exact absent (by simp [← isNew])
      · exact unique.2.1.1 inBack
    · rcases inWhole with inFront | isNew | inBack
      · exact threaded.apart a inLive (by simp [inFront])
      · exact fresh (isNew ▸ inLive)
      · exact threaded.apart a inLive (by simp [inBack])
  · intro a isIn
    rw [sanity, size]
    split_ifs with isNew isC
    · rfl
    · rfl
    · exact threaded.sane a ((same a isIn).resolve_left isNew)

/-! `kfree`. -/

theorem frees {stays : List Word} {extent : Word} (threaded : Threaded heap whole live)
    (isLive : p ∈ live) (linked : Linked heap' (front ++ p :: stays).head? (front ++ p :: stays))
    (slot : heap'.memSlot = 0 ∨ heap'.memSlot ∈ front ++ p :: stays)
    (kept : (front ++ stays).Sublist whole) (low : ∀ a ∈ front, a < p) (high : ∀ a ∈ stays, p < a)
    (size : ∀ a, heap'.size a = if a = p then extent else heap.size a)
    (sanity : ∀ a, heap'.sanity a = if a = p then extent + 16 else heap.sanity a) :
    Threaded heap' (front ++ p :: stays) (live.erase p) := by
  have apart : ∀ h ∈ live.erase p, h ≠ p ∧ h ∈ live := fun h isIn =>
    (threaded.unique.mem_erase_iff).mp isIn
  have same : ∀ a ∈ front ++ p :: stays ++ live.erase p, a = p ∨ a ∈ whole ++ live := by
    intro a isIn
    have inWhole := kept.subset (a := a)
    have inLive := apart a
    simp only [List.mem_append, List.mem_cons] at isIn inWhole ⊢
    tauto
  refine ⟨linked, slot, ?_, ?_, threaded.unique.erase p, ?_, ?_⟩
  · have others : Ascending (front ++ ([] ++ stays)) := threaded.ascending.sublist kept
    exact ascending_insert others low high
  · intro a isIn
    rcases same a isIn with rfl | old
    · exact threaded.real a (List.mem_append_right _ isLive)
    · exact threaded.real a old
  · intro a isIn inNodes
    obtain ⟨ne, isLive'⟩ := apart a isIn
    refine threaded.apart a isLive' (kept.subset ?_)
    simpa [ne] using inNodes
  · intro a isIn
    rw [size, sanity]
    split_ifs with isP
    · rfl
    · exact threaded.sane a ((same a isIn).resolve_left isP)

theorem links_first {lost old stays : List Word} {extent : Word}
    (threaded : Threaded heap (lost ++ (old ++ stays)) live) (some' : old ++ stays ≠ [])
    (isLive : p ∈ live) (high : ∀ a ∈ stays, p < a)
    (linked : LinkedIn heap heap' p 0 (stays.head?.getD 0) extent) :
    Threaded heap' (p :: stays) (live.erase p) ∧ pointer heap'.memSlot = some p := by
  have notNull := threaded.real p (List.mem_append_right _ isLive)
  have absent := threaded.apart p isLive
  have reals : ∀ a ∈ lost ++ (old ++ stays), a ≠ 0 := fun a isIn =>
    threaded.real a (List.mem_append_left _ isIn)
  obtain ⟨t, rest, first⟩ := List.exists_cons_of_ne_nil some'
  have whole := threaded.linked
  rw [first] at whole
  have unique := (List.nodup_append.mp whole.chain.nodup).2.1
  rw [List.nodup_cons] at unique
  have cut : DList (some t) heap.nextPtr (fun a => if a = t then none else heap.prevPtr a)
      ([] ++ old ++ stays) := by
    rw [List.nil_append, first]
    exact whole.cut (if_pos rfl) fun a isIn => if_neg fun (same : a = t) =>
      unique.1 (same ▸ isIn)
  have outside : ∀ a ∈ stays.tail, a ≠ t := by
    rintro a isIn rfl
    cases old with
    | nil =>
        rw [List.nil_append] at first
        rw [first] at isIn
        exact unique.1 isIn
    | cons o old =>
        obtain ⟨rfl, rfl⟩ := List.cons.inj first
        exact unique.1 (List.mem_append_right _ (List.mem_of_mem_tail isIn))
  have inserted := links_in cut (fun a isIn => if_neg (outside a isIn))
    (fun a isIn => reals a (by simpa using Or.inr isIn)) notNull
    (fun isIn => absent (by simpa using Or.inr isIn)) linked
  have head : heap'.memSlot = p := by simp [linked.memSlot]
  have kept : stays.Sublist (lost ++ (old ++ stays)) :=
    (List.sublist_append_right old stays).trans (List.sublist_append_right lost _)
  have after : Threaded heap' ([] ++ p :: stays) (live.erase p) :=
    threaded.frees isLive inserted (Or.inr (by simp [head])) kept (by simp) high linked.size
      linked.sanity
  exact ⟨after, by rw [head, pointer_of_ne notNull]⟩

theorem links_behind {lost old stays rest : List Word} {first extent : Word}
    (threaded : Threaded heap (lost ++ (first :: rest ++ (old ++ stays))) live)
    (isLive : p ∈ live) (low : ∀ a ∈ first :: rest, a < p) (high : ∀ a ∈ stays, p < a)
    (isFirst : heap.memSlot = first)
    (linked : LinkedIn heap heap' p ((first :: rest).getLast?.getD 0) (stays.head?.getD 0)
      extent) :
    Threaded heap' (lost ++ (first :: rest ++ p :: stays)) (live.erase p) ∧
      pointer heap'.memSlot = some first := by
  have notNull := threaded.real p (List.mem_append_right _ isLive)
  have absent := threaded.apart p isLive
  have reals : ∀ a ∈ lost ++ (first :: rest ++ (old ++ stays)), a ≠ 0 := fun a isIn =>
    threaded.real a (List.mem_append_left _ isIn)
  have shape : lost ++ (first :: rest ++ (old ++ stays)) =
      (lost ++ first :: rest) ++ old ++ stays := by simp
  have last : (lost ++ first :: rest).getLast? = (first :: rest).getLast? :=
    List.getLast?_append_of_ne_nil _ (List.cons_ne_nil _ _)
  have filled : lost ++ first :: rest ≠ [] := by simp
  have whole := threaded.linked
  rw [shape] at whole absent reals
  rw [← last] at linked
  have inserted := links_in whole (fun _ _ => rfl) reals notNull absent linked
  rw [if_neg filled] at inserted
  have head : ((lost ++ first :: rest) ++ old ++ stays).head? =
      ((lost ++ first :: rest) ++ p :: stays).head? := by cases lost <;> simp
  rw [head] at inserted
  have stays' : heap'.memSlot = first := by
    obtain ⟨c, isLast⟩ := Option.isSome_iff_exists.mp (List.getLast?_isSome.mpr filled)
    have real := reals c (List.mem_append_left _ (List.mem_append_left _
      (List.mem_of_getLast? isLast)))
    rw [linked.memSlot, isLast, Option.getD_some, if_neg real, isFirst]
  refine ⟨?_, ?_⟩
  · rw [← List.append_assoc]
    refine threaded.frees isLive inserted (Or.inr (by simp [stays'])) ?_ ?_ high linked.size
      linked.sanity
    · rw [shape]
      exact (List.sublist_append_left _ _).append_right _
    · intro a isIn
      rcases List.mem_append.mp isIn with inLost | inBelow
      · have lower := (List.pairwise_append.mp threaded.ascending).2.2 a inLost first (by simp)
        exact BitVec.lt_trans lower (low first (by simp))
      · exact low a inBelow
  · rw [stays', pointer_of_ne (reals first (by simp))]

theorem links {lost : List Word} (threaded : Threaded heap (lost ++ (below ++ above)) live)
    (some' : below ++ above ≠ []) (isLive : p ∈ live) (low : ∀ a ∈ below, a < p)
    (high : ∀ a ∈ above, p < a) (slot : pointer heap.memSlot = (below ++ above).head?)
    (linked : LinkedIn heap heap' p (below.getLast?.getD 0) ((remaining heap p above).head?.getD 0)
      (mergedSize heap p above)) :
    ∃ kept, Threaded heap' (kept ++ (below ++ p :: remaining heap p above)) (live.erase p) ∧
      pointer heap'.memSlot = (below ++ p :: remaining heap p above).head? := by
  obtain ⟨old, parts⟩ := remaining_sublist heap p above
  generalize remaining heap p above = stays at *
  subst parts
  have high' : ∀ a ∈ stays, p < a := fun a isIn => high a (List.mem_append_right _ isIn)
  cases below with
  | nil => exact ⟨[], links_first threaded some' isLive high' linked⟩
  | cons first rest =>
      have isFirst : heap.memSlot = first := (pointer_eq_some.mp slot).2
      exact ⟨lost, links_behind threaded isLive low high' isFirst linked⟩

theorem absorbs {lost old stays : List Word} {extent : Word}
    (threaded : Threaded heap (lost ++ (front ++ c :: (old ++ stays))) live)
    (slot : heap.memSlot ∈ front ++ [c]) (p : Word)
    (absorbs : Absorbs heap heap' c (stays.head?.getD 0) extent) :
    Threaded heap' (lost ++ (front ++ c :: stays)) (live.erase p) := by
  have kept : (lost ++ (front ++ c :: stays)).Sublist (lost ++ (front ++ c :: (old ++ stays))) := by
    simp
  have same : ∀ a ∈ lost ++ (front ++ c :: stays) ++ live.erase p,
      a ∈ lost ++ (front ++ c :: (old ++ stays)) ++ live := by
    intro a isIn
    rcases List.mem_append.mp isIn with inWhole | inLive
    · exact List.mem_append_left _ (kept.subset inWhole)
    · exact List.mem_append_right _ (List.mem_of_mem_erase inLive)
  refine ⟨?_, ?_, threaded.ascending.sublist kept, fun a isIn => threaded.real a (same a isIn),
    threaded.unique.erase p, ?_, ?_⟩
  · have linked := threaded.linked
    have reals : ∀ a ∈ lost ++ (front ++ c :: (old ++ stays)), a ≠ 0 := fun a isIn =>
      threaded.real a (List.mem_append_left _ isIn)
    rw [← List.append_assoc] at linked reals
    have head : ((lost ++ front) ++ c :: (old ++ stays)).head? =
        ((lost ++ front) ++ c :: stays).head? := by
      cases lost ++ front <;> simp
    rw [← List.append_assoc, ← head]
    exact Absorbs.linked linked reals absorbs
  · refine Or.inr ?_
    rw [absorbs.memSlot]
    simp only [List.mem_append, List.mem_cons, List.not_mem_nil, or_false] at slot ⊢
    tauto
  · exact fun a isIn inWhole => threaded.apart a (List.mem_of_mem_erase isIn) (kept.subset inWhole)
  · intro a isIn
    rw [absorbs.size, absorbs.sanity]
    split_ifs with isC
    · rfl
    · exact threaded.sane a (same a isIn)

theorem sides (threaded : Threaded heap whole live) (isLive : p ∈ live) (some' : heap.memSlot ≠ 0) :
    ∃ lost below above, whole = lost ++ (below ++ above) ∧ Listed heap (below ++ above) ∧
      below ++ above ≠ [] ∧ (∀ a ∈ below, a < p) ∧ ∀ a ∈ above, p < a := by
  obtain ⟨lost, nodes, rfl, listed, null⟩ := threaded.reached
  have absent : p ∉ nodes := fun isIn =>
    threaded.apart p isLive (List.mem_append_right _ isIn)
  have ascending := threaded.ascending.sublist (List.sublist_append_right lost nodes)
  obtain ⟨below, above, rfl, low, high⟩ := ascending_split ascending absent
  exact ⟨lost, below, above, rfl, listed, fun empty => some' (null empty), low, high⟩

theorem frees_plain (threaded : Threaded heap whole live) (isLive : p ∈ live)
    (some' : heap.memSlot ≠ 0) (accepted : ¬ kfreeRejects env (p + sizeofMemHeader))
    (plain : ¬ ScaledHit heap p) :
    ∃ below above heap' kept, Listed heap (below ++ above) ∧ (∀ a ∈ below, a < p) ∧
      (∀ a ∈ above, p < a) ∧ kfree env heap (p + sizeofMemHeader) = some (1, heap') ∧
      heap'.size p = mergedSize heap p above ∧
      Threaded heap' (kept ++ (below ++ p :: remaining heap p above)) (live.erase p) ∧
      Listed heap' (below ++ p :: remaining heap p above) := by
  obtain ⟨lost, below, above, rfl, listed, filled, low, high⟩ := threaded.sides isLive some'
  have notNull := threaded.real p (List.mem_append_right _ isLive)
  have sane := threaded.sane p (List.mem_append_right _ isLive)
  obtain ⟨heap', freed, linked⟩ := kfree_links listed low high some' notNull accepted sane plain
  obtain ⟨kept, after, slot⟩ := threaded.links filled isLive low high listed.head_eq linked
  refine ⟨below, above, heap', kept, listed, low, high, freed, ?_, after, ?_⟩
  · rw [linked.size, if_pos rfl]
  · exact after.linked.listed slot

theorem free {value : Word} (threaded : Threaded heap whole live) (isLive : p ∈ live)
    (freed : kfree env heap (p + sizeofMemHeader) = some (value, heap')) :
    ∃ whole', Threaded heap' whole' (live.erase p) := by
  have sane := threaded.sane p (List.mem_append_right _ isLive)
  by_cases rejected : kfreeRejects env (p + sizeofMemHeader)
  · rw [kfree, if_pos rejected] at freed
    cases freed
    exact ⟨whole, threaded.drop p⟩
  · by_cases empty : heap.memSlot = 0
    · rw [kfree_empty rejected sane empty] at freed
      cases freed
      exact ⟨whole, threaded.drop p⟩
    · by_cases hit : ScaledHit heap p
      · obtain ⟨lost, below, above, rfl, listed, _, low, high⟩ := threaded.sides isLive empty
        obtain ⟨front, c, rfl, found⟩ := hit.left listed low high
        have shape : front ++ [c] ++ above = front ++ c :: above := by simp
        rw [shape] at listed threaded
        have linked := threaded.linked
        rw [← List.append_assoc] at linked
        obtain ⟨heap'', extent, freed', absorbs⟩ := kfree_absorbs listed linked.prev_next low high
          rejected sane found
        rw [freed'] at freed
        cases freed
        have slot : heap.memSlot ∈ front ++ [c] := by
          cases front with
          | nil => simpa using listed.memSlot_cons
          | cons first rest => simp [Listed.memSlot_cons listed]
        obtain ⟨old, parts⟩ := remaining_sublist heap p above
        generalize remaining heap p above = stays at *
        subst parts
        exact ⟨_, threaded.absorbs slot p absorbs⟩
      · obtain ⟨_, _, heap'', kept, _, _, _, freed', _, after, _⟩ :=
          threaded.frees_plain isLive empty rejected hit
        rw [freed'] at freed
        cases freed
        exact ⟨_, after⟩

end Threaded

/-! Runs. -/

/-- The rest of a block that `kmalloc` splits lies in front of the next free block and on no
allocated one. -/
def RestFits (state : HeapState) : HeapCall → Prop
  | .malloc size => ∀ c ∈ chosenBlock state.heap size,
      aligned size + sizeofMemHeader < state.heap.size c →
        c < c + sizeofMemHeader + aligned size ∧
        (state.heap.next c = 0 ∨ c + sizeofMemHeader + aligned size < state.heap.next c) ∧
        c + sizeofMemHeader + aligned size ∉ state.live
  | .free _ => True

instance (state : HeapState) (call : HeapCall) : Decidable (RestFits state call) :=
  match call with
  | .malloc _ => Option.decidableForallMem _
  | .free _ => isTrue trivial

theorem Threaded.step {whole : List Word} {call : HeapCall}
    (threaded : Threaded state.heap whole state.live)
    (guard : Owned state call ∧ RestFits state call)
    (stepped : HeapState.step env state call = some final) :
    ∃ whole', Threaded final.heap whole' final.live := by
  cases call with
  | malloc size =>
      obtain ⟨lost, nodes, rfl, listed, _⟩ := threaded.reached
      rcases malloc_step listed stepped with ⟨_, rfl⟩ | ⟨front, c, back, chosen, rfl, rfl⟩
      · exact ⟨_, threaded⟩
      · have used : ∃ whole', Threaded (useBlock state.heap (aligned size) c) whole'
            (c :: state.live) := by
          rw [← List.append_assoc] at threaded
          rw [useBlock]
          split
          · rename_i larger
            obtain ⟨behind, before, fresh⟩ := guard.2 c chosen larger
            have higher := threaded.linked.behind threaded.ascending before
            exact ⟨_, threaded.split rfl behind higher fresh⟩
          · exact ⟨_, threaded.take⟩
        obtain ⟨whole', after⟩ := used
        refine ⟨whole', ?_⟩
        simp only
        split
        · have dropped := after.drop c
          rwa [List.erase_cons_head] at dropped
        · exact after
  | free ptr =>
      have header : ptr - sizeofMemHeader + sizeofMemHeader = ptr := BitVec.sub_add_cancel ..
      obtain ⟨⟨value, heap'⟩, freed, rfl⟩ := Option.map_eq_some_iff.mp stepped
      rw [← header] at freed
      exact threaded.free guard.1 freed

theorem kmeminit_threaded (layout : Layout env) (notNull : aligned env.freemem ≠ 0) :
    Threaded (start env).heap [aligned env.freemem, env.HOLEEND] (start env).live := by
  obtain ⟨list, ascending, unique, real, apart, sane⟩ := kmeminit_tracked layout notNull
  refine ⟨?_, Or.inr (by simp [start]), ascending, fun a isIn => ?_, unique, apart, sane⟩
  · rw [FreeList, kmeminit_memSlot, pointer_of_ne notNull] at list
    exact list
  · exact list.ne_zero (by simpa [start] using isIn)

/-- `kfree` returns 1, dereferences no null pointer of the list, and the list that `memSlot` then
heads holds every byte of the block. -/
def GivesBack (env : Env) (heap : Heap) (p : Word) : Prop :=
  ∃ heap' nodes', kfree env heap (p + sizeofMemHeader) = some (1, heap') ∧
    0 ∉ kfreeDerefs env heap (p + sizeofMemHeader) ∧ Listed heap' nodes' ∧
    ∀ byte, Covered heap [p] byte → Covered heap' nodes' byte

/-- There is a list, the pointer is accepted, the block is not found behind a node, and it is not
merged with the only one; a merged size fits. -/
def Freeable (env : Env) (heap : Heap) (p : Word) : Prop :=
  heap.memSlot ≠ 0 ∧ ¬ kfreeRejects env (p + sizeofMemHeader) ∧ ¬ ScaledHit heap p ∧
    ¬ ReachesNull heap p ∧
    (Joins heap p → (heap.size p).toNat + sizeofMemHeader.toNat +
      (heap.size (ptrEndAddr heap p)).toNat < 2 ^ 32)

instance (env : Env) (heap : Heap) (p : Word) : Decidable (Freeable env heap p) :=
  inferInstanceAs (Decidable (_ ∧ _))

theorem Threaded.givesBack {whole : List Word} (threaded : Threaded heap whole live)
    (isLive : p ∈ live) (freeable : Freeable env heap p) : GivesBack env heap p := by
  obtain ⟨some', accepted, plain, notNull, fits⟩ := freeable
  have sane := threaded.sane p (List.mem_append_right _ isLive)
  obtain ⟨below, above, heap', kept, listed, low, high, freed, size, _, after⟩ :=
    threaded.frees_plain isLive some' accepted plain
  refine ⟨heap', _, freed, ?_, after, ?_⟩
  · exact fun null => notNull ((kfreeDerefs_null accepted sane).mp null)
  · rintro byte ⟨h, isIn, lower, upper⟩
    obtain rfl := List.mem_singleton.mp isIn
    refine ⟨h, by simp, lower, ?_⟩
    rw [blockEnd, size, mergedSize]
    split_ifs with touch
    · have bound := fits (listed.joins low high touch)
      rw [blockEnd] at upper
      unfold sizeofMemHeader at *
      bv_omega
    · exact upper

theorem GivesBack.needs {whole : List Word} (threaded : Threaded heap whole live)
    (isLive : p ∈ live) (givesBack : GivesBack env heap p) :
    heap.memSlot ≠ 0 ∧ ¬ kfreeRejects env (p + sizeofMemHeader) ∧ ¬ ReachesNull heap p := by
  obtain ⟨heap', nodes', freed, notNull, _⟩ := givesBack
  have sane := threaded.sane p (List.mem_append_right _ isLive)
  by_cases rejected : kfreeRejects env (p + sizeofMemHeader)
  · rw [kfree, if_pos rejected] at freed
    cases freed
  · refine ⟨fun empty => ?_, rejected, fun reaches => ?_⟩
    · rw [kfree_empty rejected sane empty] at freed
      cases freed
    · exact notNull ((kfreeDerefs_null rejected sane).mpr reaches)

/-- In every run in which the rest of a split block fits, `kfree` gives back each allocated block
for which there is a list, whose pointer is accepted, which is not found behind a node that it
does not touch and which is not merged with the only node; the first two and the last of these
conditions are necessary. -/
theorem live_blocks_freed {env : Env} {calls : List HeapCall} {final : HeapState}
    (layout : Layout env) (notNull : aligned env.freemem ≠ 0)
    (along : Along (HeapState.step env)
      (fun state call => Owned state call ∧ RestFits state call) (start env) calls)
    (reached : run (HeapState.step env) (start env) calls = some final) :
    ∀ p ∈ final.live, (Freeable env final.heap p → GivesBack env final.heap p) ∧
      (GivesBack env final.heap p → final.heap.memSlot ≠ 0 ∧
        ¬ kfreeRejects env (p + sizeofMemHeader) ∧ ¬ ReachesNull final.heap p) := by
  have kept : ∀ (state : HeapState) call after,
      (∃ whole, Threaded state.heap whole state.live) → Owned state call ∧ RestFits state call →
      HeapState.step env state call = some after →
      ∃ whole, Threaded after.heap whole after.live := by
    rintro state call after ⟨whole, threaded⟩ guard stepped
    exact threaded.step guard stepped
  obtain ⟨whole, threaded⟩ :=
    run_invariant kept ⟨_, kmeminit_threaded layout notNull⟩ along reached
  intro p isLive
  exact ⟨fun freeable => threaded.givesBack isLive freeable,
    fun givesBack => givesBack.needs threaded isLive⟩

theorem live_blocks_freed_first : ∃ final, run (HeapState.step sampleEnv) (start sampleEnv)
      [.malloc 100, .malloc 200] = some final ∧ 0x9600 ∈ final.live ∧
    GivesBack sampleEnv final.heap 0x9600 := by
  have along : Along (HeapState.step sampleEnv)
      (fun state call => Owned state call ∧ RestFits state call) (start sampleEnv)
      [.malloc 100, .malloc 200] := by decide +kernel
  have check : ∃ final ∈ run (HeapState.step sampleEnv) (start sampleEnv)
      [.malloc 100, .malloc 200],
      0x9600 ∈ final.live ∧ Freeable sampleEnv final.heap 0x9600 := by decide +kernel
  obtain ⟨final, reached, isLive, freeable⟩ := check
  exact ⟨final, reached, isLive,
    (live_blocks_freed sampleEnv_layout (by decide) along reached 0x9600 isLive).1 freeable⟩

/-- Both blocks of start-up are taken whole, and nothing is left to link them to. -/
theorem live_blocks_freed_broken : ∃ final, Along (HeapState.step sampleEnv) Owned (start sampleEnv)
      [.malloc 0x969f0, .malloc 0x269fe0] ∧
    run (HeapState.step sampleEnv) (start sampleEnv) [.malloc 0x969f0, .malloc 0x269fe0] =
      some final ∧ 0x9600 ∈ final.live ∧ ¬ GivesBack sampleEnv final.heap 0x9600 := by
  have along : Along (HeapState.step sampleEnv) Owned (start sampleEnv)
      [.malloc 0x969f0, .malloc 0x269fe0] := by decide +kernel
  have check : ∃ final ∈ run (HeapState.step sampleEnv) (start sampleEnv)
      [.malloc 0x969f0, .malloc 0x269fe0],
      0x9600 ∈ final.live ∧ final.heap.memSlot = 0 ∧
      ¬ kfreeRejects sampleEnv (0x9600 + sizeofMemHeader) ∧
      final.heap.sanity 0x9600 = final.heap.size 0x9600 + 16 := by decide +kernel
  obtain ⟨final, reached, isLive, empty, accepted, sane⟩ := check
  refine ⟨final, along, reached, isLive, ?_⟩
  rintro ⟨heap', nodes', freed, _⟩
  rw [kfree_empty accepted sane empty] at freed
  cases freed

end XerosKernel
