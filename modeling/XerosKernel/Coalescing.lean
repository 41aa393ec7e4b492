import Mathlib.Data.List.Pairwise
import XerosKernel.HeapRuns

/-!
Merging in `kfree`. A block is merged with the one behind it exactly if the two touch; the
comparison with the block in front of it scales that block's size, so it never finds a
neighbour that touches, and finds some that do not.
-/

namespace XerosKernel

open DoublyLinked Execution IntrusiveList

variable {env : Env} {heap heap' : Heap} {nodes live front back below above : List Word}
  {c p t : Word}

/-! Cases C, E and F. -/

structure Absorbs (heap heap' : Heap) (c after extent : Word) : Prop where
  next : ∀ a, heap'.next a = if a = c then after else heap.next a
  prev : ∀ a ≠ 0, heap'.prev a = if a = after then c else heap.prev a
  memSlot : heap'.memSlot = heap.memSlot
  size : ∀ a, heap'.size a = if a = c then extent else heap.size a
  sanity : ∀ a, heap'.sanity a = if a = c then extent + 16 else heap.sanity a

theorem kfree_absorbs (listed : Listed heap (front ++ c :: above))
    (linked : heap.next c ≠ 0 → heap.prev (heap.next c) = c)
    (low : ∀ a ∈ front ++ [c], a < p) (high : ∀ a ∈ above, p < a)
    (accepted : ¬ kfreeRejects env (p + sizeofMemHeader))
    (sane : heap.sanity p = heap.size p + 16) (hit : currEndAddr heap c = p) :
    ∃ heap' extent, kfree env heap (p + sizeofMemHeader) = some (1, heap') ∧
      Absorbs heap heap' c ((remaining heap p above).head?.getD 0) extent := by
  have header : p + sizeofMemHeader - sizeofMemHeader = p := BitVec.add_sub_cancel ..
  have behind : c < p := low c (by simp)
  obtain ⟨slot, _, loop⟩ := leftNeighbour_eq listed low high
  have higher : ¬ p < heap.memSlot := by bv_omega
  have notC : c ≠ 0 := listed.ne_zero (by simp)
  have follows : heap.next c = above.head?.getD 0 := listed.next_getD
  rw [kfree, if_neg accepted]
  simp only [header]
  rw [if_neg fun other => other sane, if_neg higher, if_pos slot, loop, kfreeLoop, if_neg notC]
  simp only [header]
  cases above with
  | nil =>
      have last : heap.next c = 0 := follows
      rw [if_pos last, if_pos hit.symm]
      refine ⟨_, heap.size p + heap.size c + sizeofMemHeader, rfl, ?_⟩
      have alone : remaining heap p [] = [] := rfl
      constructor <;> simp [alone] <;> grind
  | cons t rest =>
      have next : heap.next c = t := follows
      have more : heap.next c ≠ 0 := next ▸ listed.ne_zero (by simp)
      have cut : front ++ c :: t :: rest = (front ++ [c]) ++ t :: rest := by simp
      have further : heap.next t = rest.head?.getD 0 := Listed.next_getD (cut ▸ listed)
      rw [if_neg more, if_pos (next ▸ high t (by simp)), next]
      by_cases touch : p + sizeofMemHeader + heap.size p = t
      · obtain ⟨stays, _⟩ := remaining_touch rest touch
        rw [if_pos ⟨hit, touch⟩, stays, ← further]
        refine ⟨_, heap.size c + heap.size p + heap.size t + 2 * sizeofMemHeader, rfl, ?_⟩
        by_cases end' : heap.next t = 0
        · constructor <;> simp [end']
          grind
        · have more' : (heap.next t = 0#32) = False := eq_false end'
          constructor <;> simp [more']
          grind
      · obtain ⟨stays, _⟩ := remaining_apart rest touch
        rw [if_neg fun both => touch both.2, if_pos hit, stays]
        refine ⟨_, heap.size c + heap.size p + sizeofMemHeader, rfl, ?_⟩
        constructor <;> simp <;> grind

theorem Absorbs.linked {first : Option Word} {old : List Word} {extent : Word}
    (linked : Linked heap first (front ++ c :: (old ++ above)))
    (reals : ∀ a ∈ front ++ c :: (old ++ above), a ≠ 0)
    (absorbs : Absorbs heap heap' c (above.head?.getD 0) extent) :
    Linked heap' first (front ++ c :: above) := by
  have unique := linked.chain.nodup
  have cut : front ++ c :: (old ++ above) = (front ++ [c]) ++ old ++ above := by simp
  have shape : front ++ c :: above = (front ++ [c]) ++ [] ++ above := by simp
  rw [cut] at linked unique reals
  rw [List.append_assoc, List.nodup_append] at unique
  have uniqueAbove := (List.nodup_append.mp unique.2.1).2.1
  have apart : ∀ a ∈ front ++ [c], a ∉ above := fun a inFront inAbove =>
    unique.2.2 a inFront a (List.mem_append_right _ inAbove) rfl
  have realAbove : ∀ a ∈ above.head?, a ≠ 0 := fun a head =>
    reals a (List.mem_append_right _ (List.mem_of_head? head))
  rw [shape]
  refine DList.splice linked ?_ (fun _ => rfl) ?_ ?_
  · rw [List.getLast?_concat]
    refine ⟨?_, ?_, trivial⟩
    · rw [follow, Heap.nextPtr, absorbs.next, if_pos rfl]
      exact pointer_of_getD realAbove
    · cases head : above.head? with
      | none => trivial
      | some t =>
          have real := realAbove t head
          rw [Back, Heap.prevPtr, absorbs.prev t real, head, Option.getD_some, if_pos rfl]
          exact pointer_of_ne (reals c (by simp))
  · intro a isIn
    have other : a ≠ c := by
      rintro rfl
      rw [List.dropLast_concat] at isIn
      rcases List.mem_append.mp isIn with inFront | inAbove
      · exact (List.nodup_append.mp unique.1).2.2 a inFront a (by simp) rfl
      · exact apart a (by simp) inAbove
    rw [Heap.nextPtr, absorbs.next, if_neg other, Heap.nextPtr]
  · intro a isIn
    have inAll : a ∈ front ++ [c] ++ old ++ above := by
      rcases List.mem_append.mp isIn with inFront | inAbove
      · exact List.mem_append_left _ (List.mem_append_left _ inFront)
      · exact List.mem_append_right _ (List.mem_of_mem_tail inAbove)
    rw [Heap.prevPtr, absorbs.prev a (reals a inAll), if_neg, Heap.prevPtr]
    intro same
    have head := of_getD (reals a inAll) same.symm
    rcases List.mem_append.mp isIn with inFront | inAbove
    · exact apart a inFront (List.mem_of_head? head)
    · exact head_not_mem uniqueAbove head inAbove

theorem ScaledHit.left (hit : ScaledHit heap p) (listed : Listed heap (below ++ above))
    (low : ∀ a ∈ below, a < p) (high : ∀ a ∈ above, p < a) :
    ∃ front c, below = front ++ [c] ∧ currEndAddr heap c = p := by
  obtain ⟨c, isLeft, same⟩ := hit
  rcases List.eq_nil_or_concat below with rfl | ⟨front, last, rfl⟩
  · rw [leftNeighbour] at isLeft
    cases above with
    | nil =>
        rw [listed.memSlot_nil, listFuel, freeSearch, if_pos rfl, ite_self] at isLeft
        cases isLeft
    | cons t rest =>
        have higher := high t (by simp)
        rw [listed.memSlot_cons, if_neg (by bv_omega)] at isLeft
        cases isLeft
  · rw [List.concat_eq_append] at *
    rw [List.append_assoc, List.singleton_append] at listed
    rw [(leftNeighbour_eq listed low high).2.1] at isLeft
    exact ⟨front, last, rfl, Option.some.inj isLeft ▸ same⟩

theorem scaled_ne {start size : Nat} (bound : start + 16 + size < 2 ^ 32) :
    (start + 16 * size + 16 * 16) % 2 ^ 32 ≠ start + 16 + size := by
  have sum : start + 16 * size + 16 * 16 = start + 16 + size + 15 * (size + 16) := by omega
  have short : size + 16 < 2 ^ 32 := by omega
  intro same
  have congruent : (start + 16 + size + 15 * (size + 16)) % 2 ^ 32 =
      (start + 16 + size) % 2 ^ 32 := by
    rw [← sum, same, Nat.mod_eq_of_lt bound]
  have multiple := Nat.dvd_of_mod_eq_zero (Nat.sub_mod_eq_zero_of_mod_eq congruent)
  rw [Nat.add_sub_cancel_left] at multiple
  have odd : Nat.Coprime (2 ^ 32) 15 := by decide
  have long := Nat.le_of_dvd (Nat.succ_pos _) (odd.dvd_of_dvd_mul_left multiple)
  exact absurd short (Nat.not_lt.mpr long)

theorem currEndAddr_ne (touch : blockEnd heap c = p.toNat) : currEndAddr heap c ≠ p := by
  intro same
  have ends : c.toNat + 16 + (heap.size c).toNat = p.toNat := touch
  have wraps := congrArg BitVec.toNat same
  simp only [currEndAddr, BitVec.toNat_add, BitVec.toNat_mul, Nat.add_mod_mod,
    Nat.mod_add_mod] at wraps
  exact scaled_ne (ends ▸ p.isLt) (wraps.trans ends.symm)

theorem Linked.prev_next {first : Option Word} (linked : Linked heap first (front ++ c :: above))
    (some' : heap.next c ≠ 0) : heap.prev (heap.next c) = c := by
  have next := linked.links_at.1
  rw [Heap.nextPtr, pointer_of_ne some'] at next
  obtain ⟨rest, rfl⟩ := List.head?_eq_some_iff.mp next.symm
  have cut : front ++ c :: heap.next c :: rest = (front ++ [c]) ++ heap.next c :: rest := by simp
  rw [cut] at linked
  have prev := linked.links_at.2
  rw [List.getLast?_concat] at prev
  exact (pointer_eq_some.mp prev).2

/-! Exact merging. -/

/-- A heap whose free blocks are on the list, in order and none touching another, and whose
allocated blocks are apart from them and can be given back. -/
structure WellFormed (env : Env) (state : HeapState) (nodes : List Word) : Prop where
  list : FreeList state.heap nodes
  some' : nodes ≠ []
  ascending : Ascending nodes
  disjoint : (nodes ++ state.live).Pairwise fun g h =>
    blockEnd state.heap g ≤ h.toNat ∨ blockEnd state.heap h ≤ g.toNat
  separate : ∀ g ∈ nodes, ∀ h ∈ nodes, blockEnd state.heap g ≠ h.toNat
  bounded : ∀ h ∈ nodes ++ state.live, blockEnd state.heap h ≤ 2 ^ 32
  allocated : ∀ h ∈ state.live, h ≠ 0 ∧ ¬ kfreeRejects env (h + sizeofMemHeader) ∧
    state.heap.sanity h = state.heap.size h + 16

instance (env : Env) (state : HeapState) (nodes : List Word) :
    Decidable (WellFormed env state nodes) :=
  have (blocks : List Word) (test : Word → Prop) [DecidablePred test] :
      Decidable (∀ h ∈ blocks, test h) := List.decidableBAll test blocks
  decidable_of_iff (FreeList state.heap nodes ∧ nodes ≠ [] ∧ Ascending nodes ∧
      ((nodes ++ state.live).Pairwise fun g h =>
        blockEnd state.heap g ≤ h.toNat ∨ blockEnd state.heap h ≤ g.toNat) ∧
      (∀ g ∈ nodes, ∀ h ∈ nodes, blockEnd state.heap g ≠ h.toNat) ∧
      (∀ h ∈ nodes ++ state.live, blockEnd state.heap h ≤ 2 ^ 32) ∧
      ∀ h ∈ state.live, h ≠ 0 ∧ ¬ kfreeRejects env (h + sizeofMemHeader) ∧
        state.heap.sanity h = state.heap.size h + 16)
    ⟨fun ⟨list, some', ascending, disjoint, separate, bounded, allocated⟩ =>
      ⟨list, some', ascending, disjoint, separate, bounded, allocated⟩,
    fun ⟨list, some', ascending, disjoint, separate, bounded, allocated⟩ =>
      ⟨list, some', ascending, disjoint, separate, bounded, allocated⟩⟩

/-- `kfree` puts the bytes of the block `p` on the list, and no others, merging `p` with the
free blocks that touch it and with no others. -/
def Coalesces (env : Env) (state : HeapState) (nodes : List Word) (p : Word) : Prop :=
  ∃ heap' nodes', kfree env state.heap (p + sizeofMemHeader) = some (1, heap') ∧
    FreeList heap' nodes' ∧ Ascending nodes' ∧
    (∀ byte, Covered heap' nodes' byte ↔ Covered state.heap (p :: nodes) byte) ∧
    (p ∉ nodes' ↔ ∃ c ∈ nodes, blockEnd state.heap c = p.toNat) ∧
    (∀ t ∈ nodes, t ∉ nodes' ↔ blockEnd state.heap p = t.toNat) ∧
    (∀ g ∈ nodes', ∀ h ∈ nodes', blockEnd heap' g ≠ h.toNat) ∧
    ∀ byte, Covered state.heap (state.live.erase p) byte → ¬ Covered heap' nodes' byte

namespace WellFormed

variable {state : HeapState}

theorem lt_blockEnd (heap : Heap) (h : Word) : h.toNat + 16 ≤ blockEnd heap h := by
  rw [blockEnd, sizeofMemHeader]
  exact Nat.le_add_right _ _

theorem order (wellFormed : WellFormed env state nodes) {g h : Word} (inG : g ∈ nodes)
    (inH : h ∈ nodes) (lower : g < h) : blockEnd state.heap g < h.toNat := by
  have disjoint := wellFormed.disjoint.sublist (List.sublist_append_left nodes state.live)
  have ends := lt_blockEnd state.heap h
  have apart := wellFormed.separate g inG h inH
  have ne : g ≠ h := fun same => BitVec.lt_irrefl _ (same ▸ lower)
  have : Std.Symm fun g h : Word =>
      blockEnd state.heap g ≤ h.toNat ∨ blockEnd state.heap h ≤ g.toNat :=
    ⟨fun _ _ either => either.symm⟩
  have either := disjoint.forall inG inH ne
  bv_omega

theorem apart (wellFormed : WellFormed env state nodes) {g : Word} (inG : g ∈ nodes)
    (isLive : p ∈ state.live) :
    blockEnd state.heap g ≤ p.toNat ∨ blockEnd state.heap p ≤ g.toNat :=
  (List.pairwise_append.mp wellFormed.disjoint).2.2 g inG p isLive

theorem absent (wellFormed : WellFormed env state nodes) (isLive : p ∈ state.live) : p ∉ nodes := by
  intro inNodes
  have ends := lt_blockEnd state.heap p
  have either := wellFormed.apart inNodes isLive
  omega

theorem touch_iff (wellFormed : WellFormed env state (below ++ above)) (isLive : p ∈ state.live)
    (low : ∀ a ∈ below, a < p) (high : ∀ a ∈ above, p < a) (inNodes : t ∈ below ++ above) :
    blockEnd state.heap p = t.toNat ↔
      above.head? = some t ∧ ptrEndAddr state.heap p = t := by
  have bounded := wellFormed.bounded p (List.mem_append_right _ isLive)
  have ends := lt_blockEnd state.heap p
  have value : (ptrEndAddr state.heap p).toNat = blockEnd state.heap p % 2 ^ 32 := by
    rw [ptrEndAddr, blockEnd, BitVec.toNat_add, BitVec.toNat_add]
    omega
  constructor
  · intro touch
    have behind : t ∈ above := by
      rcases List.mem_append.mp inNodes with inBelow | inAbove
      · have lower := low t inBelow
        bv_omega
      · exact inAbove
    refine ⟨?_, BitVec.eq_of_toNat_eq (by rw [value, touch]; omega)⟩
    cases above with
    | nil => cases behind
    | cons first rest =>
        rcases List.mem_cons.mp behind with rfl | inRest
        · rfl
        · have lower := high first (by simp)
          have either := wellFormed.apart (g := first) (by simp) isLive
          have further := wellFormed.order (g := first) (by simp) inNodes
            ((List.pairwise_cons.mp (List.pairwise_append.mp wellFormed.ascending).2.1).1 t inRest)
          have ends' := lt_blockEnd state.heap first
          bv_omega
  · rintro ⟨isFirst, touch⟩
    have lower := high t (List.mem_of_head? isFirst)
    have equal : (ptrEndAddr state.heap p).toNat = t.toNat := congrArg _ touch
    rw [value] at equal
    bv_omega

theorem mem_after (wellFormed : WellFormed env state (below ++ above)) (isLive : p ∈ state.live)
    (low : ∀ a ∈ below, a < p) (high : ∀ a ∈ above, p < a) (h : Word) :
    h ∈ below ++ p :: remaining state.heap p above ↔
      h = p ∨ (h ∈ below ++ above ∧ blockEnd state.heap p ≠ h.toNat) := by
  by_cases touch : above.head? = some (ptrEndAddr state.heap p)
  · obtain ⟨rest, rfl⟩ := List.head?_eq_some_iff.mp touch
    have unique := wellFormed.list.nodup
    have first := (touch_iff wellFormed isLive low high (by simp)).mpr ⟨touch, rfl⟩
    have only : blockEnd state.heap p = h.toNat ↔ h = ptrEndAddr state.heap p := by
      rw [first]
      exact ⟨fun same => (BitVec.eq_of_toNat_eq same).symm, fun same => same ▸ rfl⟩
    have gone : ptrEndAddr state.heap p ∉ below ∧ ptrEndAddr state.heap p ∉ rest := by
      rw [List.nodup_append, List.nodup_cons] at unique
      exact ⟨fun isIn => unique.2.2 _ isIn _ (by simp) rfl, unique.2.1.1⟩
    rw [remaining, if_pos touch, List.tail_cons, ne_eq, only]
    simp only [List.mem_append, List.mem_cons]
    constructor
    · rintro (inBelow | rfl | inRest)
      · exact Or.inr ⟨Or.inl inBelow, fun same => gone.1 (same ▸ inBelow)⟩
      · exact Or.inl rfl
      · exact Or.inr ⟨Or.inr (Or.inr inRest), fun same => gone.2 (same ▸ inRest)⟩
    · tauto
  · have none : h ∈ below ++ above → blockEnd state.heap p ≠ h.toNat := by
      intro inNodes same
      obtain ⟨isFirst, isEnd⟩ := (touch_iff wellFormed isLive low high inNodes).mp same
      exact touch (isEnd ▸ isFirst)
    rw [remaining, if_neg touch]
    simp only [List.mem_append, List.mem_cons] at none ⊢
    tauto

theorem end_after (wellFormed : WellFormed env state (below ++ above)) (isLive : p ∈ state.live)
    (low : ∀ a ∈ below, a < p) (high : ∀ a ∈ above, p < a)
    (size : heap'.size p = mergedSize state.heap p above) :
    ((∀ t ∈ below ++ above, blockEnd state.heap p ≠ t.toNat) ∧
      blockEnd heap' p = blockEnd state.heap p) ∨
    ∃ t ∈ below ++ above, blockEnd state.heap p = t.toNat ∧
      blockEnd heap' p = blockEnd state.heap t := by
  by_cases touch : above.head? = some (ptrEndAddr state.heap p)
  · obtain ⟨rest, rfl⟩ := List.head?_eq_some_iff.mp touch
    have first := (touch_iff wellFormed isLive low high (by simp)).mpr ⟨touch, rfl⟩
    have bounded := wellFormed.bounded (ptrEndAddr state.heap p) (by simp)
    refine Or.inr ⟨_, by simp, first, ?_⟩
    rw [blockEnd, size, mergedSize, if_pos touch]
    unfold blockEnd sizeofMemHeader at *
    bv_omega
  · refine Or.inl ⟨fun t inNodes same => ?_, ?_⟩
    · obtain ⟨isFirst, isEnd⟩ := (touch_iff wellFormed isLive low high inNodes).mp same
      exact touch (isEnd ▸ isFirst)
    · rw [blockEnd, size, mergedSize, if_neg touch, blockEnd]

end WellFormed

section Exact

variable {state : HeapState}

structure Merged (state : HeapState) (nodes : List Word) (p : Word) (heap' : Heap)
    (nodes' : List Word) : Prop where
  mem : ∀ h, h ∈ nodes' ↔ h = p ∨ (h ∈ nodes ∧ blockEnd state.heap p ≠ h.toNat)
  others : ∀ h ∈ nodes, blockEnd heap' h = blockEnd state.heap h
  own : ((∀ t ∈ nodes, blockEnd state.heap p ≠ t.toNat) ∧
      blockEnd heap' p = blockEnd state.heap p) ∨
    ∃ t ∈ nodes, blockEnd state.heap p = t.toNat ∧ blockEnd heap' p = blockEnd state.heap t

namespace Merged

variable {nodes' : List Word}

theorem covered (merged : Merged state nodes p heap' nodes') (byte : Nat) :
    Covered heap' nodes' byte ↔ Covered state.heap (p :: nodes) byte := by
  have ends := WellFormed.lt_blockEnd state.heap p
  constructor
  · rintro ⟨h, isIn, lower, upper⟩
    rcases (merged.mem h).mp isIn with rfl | ⟨inNodes, _⟩
    · rcases merged.own with ⟨_, same⟩ | ⟨t, inNodes, touch, same⟩
      · exact ⟨h, by simp, lower, same ▸ upper⟩
      · rw [same] at upper
        by_cases inFirst : byte < blockEnd state.heap h
        · exact ⟨h, by simp, lower, inFirst⟩
        · exact ⟨t, by simp [inNodes], by omega, upper⟩
    · exact ⟨h, by simp [inNodes], lower, merged.others h inNodes ▸ upper⟩
  · rintro ⟨h, isIn, lower, upper⟩
    rcases List.mem_cons.mp isIn with rfl | inNodes
    · refine ⟨h, (merged.mem h).mpr (Or.inl rfl), lower, ?_⟩
      rcases merged.own with ⟨_, same⟩ | ⟨t, _, touch, same⟩
      · rwa [same]
      · have further := WellFormed.lt_blockEnd state.heap t
        omega
    · by_cases touch : blockEnd state.heap p = h.toNat
      · refine ⟨p, (merged.mem p).mpr (Or.inl rfl), by omega, ?_⟩
        rcases merged.own with ⟨none, _⟩ | ⟨t, _, first, same⟩
        · exact absurd touch (none h inNodes)
        · have isFirst : t = h := BitVec.eq_of_toNat_eq (first.symm.trans touch)
          rw [same, isFirst]
          exact upper
      · refine ⟨h, (merged.mem h).mpr (Or.inr ⟨inNodes, touch⟩), lower, ?_⟩
        rwa [merged.others h inNodes]

theorem separate (merged : Merged state nodes p heap' nodes')
    (wellFormed : WellFormed env state nodes)
    (noLeft : ∀ c ∈ nodes, blockEnd state.heap c ≠ p.toNat) :
    ∀ g ∈ nodes', ∀ h ∈ nodes', blockEnd heap' g ≠ h.toNat := by
  intro g inG h inH
  rcases (merged.mem g).mp inG with rfl | ⟨inG, _⟩
  · rcases (merged.mem h).mp inH with rfl | ⟨inH, apart⟩
    · have ends := WellFormed.lt_blockEnd heap' h
      omega
    · rcases merged.own with ⟨_, same⟩ | ⟨t, inNodes, _, same⟩
      · rwa [same]
      · rw [same]
        exact wellFormed.separate t inNodes h inH
  · rw [merged.others g inG]
    rcases (merged.mem h).mp inH with rfl | ⟨inH, _⟩
    · exact noLeft g inG
    · exact wellFormed.separate g inG h inH

theorem leaves_live (merged : Merged state nodes p heap' nodes')
    (wellFormed : WellFormed env state nodes) (isLive : p ∈ state.live) {byte : Nat}
    (inLive : Covered state.heap (state.live.erase p) byte) : ¬ Covered heap' nodes' byte := by
  obtain ⟨q, isIn, lower, upper⟩ := inLive
  rw [merged.covered]
  rintro ⟨h, inOld, lower', upper'⟩
  obtain ⟨_, pairs, _⟩ := List.pairwise_append.mp wellFormed.disjoint
  have others := (pairs.perm (List.perm_cons_erase isLive) fun either => either.symm)
  have isLive' := List.mem_of_mem_erase isIn
  rcases List.mem_cons.mp inOld with rfl | inNodes
  · have either := (List.pairwise_cons.mp others).1 q isIn
    omega
  · have either := wellFormed.apart inNodes isLive'
    omega

theorem coalesces {nodes' : List Word} (merged : Merged state nodes p heap' nodes')
    (wellFormed : WellFormed env state nodes) (isLive : p ∈ state.live)
    (noLeft : ∀ c ∈ nodes, blockEnd state.heap c ≠ p.toNat)
    (freed : kfree env state.heap (p + sizeofMemHeader) = some (1, heap'))
    (list : FreeList heap' nodes') (ascending : Ascending nodes') :
    Coalesces env state nodes p := by
  refine ⟨heap', nodes', freed, list, ascending, merged.covered, ?_, ?_,
    merged.separate wellFormed noLeft, fun byte => merged.leaves_live wellFormed isLive⟩
  · have isIn : p ∈ nodes' := (merged.mem p).mpr (Or.inl rfl)
    constructor
    · exact fun gone => absurd isIn gone
    · rintro ⟨c, inNodes, touch⟩
      exact absurd touch (noLeft c inNodes)
  · intro t inNodes
    have ne : t ≠ p := fun same => wellFormed.absent isLive (same ▸ inNodes)
    rw [merged.mem t]
    simp [ne, inNodes]

end Merged

theorem WellFormed.frees (wellFormed : WellFormed env state nodes) (isLive : p ∈ state.live)
    (plain : ¬ ScaledHit state.heap p) :
    ∃ heap' nodes', kfree env state.heap (p + sizeofMemHeader) = some (1, heap') ∧
      FreeList heap' nodes' ∧ Ascending nodes' ∧ Merged state nodes p heap' nodes' := by
  obtain ⟨notNull, accepted, sane⟩ := wellFormed.allocated p isLive
  have absent := wellFormed.absent isLive
  have slot : state.heap.memSlot ≠ 0 := by
    obtain ⟨first, rest, rfl⟩ := List.exists_cons_of_ne_nil wellFormed.some'
    rw [wellFormed.list.chain.memSlot_cons]
    exact wellFormed.list.ne_zero (by simp)
  obtain ⟨below, above, heap', rfl, low, high, freed, linked, list, ascending⟩ :=
    wellFormed.list.frees wellFormed.ascending absent notNull slot accepted sane plain
  have size : heap'.size p = mergedSize state.heap p above := by rw [linked.size, if_pos rfl]
  refine ⟨heap', _, freed, list, ascending, wellFormed.mem_after isLive low high, ?_,
    wellFormed.end_after isLive low high size⟩
  intro h inNodes
  have ne : h ≠ p := fun same => absent (same ▸ inNodes)
  rw [blockEnd, linked.size, if_neg ne, blockEnd]

theorem WellFormed.absorbed (wellFormed : WellFormed env state nodes) (isLive : p ∈ state.live)
    (hit : ScaledHit state.heap p) :
    (∀ c ∈ nodes, blockEnd state.heap c ≠ p.toNat) ∧
    ∃ heap' nodes', kfree env state.heap (p + sizeofMemHeader) = some (1, heap') ∧
      FreeList heap' nodes' ∧ p ∉ nodes' := by
  obtain ⟨_, accepted, sane⟩ := wellFormed.allocated p isLive
  have absent := wellFormed.absent isLive
  obtain ⟨below, above, rfl, low, high⟩ := ascending_split wellFormed.ascending absent
  obtain ⟨front, c, rfl, found⟩ := hit.left wellFormed.list.chain low high
  have shape : front ++ [c] ++ above = front ++ c :: above := by simp
  constructor
  · intro d inNodes touch
    have ends := WellFormed.lt_blockEnd state.heap d
    have inBelow : d ∈ front ++ [c] := by
      rcases List.mem_append.mp inNodes with inBelow | inAbove
      · exact inBelow
      · have higher := high d inAbove
        bv_omega
    rcases List.mem_append.mp inBelow with inFront | isLast
    · have sorted := (List.pairwise_append.mp wellFormed.ascending).1
      have lower := (List.pairwise_append.mp sorted).2.2 d inFront c (by simp)
      have further := wellFormed.order inNodes (by simp) lower
      have behind := low c (by simp)
      bv_omega
    · rw [List.mem_singleton.mp isLast] at touch
      exact currEndAddr_ne touch found
  · have list := wellFormed.list
    rw [shape] at list absent
    obtain ⟨heap', extent, freed, absorbs⟩ := kfree_absorbs list.chain
      (Linked.prev_next list) low high accepted sane found
    obtain ⟨old, parts⟩ := remaining_sublist state.heap p above
    generalize remaining state.heap p above = stays at *
    subst parts
    have whole : FreeList heap' (front ++ c :: stays) := by
      rw [FreeList, absorbs.memSlot]
      exact Absorbs.linked list (fun a isIn => list.ne_zero isIn) absorbs
    refine ⟨heap', _, freed, whole, fun isIn => absent ?_⟩
    simp only [List.mem_append, List.mem_cons] at isIn ⊢
    tauto

theorem Coalesces.apart (coalesces : Coalesces env state nodes p)
    (wellFormed : WellFormed env state nodes) (isLive : p ∈ state.live) :
    (∀ c ∈ nodes, blockEnd state.heap c ≠ p.toNat) ∧ ¬ ScaledHit state.heap p := by
  obtain ⟨heap', nodes', freed, list, _, _, merges, _⟩ := coalesces
  by_cases hit : ScaledHit state.heap p
  · obtain ⟨noLeft, heap'', nodes'', freed', list', gone⟩ := wellFormed.absorbed isLive hit
    rw [freed] at freed'
    cases freed'
    obtain ⟨c, inNodes, touch⟩ := merges.mp (list.unique list' ▸ gone)
    exact absurd touch (noLeft c inNodes)
  · refine ⟨fun c inNodes touch => ?_, hit⟩
    obtain ⟨heap'', nodes'', freed', list', _, merged⟩ := wellFormed.frees isLive hit
    rw [freed] at freed'
    cases freed'
    have isIn : p ∈ nodes'' := (merged.mem p).mpr (Or.inl rfl)
    exact merges.mpr ⟨c, inNodes, touch⟩ (list.unique list' ▸ isIn)

/-- `kfree` merges exactly the free blocks that touch the block in the states in which no free
block ends at its header and none is taken for one that does. -/
theorem kfree_coalesces {env : Env} {state : HeapState} {nodes : List Word} {p : Word}
    (wellFormed : WellFormed env state nodes) (isLive : p ∈ state.live) :
    Coalesces env state nodes p ↔
      (∀ c ∈ nodes, blockEnd state.heap c ≠ p.toNat) ∧ ¬ ScaledHit state.heap p := by
  constructor
  · exact fun coalesces => coalesces.apart wellFormed isLive
  · rintro ⟨noLeft, plain⟩
    obtain ⟨heap', nodes', freed, list, ascending, merged⟩ := wellFormed.frees isLive plain
    exact merged.coalesces wellFormed isLive noLeft freed list ascending

theorem kfree_coalesces_right : ∃ state, run (HeapState.step sampleEnv) (HeapState.start sampleEnv)
      [.malloc 100, .malloc 200] = some state ∧
    WellFormed sampleEnv state [0x9760, 0x196000] ∧
    Coalesces sampleEnv state [0x9760, 0x196000] 0x9680 := by
  have check : ∃ state ∈ run (HeapState.step sampleEnv) (HeapState.start sampleEnv)
      [.malloc 100, .malloc 200],
      WellFormed sampleEnv state [0x9760, 0x196000] ∧ 0x9680 ∈ state.live ∧
      blockEnd state.heap 0x9760 ≠ (0x9680 : Word).toNat ∧
      blockEnd state.heap 0x196000 ≠ (0x9680 : Word).toNat ∧
      ¬ ScaledHit state.heap 0x9680 := by
    decide +kernel
  obtain ⟨state, reached, wellFormed, isLive, first, second, plain⟩ := check
  have apart : ∀ c ∈ [0x9760, 0x196000], blockEnd state.heap c ≠ (0x9680 : Word).toNat := by
    simpa using And.intro first second
  exact ⟨state, reached, wellFormed, (kfree_coalesces wellFormed isLive).mpr ⟨apart, plain⟩⟩

/-- The first of two blocks is given back, and then the second: they stay apart. -/
theorem kfree_coalesces_broken : ∃ state,
    run (HeapState.step sampleEnv) (HeapState.start sampleEnv)
      [.malloc 100, .malloc 200, .free 0x9610] = some state ∧
    WellFormed sampleEnv state [0x9600, 0x9760, 0x196000] ∧ 0x9680 ∈ state.live ∧
    ¬ Coalesces sampleEnv state [0x9600, 0x9760, 0x196000] 0x9680 := by
  have check : ∃ state ∈ run (HeapState.step sampleEnv) (HeapState.start sampleEnv)
      [.malloc 100, .malloc 200, .free 0x9610],
      WellFormed sampleEnv state [0x9600, 0x9760, 0x196000] ∧ 0x9680 ∈ state.live ∧
      blockEnd state.heap 0x9600 = (0x9680 : Word).toNat := by
    decide +kernel
  obtain ⟨state, reached, wellFormed, isLive, touch⟩ := check
  refine ⟨state, reached, wellFormed, isLive, fun coalesces => ?_⟩
  exact (coalesces.apart wellFormed isLive).1 0x9600 (by simp) touch

end Exact

end XerosKernel
