import Mathlib.Data.Fintype.Card
import XerosKernel.DoublyLinked
import XerosKernel.MemCore

/-!
The free list of the memory manager. `kmalloc` takes the first block that is large enough
and `kfree` links a block in at its address; both are described here for a list that is
doubly linked and ascends.
-/

namespace XerosKernel

open DoublyLinked IntrusiveList

def pointer (addr : Word) : Option Word := if addr = 0 then none else some addr

theorem pointer_eq_some {addr a : Word} : pointer addr = some a ↔ addr ≠ 0 ∧ addr = a := by
  unfold pointer
  by_cases zero : addr = 0 <;> simp [zero]

theorem pointer_eq_none {addr : Word} : pointer addr = none ↔ addr = 0 := by
  unfold pointer
  by_cases zero : addr = 0 <;> simp [zero]

theorem pointer_of_ne {addr : Word} (notNull : addr ≠ 0) : pointer addr = some addr :=
  if_neg notNull

namespace Heap

def nextPtr (heap : Heap) (addr : Word) : Option Word := pointer (heap.next addr)
def prevPtr (heap : Heap) (addr : Word) : Option Word := pointer (heap.prev addr)

end Heap

abbrev Listed (heap : Heap) (nodes : List Word) : Prop :=
  Chain heap.nextPtr (pointer heap.memSlot) nodes

/-- The list from `memSlot` on, linked both ways. -/
def FreeList (heap : Heap) (nodes : List Word) : Prop :=
  DList (pointer heap.memSlot) heap.nextPtr heap.prevPtr nodes

instance (heap : Heap) (nodes : List Word) : Decidable (FreeList heap nodes) :=
  inferInstanceAs (Decidable (DList _ _ _ nodes))

abbrev Linked (heap : Heap) (first : Option Word) (nodes : List Word) : Prop :=
  DList first heap.nextPtr heap.prevPtr nodes

abbrev Ascending (nodes : List Word) : Prop := nodes.Pairwise (· < ·)

variable {heap heap' : Heap} {nodes front back : List Word} {c p first size req_size : Word}

namespace Listed

theorem ne_zero (listed : Listed heap nodes) (isIn : c ∈ nodes) : c ≠ 0 := by
  unfold Listed at listed
  generalize heap.memSlot = addr at listed
  induction nodes generalizing addr with
  | nil => cases isIn
  | cons node rest ih =>
      rcases List.mem_cons.mp isIn with rfl | inRest
      · obtain ⟨notNull, rfl⟩ := pointer_eq_some.mp listed.1
        exact notNull
      · exact ih inRest _ listed.2

theorem memSlot_nil (listed : Listed heap []) : heap.memSlot = 0 := pointer_eq_none.mp listed

theorem memSlot_cons (listed : Listed heap (c :: back)) : heap.memSlot = c :=
  (pointer_eq_some.mp listed.1).2

theorem next_at (listed : Listed heap (front ++ c :: back)) : heap.nextPtr c = back.head? :=
  (Seg.next_of_split listed).head_eq

theorem length_lt (listed : Listed heap nodes) : nodes.length < listFuel := by
  have unique : (nodes.map BitVec.toFin).Nodup :=
    (Seg.nodup listed).map fun _ _ same => BitVec.eq_of_toFin_eq same
  have bound := unique.length_le_card
  rw [List.length_map, Fintype.card_fin] at bound
  exact Nat.lt_succ_of_le bound

end Listed

namespace FreeList

theorem chain (list : FreeList heap nodes) : Listed heap nodes := DList.chain list

theorem nodup (list : FreeList heap nodes) : nodes.Nodup := list.chain.nodup

theorem unique {nodes' : List Word} (list : FreeList heap nodes) (list' : FreeList heap nodes') :
    nodes = nodes' := Seg.unique list.chain list'.chain

theorem ne_zero (list : FreeList heap nodes) (isIn : c ∈ nodes) : c ≠ 0 := list.chain.ne_zero isIn

theorem links_at (list : FreeList heap (front ++ c :: back)) :
    heap.nextPtr c = back.head? ∧ heap.prevPtr c = front.getLast? := DList.links_at list

end FreeList

/-! Searching. -/

def Suits (heap : Heap) (req_size curr : Word) : Prop :=
  req_size + sizeofMemHeader < heap.size curr ∨ req_size ≤ heap.size curr

instance (heap : Heap) (req_size curr : Word) : Decidable (Suits heap req_size curr) :=
  inferInstanceAs (Decidable (_ ∨ _))

def mallocSearch (heap : Heap) (req_size : Word) : Nat → Word → Option Word
  | 0, _ => none
  | fuel + 1, curr =>
      if curr = 0 then none
      else if Suits heap req_size curr then some curr
      else mallocSearch heap req_size fuel (heap.next curr)

def chosenBlock (heap : Heap) (size : Word) : Option Word :=
  if aligned size = 0 then none else mallocSearch heap (aligned size) listFuel heap.memSlot

def useBlock (heap : Heap) (req_size c : Word) : Heap :=
  if req_size + sizeofMemHeader < heap.size c then splitBlock heap c req_size
  else takeBlock heap c

theorem mallocSearch_eq {fuel : Nat} (chain : Chain heap.nextPtr (pointer first) nodes)
    (enough : nodes.length < fuel) :
    mallocSearch heap req_size fuel first = nodes.find? fun c => Suits heap req_size c := by
  induction nodes generalizing first fuel with
  | nil =>
      obtain ⟨fuel, rfl⟩ := Nat.exists_eq_add_one_of_ne_zero (Nat.ne_of_gt enough)
      have zero : first = 0 := pointer_eq_none.mp chain
      simp [mallocSearch, zero]
  | cons node rest ih =>
      obtain ⟨fuel, rfl⟩ := Nat.exists_eq_add_one_of_ne_zero
        (Nat.ne_of_gt (Nat.lt_of_le_of_lt (Nat.zero_le _) enough))
      obtain ⟨notNull, rfl⟩ := pointer_eq_some.mp chain.1
      have shorter : rest.length < fuel := by
        simp only [List.length_cons] at enough
        omega
      rw [mallocSearch, if_neg notNull, List.find?_cons]
      by_cases suits : Suits heap req_size first
      · simp [suits]
      · simp only [suits, if_false, decide_false]
        exact ih chain.2 shorter

theorem kmallocLoop_eq {fuel : Nat} (chain : Chain heap.nextPtr (pointer first) nodes)
    (enough : nodes.length < fuel) :
    kmallocLoop heap req_size fuel first =
      some (match nodes.find? fun c => Suits heap req_size c with
        | none => (0, heap)
        | some c => (c + sizeofMemHeader, useBlock heap req_size c)) := by
  induction nodes generalizing first fuel with
  | nil =>
      obtain ⟨fuel, rfl⟩ := Nat.exists_eq_add_one_of_ne_zero (Nat.ne_of_gt enough)
      have zero : first = 0 := pointer_eq_none.mp chain
      simp [kmallocLoop, zero]
  | cons node rest ih =>
      obtain ⟨fuel, rfl⟩ := Nat.exists_eq_add_one_of_ne_zero
        (Nat.ne_of_gt (Nat.lt_of_le_of_lt (Nat.zero_le _) enough))
      obtain ⟨notNull, rfl⟩ := pointer_eq_some.mp chain.1
      have shorter : rest.length < fuel := by
        simp only [List.length_cons] at enough
        omega
      rw [kmallocLoop, if_neg notNull, List.find?_cons]
      by_cases larger : req_size + sizeofMemHeader < heap.size first
      · have suits : Suits heap req_size first := Or.inl larger
        simp [larger, suits, useBlock]
      · by_cases fits : req_size ≤ heap.size first
        · have suits : Suits heap req_size first := Or.inr fits
          simp only [larger, if_false, fits, if_true, suits, decide_true, useBlock]
        · have not : ¬ Suits heap req_size first := fun suits => suits.elim larger fits
          simp only [larger, fits, if_false, not, decide_false]
          exact ih chain.2 shorter

theorem chosenBlock_eq (listed : Listed heap nodes) (some' : aligned size ≠ 0) :
    chosenBlock heap size = nodes.find? fun c => Suits heap (aligned size) c := by
  rw [chosenBlock, if_neg some', mallocSearch_eq listed listed.length_lt]

theorem kmalloc_eq (listed : Listed heap nodes) (size : Word) :
    kmalloc heap size = some (match chosenBlock heap size with
      | none => (0, heap)
      | some c => (c + sizeofMemHeader, useBlock heap (aligned size) c)) := by
  by_cases zero : aligned size = 0
  · simp [kmalloc, chosenBlock, zero]
  · rw [chosenBlock_eq listed zero, kmalloc]
    by_cases empty : heap.memSlot = 0
    · have none : nodes = [] := by
        cases nodes with
        | nil => rfl
        | cons node rest =>
            have zero := listed.memSlot_cons.symm.trans empty
            exact absurd zero (listed.ne_zero (List.mem_cons_self ..))
      rw [if_pos (Or.inr empty), none]
      rfl
    · rw [if_neg (fun both => both.elim zero empty)]
      exact kmallocLoop_eq listed listed.length_lt

/-- The node at which the loop of `kfree` ends: the last one, or one whose successor lies
behind the block. -/
def freeSearch (heap : Heap) (ptrHeader : Word) : Nat → Word → Option Word
  | 0, _ => none
  | fuel + 1, curr =>
      if curr = 0 then none
      else if heap.next curr = 0 ∨ ptrHeader < heap.next curr then some curr
      else freeSearch heap ptrHeader fuel (heap.next curr)

def leftNeighbour (heap : Heap) (ptrHeader : Word) : Option Word :=
  if heap.memSlot < ptrHeader then freeSearch heap ptrHeader listFuel heap.memSlot else none

/-- The comparison of cases C, E and F succeeds. -/
def ScaledHit (heap : Heap) (ptrHeader : Word) : Prop :=
  ∃ c ∈ leftNeighbour heap ptrHeader, currEndAddr heap c = ptrHeader

instance (heap : Heap) (ptrHeader : Word) : Decidable (ScaledHit heap ptrHeader) :=
  Option.decidableExistsMem _

theorem ascending_split (ascending : Ascending nodes) (absent : p ∉ nodes) :
    ∃ below above, nodes = below ++ above ∧ (∀ a ∈ below, a < p) ∧ ∀ a ∈ above, p < a := by
  induction nodes with
  | nil => exact ⟨[], [], rfl, by simp, by simp⟩
  | cons node rest ih =>
      obtain ⟨least, ascending⟩ := List.pairwise_cons.mp ascending
      rw [List.mem_cons, not_or] at absent
      obtain ⟨other, absent⟩ := absent
      by_cases lower : node < p
      · obtain ⟨below, above, rfl, low, high⟩ := ih ascending absent
        exact ⟨node :: below, above, rfl, List.forall_mem_cons.mpr ⟨lower, low⟩, high⟩
      · have higher : p < node := by bv_omega
        refine ⟨[], node :: rest, rfl, by simp, List.forall_mem_cons.mpr ⟨higher, ?_⟩⟩
        exact fun a isIn => BitVec.lt_trans higher (least a isIn)

theorem kfreeLoop_eq {ptr : Word} {fuel : Nat} (header : ptr - sizeofMemHeader = p)
    (chain : Chain heap.nextPtr (pointer first) (front ++ c :: back))
    (low : ∀ a ∈ front ++ [c], a < p) (high : ∀ a ∈ back, p < a) (enough : front.length < fuel) :
    kfreeLoop heap ptr fuel first = kfreeLoop heap ptr 1 c ∧
      freeSearch heap p fuel first = some c := by
  induction front generalizing first fuel with
  | nil =>
      obtain ⟨fuel, rfl⟩ := Nat.exists_eq_add_one_of_ne_zero (Nat.ne_of_gt enough)
      obtain ⟨notNull, rfl⟩ := pointer_eq_some.mp chain.1
      have ends : heap.next first = 0 ∨ p < heap.next first := by
        cases back with
        | nil => exact Or.inl (pointer_eq_none.mp chain.2)
        | cons behind rest =>
            have link := (pointer_eq_some.mp chain.2.1).2
            exact Or.inr (link ▸ high behind (by simp))
      constructor
      · rw [kfreeLoop, kfreeLoop, if_neg notNull, if_neg notNull, header]
        by_cases last : heap.next first = 0
        · rw [if_pos last, if_pos last]
        · have before := ends.resolve_left last
          simp only [if_neg last, if_pos before]
      · rw [freeSearch, if_neg notNull, if_pos ends]
  | cons node front ih =>
      obtain ⟨fuel, rfl⟩ := Nat.exists_eq_add_one_of_ne_zero
        (Nat.ne_of_gt (Nat.lt_of_le_of_lt (Nat.zero_le _) enough))
      obtain ⟨notNull, rfl⟩ := pointer_eq_some.mp chain.1
      have rest : Chain heap.nextPtr (pointer (heap.next first)) (front ++ c :: back) := chain.2
      obtain ⟨behind, isIn, link⟩ : ∃ behind ∈ front ++ [c],
          pointer (heap.next first) = some behind := by
        cases front with
        | nil => exact ⟨c, by simp, rest.1⟩
        | cons behind _ => exact ⟨behind, by simp, rest.1⟩
      obtain ⟨more, same⟩ := pointer_eq_some.mp link
      have lower : ¬ p < heap.next first := by
        have below := low behind (List.mem_cons_of_mem _ isIn)
        rw [same]
        bv_omega
      have shorter : front.length < fuel := by
        simp only [List.length_cons] at enough
        omega
      obtain ⟨loop, search⟩ := ih rest (fun a isIn => low a (List.mem_cons_of_mem _ isIn)) shorter
      constructor
      · rw [kfreeLoop, if_neg notNull, if_neg more, header]
        simp only [if_neg lower]
        exact loop
      · rw [freeSearch, if_neg notNull, if_neg (fun either => either.elim more lower)]
        exact search

end XerosKernel
