import XerosKernel.HeapBlocks
import XerosKernel.Runs

/-!
Runs of `kmalloc` and `kfree` from `kmeminit` on. A run also records which blocks its callers
hold; `kfree` is only called on one of these.
-/

namespace XerosKernel

open DoublyLinked Execution IntrusiveList

inductive HeapCall
  | malloc (size : Word)
  | free (ptr : Word)

/-- The heap and the headers of the blocks that are allocated. -/
structure HeapState where
  heap : Heap
  live : List Word

namespace HeapState

def step (env : Env) (state : HeapState) : HeapCall → Option HeapState
  | .malloc size => (kmalloc state.heap size).map fun result =>
      ⟨result.2, if result.1 = 0 then state.live else (result.1 - sizeofMemHeader) :: state.live⟩
  | .free ptr => (kfree env state.heap ptr).map fun result =>
      ⟨result.2, state.live.erase (ptr - sizeofMemHeader)⟩

/-- `kfree` is called on live pointers only. -/
def Owned (state : HeapState) : HeapCall → Prop
  | .malloc _ => True
  | .free ptr => ptr - sizeofMemHeader ∈ state.live

instance (state : HeapState) (call : HeapCall) : Decidable (Owned state call) :=
  match call with
  | .malloc _ => isTrue trivial
  | .free _ => inferInstanceAs (Decidable (_ ∈ _))

def start (env : Env) : HeapState := ⟨kmeminit env, []⟩

end HeapState

def blockEnd (heap : Heap) (h : Word) : Nat :=
  h.toNat + sizeofMemHeader.toNat + (heap.size h).toNat

/-- Memory as the allocator expects it: room for a header in front of the hole, and something
behind it. -/
structure Layout (env : Env) : Prop where
  before : (aligned env.freemem).toNat + 16 < env.HOLESTART.toNat
  hole : env.HOLESTART < env.HOLEEND
  after : env.HOLEEND < env.maxaddr
  startAligned : env.HOLESTART % 16 = 0
  endAligned : env.HOLEEND % 16 = 0

/-! Start-up. -/

variable {env : Env} {state final : HeapState} {calls : List HeapCall}

theorem Layout.ne (layout : Layout env) :
    aligned env.freemem ≠ env.HOLEEND ∧ env.HOLEEND ≠ 0 := by
  have := layout.before
  have := layout.hole
  constructor <;> bv_omega

@[simp] theorem kmeminit_memSlot : (kmeminit env).memSlot = aligned env.freemem := rfl

theorem kmeminit_blocks (layout : Layout env) :
    (kmeminit env).size (aligned env.freemem) =
      env.HOLESTART - aligned env.freemem - sizeofMemHeader ∧
    (kmeminit env).size env.HOLEEND = env.maxaddr - env.HOLEEND - sizeofMemHeader ∧
    ∀ h ∈ [aligned env.freemem, env.HOLEEND],
      (kmeminit env).sanity h = (kmeminit env).size h + 16 := by
  have ne := layout.ne.1
  simp [kmeminit, ne]

theorem kmeminit_tracked (layout : Layout env) (notNull : aligned env.freemem ≠ 0) :
    Tracked (kmeminit env) [aligned env.freemem, env.HOLEEND] [] := by
  obtain ⟨ne, notZero⟩ := layout.ne
  have := layout.before
  have := layout.hole
  refine ⟨?_, ?_, List.nodup_nil, by simp, by simp, by simpa using (kmeminit_blocks layout).2.2⟩
  · have first := pointer_of_ne notNull
    have second := pointer_of_ne notZero
    have null : pointer 0#32 = none := rfl
    have links : (kmeminit env).next (aligned env.freemem) = env.HOLEEND ∧
        (kmeminit env).next env.HOLEEND = 0 ∧ (kmeminit env).prev (aligned env.freemem) = 0 ∧
        (kmeminit env).prev env.HOLEEND = aligned env.freemem := by
      simp [kmeminit, ne]
    simp [FreeList, DList, Back, follow, Heap.nextPtr, Heap.prevPtr, links, first, second, null]
  · have lower : aligned env.freemem < env.HOLEEND := by bv_omega
    simpa [Ascending] using lower

/-! One call. -/

open HeapState

theorem malloc_step {nodes : List Word} {size : Word} (listed : Listed state.heap nodes)
    (stepped : step env state (.malloc size) = some final) :
    (chosenBlock state.heap size = none ∧ final = state) ∨
    ∃ front c back, chosenBlock state.heap size = some c ∧ nodes = front ++ c :: back ∧
      final = ⟨useBlock state.heap (aligned size) c,
        if c + sizeofMemHeader = 0 then state.live else c :: state.live⟩ := by
  rw [step, kmalloc_eq listed] at stepped
  cases chosen : chosenBlock state.heap size with
  | none =>
      rw [chosen] at stepped
      cases stepped
      exact Or.inl ⟨rfl, by simp⟩
  | some c =>
      rw [chosen] at stepped
      cases stepped
      have some' : aligned size ≠ 0 := by
        intro zero
        simp [chosenBlock, zero] at chosen
      rw [chosenBlock_eq listed some'] at chosen
      obtain ⟨front, back, parts⟩ := List.append_of_mem (List.mem_of_find?_eq_some chosen)
      refine Or.inr ⟨front, c, back, rfl, parts, ?_⟩
      simp only [BitVec.add_sub_cancel]

theorem kfreeLoop_null (heap : Heap) (ptr : Word) :
    kfreeLoop heap ptr listFuel 0 = some (0, heap) := by
  rw [listFuel, kfreeLoop, if_pos rfl]

theorem kfree_empty {heap : Heap} {p : Word} (accepted : ¬ kfreeRejects env (p + sizeofMemHeader))
    (sane : heap.sanity p = heap.size p + 16) (empty : heap.memSlot = 0) :
    kfree env heap (p + sizeofMemHeader) = some (0, heap) := by
  have header : p + sizeofMemHeader - sizeofMemHeader = p := BitVec.add_sub_cancel ..
  have behind : ¬ p < heap.memSlot := by bv_omega
  rw [kfree, if_neg accepted]
  simp only [header]
  rw [if_neg fun other => other sane, if_neg behind, empty, kfreeLoop_null, ite_self]

theorem free_step {nodes : List Word} {p : Word} (tracked : Tracked state.heap nodes state.live)
    (isLive : p ∈ state.live) (plain : ¬ ScaledHit state.heap p)
    (stepped : step env state (.free (p + sizeofMemHeader)) = some final) :
    final.live = state.live.erase p ∧
      (((kfreeRejects env (p + sizeofMemHeader) ∨ state.heap.memSlot = 0) ∧
          final.heap = state.heap) ∨
        ∃ below above, nodes = below ++ above ∧ (∀ a ∈ below, a < p) ∧ (∀ a ∈ above, p < a) ∧
          (∀ a, final.heap.size a =
            if a = p then mergedSize state.heap p above else state.heap.size a) ∧
          Tracked final.heap (below ++ p :: remaining state.heap p above) final.live) := by
  have header : p + sizeofMemHeader - sizeofMemHeader = p := BitVec.add_sub_cancel ..
  obtain ⟨result, freed, rfl⟩ := Option.map_eq_some_iff.mp stepped
  rw [header]
  refine ⟨rfl, ?_⟩
  by_cases rejected : kfreeRejects env (p + sizeofMemHeader)
  · rw [kfree, if_pos rejected] at freed
    cases freed
    exact Or.inl ⟨Or.inl rejected, rfl⟩
  · by_cases empty : state.heap.memSlot = 0
    · have sane := tracked.sane p (List.mem_append_right _ isLive)
      rw [kfree_empty rejected sane empty] at freed
      cases freed
      exact Or.inl ⟨Or.inr empty, rfl⟩
    · obtain ⟨below, above, heap', parts, low, high, accepted, size, after⟩ :=
        tracked.frees isLive empty rejected plain
      rw [accepted] at freed
      cases freed
      exact Or.inr ⟨below, above, parts, low, high, size, after⟩

/-! Disjoint blocks. -/

/-- The blocks of the free list and the allocated ones share no byte and leave none of the two
regions of memory. -/
def BlocksDisjoint (env : Env) (state : HeapState) : Prop :=
  ∃ free, Chain state.heap.nextPtr (pointer state.heap.memSlot) free ∧
    (free ++ state.live).Pairwise (fun g h =>
      blockEnd state.heap g ≤ h.toNat ∨ blockEnd state.heap h ≤ g.toNat) ∧
    ∀ h ∈ free ++ state.live,
      ((aligned env.freemem).toNat ≤ h.toNat ∧ blockEnd state.heap h ≤ env.HOLESTART.toNat) ∨
      (env.HOLEEND.toNat ≤ h.toNat ∧ blockEnd state.heap h ≤ env.maxaddr.toNat + 1)

/-- `kmalloc` does not split the block it takes, and `kfree` does not find the block right
behind its left neighbour. -/
def Unmerged (state : HeapState) : HeapCall → Prop
  | .malloc size => ∀ c ∈ chosenBlock state.heap size,
      ¬ aligned size + sizeofMemHeader < state.heap.size c
  | .free ptr => ¬ ScaledHit state.heap (ptr - sizeofMemHeader)

instance (state : HeapState) (call : HeapCall) : Decidable (Unmerged state call) :=
  match call with
  | .malloc _ => Option.decidableForallMem _
  | .free _ => inferInstanceAs (Decidable (¬ _))

def Original (env : Env) (state : HeapState) : Prop :=
  ∃ nodes, Tracked state.heap nodes state.live ∧
    ∀ h ∈ nodes ++ state.live, h ∈ [aligned env.freemem, env.HOLEEND] ∧
      state.heap.size h = (kmeminit env).size h

def Roomy (env : Env) : Prop := env.HOLEEND.toNat + 16 ≤ env.maxaddr.toNat

theorem original_ends (layout : Layout env) (roomy : Roomy env) :
    (aligned env.freemem).toNat + 16 + ((kmeminit env).size (aligned env.freemem)).toNat =
      env.HOLESTART.toNat ∧
    env.HOLEEND.toNat + 16 + ((kmeminit env).size env.HOLEEND).toNat = env.maxaddr.toNat := by
  obtain ⟨first, second, _⟩ := kmeminit_blocks layout
  have := layout.before
  have := layout.hole
  have := layout.after
  unfold Roomy at roomy
  rw [first, second, sizeofMemHeader]
  constructor <;> bv_omega

theorem Original.disjoint (layout : Layout env) (roomy : Roomy env)
    (original : Original env state) : BlocksDisjoint env state := by
  obtain ⟨nodes, tracked, two⟩ := original
  obtain ⟨firstEnd, secondEnd⟩ := original_ends layout roomy
  have hole := layout.hole
  have ends : ∀ h ∈ nodes ++ state.live,
      (h = aligned env.freemem ∧ blockEnd state.heap h = env.HOLESTART.toNat) ∨
      (h = env.HOLEEND ∧ blockEnd state.heap h = env.maxaddr.toNat) := by
    intro h isIn
    obtain ⟨which, size⟩ := two h isIn
    rw [List.mem_cons, List.mem_singleton] at which
    rw [blockEnd, size]
    rcases which with rfl | rfl
    · exact Or.inl ⟨rfl, firstEnd⟩
    · exact Or.inr ⟨rfl, secondEnd⟩
  have unique : (nodes ++ state.live).Nodup := List.nodup_append.mpr ⟨tracked.list.nodup,
    tracked.unique, fun a inNodes b inLive same => tracked.apart b inLive (same ▸ inNodes)⟩
  refine ⟨nodes, tracked.list.chain, unique.imp_of_mem ?_, ?_⟩
  · intro g h inG inH ne
    rcases ends g inG with ⟨rfl, endG⟩ | ⟨rfl, endG⟩ <;>
      rcases ends h inH with ⟨rfl, endH⟩ | ⟨rfl, endH⟩
    · exact absurd rfl ne
    · exact Or.inl (by bv_omega)
    · exact Or.inr (by bv_omega)
    · exact absurd rfl ne
  · intro h isIn
    rcases ends h isIn with ⟨rfl, endH⟩ | ⟨rfl, endH⟩
    · exact Or.inl ⟨Nat.le_refl _, Nat.le_of_eq endH⟩
    · exact Or.inr ⟨Nat.le_refl _, by omega⟩

theorem kmeminit_original (layout : Layout env) : Original env (start env) := by
  by_cases null : aligned env.freemem = 0
  · have empty : FreeList (kmeminit env) [] := by
      have closed : pointer (kmeminit env).memSlot = none := pointer_eq_none.mpr null
      exact ⟨closed, trivial, trivial⟩
    exact ⟨[], ⟨empty, List.Pairwise.nil, List.nodup_nil, by simp [start], by simp [start],
      by simp [start]⟩, by simp [start]⟩
  · refine ⟨_, kmeminit_tracked layout null, ?_⟩
    simp [start]

theorem Original.near {nodes front back live : List Word} {c : Word} {heap : Heap}
    (tracked : Tracked heap nodes live) (parts : nodes = front ++ c :: back)
    (two : ∀ h ∈ nodes, h ∈ [aligned env.freemem, env.HOLEEND]) : front.length ≤ 1 := by
  have bound := (List.subperm_of_subset tracked.list.nodup two).length_le
  rw [parts] at bound
  simp only [List.length_append, List.length_cons, List.length_nil] at bound
  omega

theorem Original.stays (layout : Layout env) (roomy : Roomy env) {heap : Heap} {p : Word}
    {above : List Word} (same : heap.size p = (kmeminit env).size p)
    (which : p ∈ [aligned env.freemem, env.HOLEEND]) (high : ∀ a ∈ above, p < a)
    (two : ∀ a ∈ above, a ∈ [aligned env.freemem, env.HOLEEND]) :
    above.head? ≠ some (ptrEndAddr heap p) := by
  intro touch
  obtain ⟨firstEnd, _⟩ := original_ends layout roomy
  have isIn := List.mem_of_head? touch
  have higher := high _ isIn
  have lower : aligned env.freemem < env.HOLEEND := by
    have := layout.before
    have := layout.hole
    bv_omega
  have hole := layout.hole
  have second := two _ isIn
  rw [ptrEndAddr, same, sizeofMemHeader] at higher second
  simp only [List.mem_cons, List.not_mem_nil, or_false] at which second
  rcases which with rfl | rfl
  · rcases second with second | second <;> bv_omega
  · rcases second with second | second <;> bv_omega

theorem Original.step (layout : Layout env) (roomy : Roomy env) {call : HeapCall}
    (original : Original env state) (guard : Owned state call ∧ Unmerged state call)
    (stepped : HeapState.step env state call = some final) : Original env final := by
  obtain ⟨nodes, tracked, two⟩ := original
  obtain ⟨owned, unmerged⟩ := guard
  cases call with
  | malloc size =>
      rcases malloc_step tracked.list.chain stepped with
        ⟨_, rfl⟩ | ⟨front, c, back, chosen, parts, rfl⟩
      · exact ⟨nodes, tracked, two⟩
      · have near := Original.near tracked parts fun h isIn =>
          (two h (List.mem_append_left _ isIn)).1
        subst parts
        obtain ⟨taken, same⟩ := tracked.takes near
        have real : c + sizeofMemHeader ≠ 0 := by
          have which := (two c (by simp)).1
          simp only [List.mem_cons, List.not_mem_nil, or_false] at which
          have := layout.before
          unfold Roomy at roomy
          unfold sizeofMemHeader
          rcases which with rfl | rfl <;> bv_omega
        rw [useBlock, if_neg (unmerged c chosen), if_neg real]
        refine ⟨_, taken, fun h isIn => ?_⟩
        rw [same]
        refine two h ?_
        simp only [List.mem_append, List.mem_cons] at isIn ⊢
        tauto
  | free ptr =>
      have header : ptr - sizeofMemHeader + sizeofMemHeader = ptr := BitVec.sub_add_cancel ..
      rw [← header] at stepped
      obtain ⟨gone, ⟨_, same⟩ | ⟨below, above, rfl, low, high, size, after⟩⟩ :=
        free_step tracked owned unmerged stepped
      · refine ⟨nodes, ?_, fun h isIn => ?_⟩
        · rw [same, gone]
          exact tracked.drop _
        · rw [same]
          refine two h ?_
          rw [gone] at isIn
          rcases List.mem_append.mp isIn with inNodes | inLive
          · exact List.mem_append_left _ inNodes
          · exact List.mem_append_right _ (List.mem_of_mem_erase inLive)
      · obtain ⟨which, room⟩ := two _ (List.mem_append_right _ owned)
        have stays := Original.stays layout roomy room which high fun a isIn =>
          (two a (by simp [isIn])).1
        rw [remaining, if_neg stays] at after
        refine ⟨_, after, fun h isIn => ?_⟩
        have before : h ∈ below ++ above ++ state.live := by
          rw [gone] at isIn
          simp only [List.mem_append, List.mem_cons] at isIn ⊢
          rcases isIn with (inBelow | rfl | inAbove) | inLive
          · exact Or.inl (Or.inl inBelow)
          · exact Or.inr owned
          · exact Or.inl (Or.inr inAbove)
          · exact Or.inr (List.mem_of_mem_erase inLive)
        refine ⟨(two h before).1, ?_⟩
        rw [size, mergedSize, if_neg stays]
        split_ifs with isP
        · rw [isP, room]
        · exact (two h before).2

/-- In the runs in which no block is split and no block is found behind its left neighbour, the
blocks stay disjoint and inside the two regions. -/
theorem blocks_disjoint (layout : Layout env) (roomy : Roomy env)
    (along : Along (HeapState.step env) (fun state call => Owned state call ∧ Unmerged state call)
      (start env) calls)
    (reached : run (HeapState.step env) (start env) calls = some final) :
    BlocksDisjoint env final := by
  have original := run_invariant (fun _ _ _ held guard stepped => held.step layout roomy guard stepped)
    (kmeminit_original layout) along reached
  exact original.disjoint layout roomy

theorem sampleEnv_layout : Layout sampleEnv := by
  constructor <;> decide

theorem blocks_disjoint_whole : ∃ final, BlocksDisjoint sampleEnv final ∧ final.live = [] ∧
    run (HeapState.step sampleEnv) (start sampleEnv) [.malloc 0x269fe0, .free 0x196010] =
      some final := by
  have along : Along (HeapState.step sampleEnv)
      (fun state call => Owned state call ∧ Unmerged state call) (start sampleEnv)
      [.malloc 0x269fe0, .free 0x196010] := by decide +kernel
  have check : ∃ final ∈ run (HeapState.step sampleEnv) (start sampleEnv)
      [.malloc 0x269fe0, .free 0x196010], final.live = [] := by decide +kernel
  obtain ⟨final, reached, empty⟩ := check
  have roomy : Roomy sampleEnv := by
    unfold Roomy
    decide
  exact ⟨final, blocks_disjoint sampleEnv_layout roomy along reached, empty, reached⟩

/-- The rest of a block that is split reaches into the hole. -/
theorem blocks_disjoint_broken : ∃ final, ¬ BlocksDisjoint sampleEnv final ∧
    run (HeapState.step sampleEnv) (start sampleEnv) [.malloc 100] = some final := by
  have check : ∃ final ∈ run (HeapState.step sampleEnv) (start sampleEnv) [.malloc 100],
      final.heap.memSlot = 0x9680 ∧ final.heap.size 0x9680 = 0x96980 := by decide +kernel
  obtain ⟨final, reached, slot, size⟩ := check
  refine ⟨final, ?_, reached⟩
  rintro ⟨free, chain, _, inside⟩
  rw [slot] at chain
  have isIn : (0x9680 : Word) ∈ free := by
    cases free with
    | nil => cases chain
    | cons node rest => exact (Option.some.inj chain.1) ▸ List.mem_cons_self ..
  have bounds := inside _ (List.mem_append_left _ isIn)
  rw [blockEnd, size] at bounds
  revert bounds
  decide

/-! The free list loses nothing. -/

def Managed (env : Env) (byte : Nat) : Prop :=
  ((aligned env.freemem).toNat ≤ byte ∧ byte < env.HOLESTART.toNat) ∨
    (env.HOLEEND.toNat ≤ byte ∧ byte < env.maxaddr.toNat)

def Covered (heap : Heap) (blocks : List Word) (byte : Nat) : Prop :=
  ∃ h ∈ blocks, h.toNat ≤ byte ∧ byte < blockEnd heap h

/-- `memSlot` heads a doubly linked ascending list which holds no allocated block, and every
byte outside the allocated blocks. -/
def Complete (env : Env) (state : HeapState) (nodes : List Word) : Prop :=
  FreeList state.heap nodes ∧ Ascending nodes ∧ (∀ h ∈ state.live, h ∉ nodes) ∧
    ∀ byte, Managed env byte → ¬ Covered state.heap state.live byte →
      Covered state.heap nodes byte

/-- The rest of the block that `kmalloc` splits stays in its place on the list: the block is
the first, and the rest does not reach the second one or an allocated one. -/
def SplitsFirst (state : HeapState) (c req_size : Word) : Prop :=
  state.heap.prev c = 0 ∧ c < c + sizeofMemHeader + req_size ∧
    (state.heap.next c = 0 ∨ c + sizeofMemHeader + req_size < state.heap.next c) ∧
    c + sizeofMemHeader + req_size ∉ state.live

/-- `kmalloc` takes a block at the front of the list or right behind it, and the pointer it
returns is not 0. -/
def UsesFront (state : HeapState) (c req_size : Word) : Prop :=
  c + sizeofMemHeader ≠ 0 ∧ if req_size + sizeofMemHeader < state.heap.size c then
    SplitsFirst state c req_size
  else state.heap.prev c = 0 ∨ state.heap.prev (state.heap.prev c) = 0

def Joins (heap : Heap) (p : Word) : Prop :=
  heap.memSlot = ptrEndAddr heap p ∨ ∃ c ∈ leftNeighbour heap p, heap.next c = ptrEndAddr heap p

/-- The calls after which the list is still complete: the size does not overflow and the front
of the list is used; `kfree` finds a list, accepts the pointer, does not find the block behind
its left neighbour and does not overflow a size. -/
def Keeps (env : Env) (state : HeapState) : HeapCall → Prop
  | .malloc size => 0 < size → aligned size ≠ 0 ∧
      ∀ c ∈ chosenBlock state.heap size, UsesFront state c (aligned size)
  | .free ptr => state.heap.memSlot ≠ 0 ∧ ¬ kfreeRejects env ptr ∧
      ¬ ScaledHit state.heap (ptr - sizeofMemHeader) ∧
      (Joins state.heap (ptr - sizeofMemHeader) →
        (state.heap.size (ptr - sizeofMemHeader)).toNat + sizeofMemHeader.toNat +
          (state.heap.size (ptrEndAddr state.heap (ptr - sizeofMemHeader))).toNat < 2 ^ 32)

instance (state : HeapState) (c req_size : Word) : Decidable (SplitsFirst state c req_size) :=
  inferInstanceAs (Decidable (_ ∧ _))

instance (state : HeapState) (c req_size : Word) : Decidable (UsesFront state c req_size) :=
  inferInstanceAs (Decidable (_ ∧ ite _ _ _))

instance (heap : Heap) (p : Word) : Decidable (Joins heap p) :=
  have : Decidable (∃ c ∈ leftNeighbour heap p, heap.next c = ptrEndAddr heap p) :=
    Option.decidableExistsMem _
  inferInstanceAs (Decidable (_ ∨ _))

instance (env : Env) (state : HeapState) (call : HeapCall) : Decidable (Keeps env state call) :=
  match call with
  | .malloc size =>
      have : Decidable (∀ c ∈ chosenBlock state.heap size, UsesFront state c (aligned size)) :=
        Option.decidableForallMem _
      inferInstanceAs (Decidable (_ → _ ∧ _))
  | .free _ => inferInstanceAs (Decidable (_ ∧ _))

def Accounted (env : Env) (state : HeapState) : Prop :=
  ∃ nodes, Tracked state.heap nodes state.live ∧
    ∀ byte, Managed env byte → Covered state.heap (nodes ++ state.live) byte

theorem Accounted.complete (accounted : Accounted env state) :
    ∃ nodes, Tracked state.heap nodes state.live ∧ Complete env state nodes := by
  obtain ⟨nodes, tracked, covers⟩ := accounted
  refine ⟨nodes, tracked, tracked.list, tracked.ascending, tracked.apart, ?_⟩
  intro byte managed notLive
  obtain ⟨h, isIn, inside⟩ := covers byte managed
  rcases List.mem_append.mp isIn with inNodes | inLive
  · exact ⟨h, inNodes, inside⟩
  · exact absurd ⟨h, inLive, inside⟩ notLive

theorem kmeminit_accounted (layout : Layout env) (notNull : aligned env.freemem ≠ 0) :
    Accounted env (start env) := by
  refine ⟨_, kmeminit_tracked layout notNull, ?_⟩
  obtain ⟨first, second, _⟩ := kmeminit_blocks layout
  have := layout.before
  have := layout.hole
  have := layout.after
  rintro byte (before | behind)
  · refine ⟨_, by simp, before.1, ?_⟩
    rw [blockEnd, start, first, sizeofMemHeader]
    bv_omega
  · refine ⟨env.HOLEEND, by simp, behind.1, ?_⟩
    rw [blockEnd, start, second, sizeofMemHeader]
    bv_omega

theorem Accounted.carry {nodes nodes' : List Word} (tracked : Tracked final.heap nodes' final.live)
    (covers : ∀ byte, Managed env byte → Covered state.heap (nodes ++ state.live) byte)
    (kept : ∀ h ∈ nodes ++ state.live, ∀ byte, h.toNat ≤ byte → byte < blockEnd state.heap h →
      Covered final.heap (nodes' ++ final.live) byte) : Accounted env final := by
  refine ⟨nodes', tracked, fun byte managed => ?_⟩
  obtain ⟨h, isIn, lower, upper⟩ := covers byte managed
  exact kept h isIn byte lower upper

theorem FreeList.front_nil {heap : Heap} {front back : List Word} {c : Word}
    (list : FreeList heap (front ++ c :: back)) (first : heap.prev c = 0) : front = [] := by
  have last := list.links_at.2
  rw [Heap.prevPtr, pointer_eq_none.mpr first] at last
  exact List.getLast?_eq_none_iff.mp last.symm

theorem FreeList.front_near {heap : Heap} {front back : List Word} {c : Word}
    (list : FreeList heap (front ++ c :: back))
    (near : heap.prev c = 0 ∨ heap.prev (heap.prev c) = 0) : front.length ≤ 1 := by
  rcases List.eq_nil_or_concat front with rfl | ⟨inner, d, rfl⟩
  · exact Nat.zero_le _
  · have last := list.links_at.2
    rw [List.concat_eq_append] at *
    rw [List.getLast?_concat] at last
    obtain ⟨notNull, same⟩ := pointer_eq_some.mp last
    have second := near.resolve_left notNull
    rw [same] at second
    rw [List.append_assoc, List.singleton_append] at list
    rw [FreeList.front_nil list second]
    exact Nat.le_refl _

theorem Linked.behind {heap : Heap} {first : Option Word} {front back : List Word} {c n : Word}
    (linked : Linked heap first (front ++ c :: back)) (ascending : Ascending (front ++ c :: back))
    (before : heap.next c = 0 ∨ n < heap.next c) : ∀ a ∈ back, n < a := by
  cases back with
  | nil => simp
  | cons t rest =>
      obtain ⟨notNull, same⟩ := pointer_eq_some.mp linked.links_at.1
      have lower := same ▸ before.resolve_left notNull
      obtain ⟨_, ascending, _⟩ := List.pairwise_append.mp ascending
      obtain ⟨_, ascending⟩ := List.pairwise_cons.mp ascending
      obtain ⟨least, _⟩ := List.pairwise_cons.mp ascending
      refine List.forall_mem_cons.mpr ⟨lower, fun a isIn => ?_⟩
      exact BitVec.lt_trans lower (least a isIn)

theorem aligned_toNat (addr : Word) :
    (aligned addr).toNat = (if addr.toNat % 16 = 0 then addr.toNat
      else (addr.toNat + 16 - addr.toNat % 16) % 2 ^ 32) := by
  have remainder : (addr % 16).toNat = addr.toNat % 16 := BitVec.toNat_umod
  have low : addr.toNat % 16 < 16 := Nat.mod_lt _ (by decide)
  have bound := addr.isLt
  unfold aligned
  simp only []
  by_cases even : addr.toNat % 16 = 0
  · rw [if_pos even, if_neg]
    intro odd
    exact odd (BitVec.eq_of_toNat_eq (remainder.trans even))
  · rw [if_neg even, if_pos fun same => even (remainder.symm.trans (congrArg _ same))]
    rw [BitVec.toNat_sub, BitVec.toNat_add, remainder]
    have sixteen : (16 : Word).toNat = 16 := rfl
    rw [sixteen]
    omega

theorem aligned_le (addr : Word) : aligned addr ≤ 0xfffffff0 := by
  have value := aligned_toNat addr
  have bound := addr.isLt
  have least : (0xfffffff0 : Word).toNat = 0xfffffff0 := rfl
  rw [BitVec.le_def, value, least]
  split <;> omega

theorem split_covers {heap heap' : Heap} {c n req_size : Word} {back live : List Word}
    (sizes : ∀ a, heap'.size a = if a = n then heap.size c - req_size
      else if a = c then req_size else heap.size a)
    (shape : n = c + sizeofMemHeader + req_size) (bound : req_size ≤ 0xfffffff0) (behind : c < n)
    (larger : req_size + sizeofMemHeader < heap.size c)
    (others : ∀ h ∈ back ++ live, h ≠ n ∧ h ≠ c) :
    ∀ h ∈ [] ++ c :: back ++ live, ∀ byte, h.toNat ≤ byte → byte < blockEnd heap h →
      Covered heap' (n :: back ++ c :: live) byte := by
  intro h isIn byte lower upper
  by_cases isC : h = c
  · subst isC
    have first : heap'.size h = req_size := by
      rw [sizes, if_neg (by bv_omega), if_pos rfl]
    have second : heap'.size n = heap.size h - req_size := by
      rw [sizes, if_pos rfl]
    rw [blockEnd] at upper
    unfold sizeofMemHeader at *
    by_cases inFirst : byte < n.toNat
    · refine ⟨h, by simp, lower, ?_⟩
      rw [blockEnd, first, sizeofMemHeader]
      bv_omega
    · refine ⟨n, by simp, by omega, ?_⟩
      rw [blockEnd, second, sizeofMemHeader]
      bv_omega
  · have other : h ∈ back ++ live := by
      simpa [isC] using isIn
    obtain ⟨notN, notC⟩ := others h other
    refine ⟨h, ?_, lower, ?_⟩
    · simp only [List.mem_append, List.mem_cons] at other ⊢
      tauto
    · rw [blockEnd, sizes, if_neg notN, if_neg notC]
      exact upper

theorem Accounted.malloc {size : Word} (accounted : Accounted env state)
    (keeps : Keeps env state (.malloc size))
    (stepped : HeapState.step env state (.malloc size) = some final) : Accounted env final := by
  obtain ⟨nodes, tracked, covers⟩ := accounted
  rcases malloc_step tracked.list.chain stepped with ⟨_, rfl⟩ | ⟨front, c, back, chosen, rfl, rfl⟩
  · exact ⟨nodes, tracked, covers⟩
  · have positive : 0 < size := by
      have some' : size ≠ 0 := by
        rintro rfl
        simp [chosenBlock, aligned] at chosen
      bv_omega
    obtain ⟨real, front'⟩ := (keeps positive).2 c chosen
    rw [useBlock, if_neg real]
    by_cases larger : aligned size + sizeofMemHeader < state.heap.size c
    · rw [if_pos larger] at front' ⊢
      obtain ⟨first, behind, before, fresh⟩ := front'
      obtain rfl := tracked.list.front_nil first
      have linked : Linked state.heap (pointer state.heap.memSlot) ([] ++ c :: back) := tracked.list
      have higher := linked.behind tracked.ascending before
      obtain ⟨taken, sizes⟩ := tracked.splits rfl behind higher fresh
      have unique := List.nodup_cons.mp tracked.list.nodup
      refine Accounted.carry taken covers (split_covers sizes rfl (aligned_le size) behind
        larger fun h isIn => ?_)
      rcases List.mem_append.mp isIn with inBack | inLive
      · refine ⟨fun same => ?_, fun same => unique.1 (same ▸ inBack)⟩
        exact BitVec.lt_irrefl _ (same ▸ higher h inBack)
      · refine ⟨fun same => fresh (same ▸ inLive), ?_⟩
        rintro rfl
        exact tracked.apart h inLive (by simp)
    · rw [if_neg larger] at front' ⊢
      have near := tracked.list.front_near front'
      obtain ⟨taken, same⟩ := tracked.takes near
      refine Accounted.carry taken covers fun h isIn byte lower upper => ⟨h, ?_, lower, ?_⟩
      · simp only [List.mem_append, List.mem_cons] at isIn ⊢
        tauto
      · rw [blockEnd, same]
        exact upper

theorem Listed.joins {heap : Heap} {p : Word} {below above : List Word}
    (listed : Listed heap (below ++ above)) (low : ∀ a ∈ below, a < p) (high : ∀ a ∈ above, p < a)
    (touch : above.head? = some (ptrEndAddr heap p)) : Joins heap p := by
  obtain ⟨rest, rfl⟩ := List.head?_eq_some_iff.mp touch
  rcases List.eq_nil_or_concat below with rfl | ⟨front, c, rfl⟩
  · exact Or.inl listed.memSlot_cons
  · rw [List.concat_eq_append] at low listed
    rw [List.append_assoc, List.singleton_append] at listed
    refine Or.inr ⟨c, (leftNeighbour_eq listed low high).2.1, ?_⟩
    exact (pointer_eq_some.mp listed.next_at).2

theorem free_covers {heap heap' : Heap} {p : Word} {below above live : List Word}
    (sizes : ∀ a, heap'.size a = if a = p then mergedSize heap p above else heap.size a)
    (high : ∀ a ∈ above, p < a)
    (fits : above.head? = some (ptrEndAddr heap p) →
      (heap.size p).toNat + sizeofMemHeader.toNat + (heap.size (ptrEndAddr heap p)).toNat < 2 ^ 32) :
    ∀ h ∈ below ++ above ++ live, ∀ byte, h.toNat ≤ byte → byte < blockEnd heap h →
      Covered heap' (below ++ p :: remaining heap p above ++ live.erase p) byte := by
  intro h isIn byte lower upper
  by_cases isP : h = p
  · subst isP
    refine ⟨h, by simp, lower, ?_⟩
    rw [blockEnd] at upper ⊢
    rw [sizes, if_pos rfl, mergedSize]
    split_ifs with touch
    · have := fits touch
      unfold sizeofMemHeader at *
      bv_omega
    · exact upper
  · by_cases stays : h ∈ below ++ remaining heap p above ++ live.erase p
    · refine ⟨h, ?_, lower, ?_⟩
      · simp only [List.mem_append, List.mem_cons] at stays ⊢
        tauto
      · rw [blockEnd, sizes, if_neg isP]
        exact upper
    · have touch : above.head? = some (ptrEndAddr heap p) := by
        by_contra apart
        refine stays ?_
        rw [remaining, if_neg apart]
        simp only [List.mem_append] at isIn ⊢
        have := List.mem_erase_of_ne (l := live) isP
        tauto
      obtain ⟨rest, rfl⟩ := List.head?_eq_some_iff.mp touch
      have isEnd : h = ptrEndAddr heap p := by
        rw [remaining, if_pos touch] at stays
        simp only [List.mem_append, List.mem_cons, List.tail_cons] at isIn stays
        have := List.mem_erase_of_ne (l := live) isP
        tauto
      have behind := high _ (List.mem_cons_self ..)
      have := fits touch
      refine ⟨p, by simp, by bv_omega, ?_⟩
      rw [blockEnd] at upper ⊢
      rw [sizes, if_pos rfl, mergedSize, if_pos touch]
      subst isEnd
      unfold ptrEndAddr sizeofMemHeader at *
      bv_omega

theorem Accounted.free {p : Word} (accounted : Accounted env state)
    (isLive : p ∈ state.live) (keeps : Keeps env state (.free (p + sizeofMemHeader)))
    (stepped : HeapState.step env state (.free (p + sizeofMemHeader)) = some final) :
    Accounted env final := by
  obtain ⟨nodes, tracked, covers⟩ := accounted
  have header : p + sizeofMemHeader - sizeofMemHeader = p := BitVec.add_sub_cancel ..
  rw [Keeps, header] at keeps
  obtain ⟨some', accepted, plain, fits⟩ := keeps
  obtain ⟨gone, ⟨none, _⟩ | ⟨below, above, rfl, low, high, sizes, after⟩⟩ :=
    free_step tracked isLive plain stepped
  · exact absurd none (not_or.mpr ⟨accepted, some'⟩)
  · refine Accounted.carry after covers ?_
    rw [gone]
    exact free_covers sizes high fun touch => fits (tracked.list.chain.joins low high touch)

/-- In the runs of such calls the list accounts for every byte, and `kmalloc` returns 0 only if
no block of the list is large enough. -/
theorem free_list_complete (layout : Layout env) (notNull : aligned env.freemem ≠ 0)
    (along : Along (HeapState.step env) (fun state call => Owned state call ∧ Keeps env state call)
      (start env) calls)
    (reached : run (HeapState.step env) (start env) calls = some final) :
    ∃ nodes, Complete env final nodes ∧ ∀ size heap, 0 < size → Keeps env final (.malloc size) →
      kmalloc final.heap size = some (0, heap) → ∀ c ∈ nodes, final.heap.size c < aligned size := by
  have preserved : ∀ state call after, Accounted env state →
      Owned state call ∧ Keeps env state call →
      HeapState.step env state call = some after → Accounted env after := by
    rintro state (size | ptr) after accounted ⟨owned, keeps⟩ stepped
    · exact accounted.malloc keeps stepped
    · have header : ptr - sizeofMemHeader + sizeofMemHeader = ptr := BitVec.sub_add_cancel ..
      rw [← header] at keeps stepped
      exact accounted.free owned keeps stepped
  have accounted := run_invariant preserved (kmeminit_accounted layout notNull) along reached
  obtain ⟨nodes, tracked, complete⟩ := accounted.complete
  refine ⟨nodes, complete, fun size heap positive keeps none c isIn => ?_⟩
  obtain ⟨some', front⟩ := keeps positive
  rw [kmalloc_eq tracked.list.chain] at none
  cases chosen : chosenBlock final.heap size with
  | some d =>
      rw [chosen] at none
      exact absurd (congrArg Prod.fst (Option.some.inj none)) (front d chosen).1
  | none =>
      rw [chosenBlock_eq tracked.list.chain some'] at chosen
      have small := List.find?_eq_none.mp chosen c isIn
      rw [decide_eq_true_eq, Suits, not_or] at small
      bv_omega

theorem free_list_complete_two : ∃ final nodes, Complete sampleEnv final nodes ∧
    final.live = [0x9680] ∧ run (HeapState.step sampleEnv) (start sampleEnv)
      [.malloc 100, .malloc 200, .free 0x9610] = some final := by
  have along : Along (HeapState.step sampleEnv)
      (fun state call => Owned state call ∧ Keeps sampleEnv state call) (start sampleEnv)
      [.malloc 100, .malloc 200, .free 0x9610] := by decide +kernel
  have check : ∃ final ∈ run (HeapState.step sampleEnv) (start sampleEnv)
      [.malloc 100, .malloc 200, .free 0x9610], final.live = [0x9680] := by decide +kernel
  obtain ⟨final, reached, live⟩ := check
  obtain ⟨nodes, complete, _⟩ :=
    free_list_complete sampleEnv_layout (by decide) along reached
  exact ⟨final, nodes, complete, live, reached⟩

/-- A request that only the block behind the hole can serve: `memSlot` leaves out the block in
front of it. -/
theorem free_list_complete_broken : ∃ final, (¬ ∃ nodes, Complete sampleEnv final nodes) ∧
    run (HeapState.step sampleEnv) (start sampleEnv) [.malloc 0x100000] = some final := by
  have check : ∃ final ∈ run (HeapState.step sampleEnv) (start sampleEnv) [.malloc 0x100000],
      final.heap.memSlot ≠ 0 ∧ final.heap.prev final.heap.memSlot ≠ 0 := by decide +kernel
  obtain ⟨final, reached, notNull, second⟩ := check
  refine ⟨final, ?_, reached⟩
  rintro ⟨nodes, list, _⟩
  cases nodes with
  | nil => exact notNull list.chain.memSlot_nil
  | cons first rest =>
      have whole : FreeList final.heap ([] ++ first :: rest) := list
      have before := whole.links_at.2
      rw [← list.chain.memSlot_cons] at before
      exact second (pointer_eq_none.mp before)

end XerosKernel
