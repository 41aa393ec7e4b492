import XerosKernel.KernelCore

/-!
The memory manager `mem.c`. Memory is seen at the grain of its 16-byte headers: all
header addresses the code computes lie on the 16-byte grid, so two of them never overlap
in part.
-/

namespace XerosKernel

def sizeofMemHeader : Word := 16

def aligned (addr : Word) : Word :=
  let remainder := addr % 16
  if remainder ≠ 0 then addr + 16 - addr % 16 else addr

namespace Heap

def write (heap : Heap) (addr : Word) (change : MemHeader → MemHeader) : Heap :=
  { heap with
    header := fun a => if a = addr then change (heap.header a) else heap.header a }

@[simp] theorem write_memSlot (heap : Heap) (addr : Word) (change : MemHeader → MemHeader) :
    (heap.write addr change).memSlot = heap.memSlot := rfl

def size (heap : Heap) (addr : Word) : Word := (heap.header addr).size
def prev (heap : Heap) (addr : Word) : Word := (heap.header addr).prev
def next (heap : Heap) (addr : Word) : Word := (heap.header addr).next

end Heap

def completeHeader (heap : Heap) (newHeader size prev next : Word) : Heap :=
  heap.write newHeader fun _ =>
    { size := size, prev := prev, next := next, sanityCheck := size + 16 }

def kmeminit (env : Env) : Heap :=
  let beforeHole := aligned env.freemem
  let afterHole := env.HOLEEND
  let heap : Heap := { memSlot := 0, header := env.header }
  let heap := completeHeader heap beforeHole
    (env.HOLESTART - aligned env.freemem - sizeofMemHeader) 0 afterHole
  let heap := completeHeader heap afterHole
    (env.maxaddr - env.HOLEEND - sizeofMemHeader) beforeHole 0
  { heap with memSlot := beforeHole }

/-- Case A of `kmalloc`: `curr` is larger than needed and its rest becomes a new header. -/
def splitBlock (heap : Heap) (curr req_size : Word) : Heap :=
  let newHeader := curr + sizeofMemHeader + req_size
  let heap := completeHeader heap newHeader (heap.size curr - req_size)
    (heap.prev curr) (heap.next curr)
  let heap := heap.write curr fun header =>
    { header with size := req_size, sanityCheck := req_size + 16 }
  let heap := if heap.next curr ≠ 0 then
    heap.write (heap.next curr) fun header => { header with prev := newHeader } else heap
  let heap := if heap.prev curr ≠ 0 then
    heap.write (heap.prev curr) fun header => { header with next := newHeader } else heap
  { heap with memSlot := newHeader }

/-- Case B of `kmalloc`: the whole of `curr` leaves the free list. -/
def takeBlock (heap : Heap) (curr : Word) : Heap :=
  if heap.prev curr = 0 ∧ heap.next curr = 0 then { heap with memSlot := 0 }
  else if heap.prev curr = 0 then
    let heap := { heap with memSlot := heap.next curr }
    heap.write (heap.next curr) fun header => { header with prev := 0 }
  else if heap.next curr ≠ 0 then
    let heap := { heap with memSlot := heap.prev curr }
    let heap := heap.write (heap.prev curr) fun header => { header with next := heap.next curr }
    heap.write (heap.next curr) fun header => { header with prev := heap.prev curr }
  else
    let heap := { heap with memSlot := heap.prev curr }
    heap.write (heap.prev curr) fun header => { header with next := 0 }

/-- More nodes than addresses a list cannot have unless it is cyclic, so running out of this
much fuel is a loop of the source that never ends. -/
abbrev listFuel : Nat := 2 ^ 32 + 1

def kmallocLoop (heap : Heap) (req_size : Word) : Nat → Word → Option (Word × Heap)
  | 0, _ => none
  | fuel + 1, curr =>
      if curr = 0 then some (0, heap)
      else if req_size + sizeofMemHeader < heap.size curr then
        some (curr + sizeofMemHeader, splitBlock heap curr req_size)
      else if req_size ≤ heap.size curr then
        some (curr + sizeofMemHeader, takeBlock heap curr)
      else kmallocLoop heap req_size fuel (heap.next curr)

def kmalloc (heap : Heap) (size : Word) : Option (Word × Heap) :=
  let req_size := aligned size
  if req_size = 0 ∨ heap.memSlot = 0 then some (0, heap)
  else kmallocLoop heap req_size listFuel heap.memSlot

/-- The address `curr + curr->size + sizeof(struct memHeader)` in units of a whole header,
which is how C adds to a `struct memHeader *`. -/
def currEndAddr (heap : Heap) (curr : Word) : Word :=
  curr + 16 * heap.size curr + 16 * sizeofMemHeader

/-- The loop of `kfree`, cases C to H. -/
def kfreeLoop (heap : Heap) (ptr : Word) : Nat → Word → Option (Word × Heap)
  | 0, _ => none
  | fuel + 1, curr =>
      let ptrHeader := ptr - sizeofMemHeader
      if curr = 0 then some (0, heap)
      else if heap.next curr = 0 then
        if ptrHeader = currEndAddr heap curr then
          -- case C
          let newSize := heap.size ptrHeader + heap.size curr + sizeofMemHeader
          some (1, heap.write curr fun header =>
            { header with size := newSize, sanityCheck := newSize + 16 })
        else
          -- case D
          let heap := completeHeader heap ptrHeader (heap.size ptrHeader) curr 0
          some (1, heap.write curr fun header => { header with next := ptrHeader })
      else if ptrHeader < heap.next curr then
        let ptrEndAddr := ptr + heap.size ptrHeader
        let temp := heap.next curr
        let tempNext := heap.next temp
        if currEndAddr heap curr = ptrHeader ∧ ptrEndAddr = temp then
          -- cases E and E1
          let newSize := heap.size curr + heap.size ptrHeader + heap.size temp +
            2 * sizeofMemHeader
          let heap := completeHeader heap curr newSize (heap.prev curr) tempNext
          some (1, if tempNext ≠ 0 then
            heap.write tempNext fun header => { header with prev := curr } else heap)
        else if currEndAddr heap curr = ptrHeader then
          -- case F
          let newSize := heap.size curr + heap.size ptrHeader + sizeofMemHeader
          some (1, heap.write curr fun header =>
            { header with size := newSize, sanityCheck := newSize + 16 })
        else if ptrEndAddr = temp then
          -- cases G and G1
          let newSize := heap.size ptrHeader + heap.size temp + sizeofMemHeader
          let heap := heap.write curr fun header => { header with next := ptrHeader }
          let heap := if tempNext ≠ 0 then
            heap.write tempNext fun header => { header with prev := ptrHeader } else heap
          some (1, completeHeader heap ptrHeader newSize curr tempNext)
        else
          -- case H
          let heap := completeHeader heap ptrHeader (heap.size ptrHeader) curr temp
          let heap := heap.write curr fun header => { header with next := ptrHeader }
          some (1, heap.write temp fun header => { header with prev := ptrHeader })
      else kfreeLoop heap ptr fuel (heap.next curr)

/-- The address tests that open `kfree`. -/
def kfreeRejects (env : Env) (ptr : Word) : Prop :=
  ptr < aligned env.freemem ∨ (env.HOLESTART < ptr ∧ ptr < env.HOLEEND) ∨
    ptr ≠ aligned ptr ∨ env.maxaddr < ptr

instance (env : Env) (ptr : Word) : Decidable (kfreeRejects env ptr) :=
  inferInstanceAs (Decidable (_ ∨ _))

def kfree (env : Env) (heap : Heap) (ptr : Word) : Option (Word × Heap) :=
  if kfreeRejects env ptr then some (0, heap)
  else
    let ptrHeader := ptr - sizeofMemHeader
    if (heap.header ptrHeader).sanityCheck ≠ heap.size ptrHeader + 16 then some (0, heap)
    else
      let curr := heap.memSlot
      if ptrHeader < curr then
        if ptr + heap.size ptrHeader = curr then
          -- case A
          let newSize := heap.size ptrHeader + heap.size curr + sizeofMemHeader
          let heap := completeHeader heap ptrHeader newSize 0 (heap.next curr)
          let heap := heap.write (heap.next curr) fun header => { header with prev := ptrHeader }
          some (1, { heap with memSlot := ptrHeader })
        else
          -- case B
          let heap := completeHeader heap ptrHeader (heap.size ptrHeader) 0 curr
          let heap := heap.write curr fun header => { header with prev := ptrHeader }
          some (1, { heap with memSlot := ptrHeader })
      else if curr < ptrHeader then kfreeLoop heap ptr listFuel curr
      else some (0, heap)

end XerosKernel
