import Mathlib.Algebra.Group.Nat.Defs
import Mathlib.Data.List.Basic

/-!
The data of the kernel: the process table of `xeroskernel.h` with the fields that
`msg.c` expects in it, the memory that processes and drivers touch, and the external
values of `i386.c`. A pointer to a process is a slot of `proctab`; the process table and
the other kernel variables are assumed to lie outside the memory that processes use.
-/

namespace XerosKernel

abbrev Word := BitVec 32

abbrev Byte := BitVec 8

abbrev Memory := Word → Byte

abbrev MAX_PROC : Nat := 64
abbrev MAX_SIG : Nat := 32
abbrev MAX_FDT : Nat := 4

instance : @NeZero Nat Zero.ofOfNat0 MAX_PROC := ⟨Nat.succ_ne_zero 63⟩
instance : @NeZero Nat Zero.ofOfNat0 MAX_SIG := ⟨Nat.succ_ne_zero 31⟩
instance : @NeZero Nat Zero.ofOfNat0 MAX_FDT := ⟨Nat.succ_ne_zero 3⟩

abbrev Slot := Fin MAX_PROC

instance : LawfulBEq Slot := inferInstance

def CREATE_FAILURE : Word := -1
def PROC_STACK : Word := 4096 * 4
def MILLISECONDS_TICK : Word := 10

theorem toInt_toNat {word : Word} (positive : 0 ≤ word.toInt) : word.toInt = word.toNat := by
  have value := BitVec.toInt_eq_toNat_cond word
  have bound := word.isLt
  split at value <;> omega

/-! Memory. -/

def loadWord (mem : Memory) (addr : Word) : Word :=
  mem (addr + 3) ++ mem (addr + 2) ++ mem (addr + 1) ++ mem addr

def storeByte (mem : Memory) (addr : Word) (value : Byte) : Memory :=
  fun a => if a = addr then value else mem a

def storeWord (mem : Memory) (addr value : Word) : Memory :=
  storeByte (storeByte (storeByte (storeByte mem addr (value.extractLsb' 0 8))
    (addr + 1) (value.extractLsb' 8 8)) (addr + 2) (value.extractLsb' 16 8))
    (addr + 3) (value.extractLsb' 24 8)

def memset (mem : Memory) (dest : Word) (value : Byte) (n : Word) : Memory :=
  fun a => if a - dest < n then value else mem a

/-- One byte after the other, from the lowest address up. -/
def memCpyFrom (mem : Memory) (dest src : Word) : Nat → Memory
  | 0 => mem
  | i + 1 =>
      let copied := memCpyFrom mem dest src i
      storeByte copied (dest + BitVec.ofNat 32 i) (copied (src + BitVec.ofNat 32 i))

def memCpy (mem : Memory) (dest src n : Word) : Memory :=
  memCpyFrom mem dest src n.toNat

/-! The process table. -/

inductive ProcState
  | stopped
  | ready
  | wait
  | sleep
  | running
  | blocked
  | blockedSend
  | blockedRecv
  deriving DecidableEq, Repr

inductive FdStatus
  | close
  | opened
  deriving DecidableEq, Repr

inductive Device
  | zero
  | rand
  | kbd
  deriving DecidableEq, Repr

structure FdStruct where
  device : Option Device := none
  status : FdStatus := .close
  dataBuffer : Word := 0
  deriving DecidableEq, Repr

/-- The default values are the ones that `memset` to 0 leaves in an unused slot. -/
structure Pcb where
  esp : Word := 0
  next : Option Slot := none
  prev : Option Slot := none
  state : ProcState := .stopped
  pid : Word := 0
  ret : Word := 0
  args : Word := 0
  sleepdiff : Word := 0
  cpuTime : Word := 0
  sigtab : Fin MAX_SIG → Word := fun _ => 0
  sigmask : Word := 0
  currSigLvl : Word := 0
  waitpid : Word := 0
  fdt : Fin MAX_FDT → FdStruct := fun _ => {}
  -- the fields of `msg.c`
  waitingPid : Word := 0
  buffer : Word := 0
  buffer_len : Word := 0
  senderQueue : Option Slot := none
  senderNext : Option Slot := none

/-- The variables of `kbd.c`; `irqEnabled` is what `enable_irq(1, _)` last asked for. -/
structure Keyboard where
  state : Word := 0
  eof : Word := 4
  echo : Bool := true
  kbdbuff : Fin 4 → Byte := fun _ => 0
  irqEnabled : Bool := false

structure MemHeader where
  size : Word
  prev : Word
  next : Word
  sanityCheck : Word
  deriving DecidableEq, Repr

/-- The memory manager: `memSlot` and what every address holds when read as a header. -/
structure Heap where
  memSlot : Word
  header : Word → MemHeader

/-- Values that are set outside the repository: memory bounds, code addresses, the states
of `msg.c` that `xeroskernel.h` does not number, `rand` and what memory holds at power-up. -/
structure Env where
  freemem : Word
  maxaddr : Word
  HOLESTART : Word
  HOLEEND : Word
  getCS : Word
  sysstop : Word
  sigtramp : Word
  idleproc : Word
  initProgram : Word
  STATE_BLOCKED_SEND : Word
  STATE_BLOCKED_RECV : Word
  rand : Word → Word × Word
  srand : Word → Word
  seed : Word
  mem : Memory
  header : Word → MemHeader

structure Kernel where
  proctab : Slot → Pcb
  head : Option Slot
  tail : Option Slot
  sleepQ : Option Slot
  nextpid : Word
  heap : Heap
  mem : Memory
  kbd : Keyboard
  seed : Word
  -- history variables, written by `signal` and read by no function of the kernel
  accepted : List (Slot × Fin MAX_SIG)
  pushed : List (Slot × Fin MAX_SIG)

namespace Kernel

def modify (kernel : Kernel) (p : Slot) (write : Pcb → Pcb) : Kernel :=
  { kernel with
    proctab := fun i => if i = p then write (kernel.proctab i) else kernel.proctab i }

variable (kernel : Kernel) (p : Slot) (write : Pcb → Pcb)

@[simp] theorem modify_proctab (i : Slot) : (kernel.modify p write).proctab i =
    if i = p then write (kernel.proctab i) else kernel.proctab i := rfl

@[simp] theorem modify_head : (kernel.modify p write).head = kernel.head := rfl
@[simp] theorem modify_tail : (kernel.modify p write).tail = kernel.tail := rfl
@[simp] theorem modify_sleepQ : (kernel.modify p write).sleepQ = kernel.sleepQ := rfl
@[simp] theorem modify_nextpid : (kernel.modify p write).nextpid = kernel.nextpid := rfl
@[simp] theorem modify_heap : (kernel.modify p write).heap = kernel.heap := rfl
@[simp] theorem modify_mem : (kernel.modify p write).mem = kernel.mem := rfl
@[simp] theorem modify_kbd : (kernel.modify p write).kbd = kernel.kbd := rfl
@[simp] theorem modify_seed : (kernel.modify p write).seed = kernel.seed := rfl
@[simp] theorem modify_accepted : (kernel.modify p write).accepted = kernel.accepted := rfl
@[simp] theorem modify_pushed : (kernel.modify p write).pushed = kernel.pushed := rfl

theorem modify_same {β : Type} (field : Pcb → β)
    (same : field (write (kernel.proctab p)) = field (kernel.proctab p)) (i : Slot) :
    field ((kernel.modify p write).proctab i) = field (kernel.proctab i) := by
  rw [modify_proctab]
  split
  · rename_i equal
    subst equal
    exact same
  · rfl

def link (i : Slot) : Option Slot := (kernel.proctab i).next

def senderLink (i : Slot) : Option Slot := (kernel.proctab i).senderNext

end Kernel

/-- A `for` loop along `next`: the node in front of `target`, searching the list whose first
node is `prev` and whose rest starts at `curr`. The outer `none` is a loop that never ends;
more than `MAX_PROC` different nodes there are not. -/
def searchFrom (kernel : Kernel) (target : Slot) :
    Nat → Slot → Option Slot → Option (Option Slot)
  | 0, _, _ => none
  | _ + 1, _, none => some none
  | fuel + 1, prev, some curr =>
      if curr = target then some (some prev)
      else searchFrom kernel target fuel curr (kernel.proctab curr).next

abbrev loopFuel : Nat := MAX_PROC + 1

end XerosKernel
