import XerosKernel.DeviceCore
import XerosKernel.MemCore

/-!
The dispatcher: `create.c`, `signal.c`, the system calls of `disp.c`, the context switch
of `ctsw.c` as the kernel sees it, and the start-up of `init.c`. What a process does
between two entries to the kernel is the content of a `Trap`.
-/

namespace XerosKernel

/-! Processes. -/

def slotOf (pid : Word) : Slot := Fin.ofNat MAX_PROC pid.toNat

/-- The loop of `create`: `nextpid` after it, and the slot if one was free. -/
def createSearch (kernel : Kernel) : Nat → Word → Word × Option Slot
  | 0, nextpid => (nextpid, none)
  | fuel + 1, nextpid =>
      let nextpid := nextpid + 1
      let pIndex := slotOf nextpid
      if (kernel.proctab pIndex).state = .stopped then (nextpid, some pIndex)
      else createSearch kernel fuel nextpid

def sizeofContextFrame : Word := 44
def sizeofSignalFrame : Word := 24
def STARTING_EFLAGS : Word := 0x00003200

/-- The first context frame of a process, at `cf`; the word behind it is its return address. -/
def initialFrame (env : Env) (mem : Memory) (cf fp : Word) : Memory :=
  let mem := memset mem cf 0xA5 sizeofContextFrame
  let mem := storeWord mem (cf + 36) env.getCS
  let mem := storeWord mem (cf + 32) fp
  let mem := storeWord mem (cf + 40) STARTING_EFLAGS
  let mem := storeWord mem (cf + 44) env.sysstop
  let mem := storeWord mem (cf + 12) (cf + sizeofContextFrame)
  storeWord mem (cf + 8) (cf + sizeofContextFrame)

def create (env : Env) (kernel : Kernel) (fp stackSize : Word) : Option (Word × Kernel) :=
  let stackSize := if stackSize < PROC_STACK then PROC_STACK else stackSize
  let (nextpid, found) := createSearch kernel MAX_PROC kernel.nextpid
  let kernel := { kernel with nextpid := nextpid }
  match found with
  | none => some (CREATE_FAILURE, kernel)
  | some p =>
      match kmalloc kernel.heap stackSize with
      | none => none
      | some (block, heap) =>
          let kernel := { kernel with heap := heap }
          if block = 0 then some (CREATE_FAILURE, kernel)
          else
            let cf := block + stackSize - 4 - sizeofContextFrame
            let kernel := { kernel with mem := initialFrame env kernel.mem cf fp }
            let kernel := kernel.modify p fun pcb =>
              { pcb with esp := cf, state := .ready, pid := nextpid }
            some (nextpid, ready kernel p)

def findPCB (kernel : Kernel) (pid : Word) : Option Slot :=
  (List.finRange MAX_PROC).find? fun i => (kernel.proctab i).pid = pid

/-! Signals. -/

/-- The block of `signal` that sets up a handler frame on the stack of `p`. -/
def pushFrame (env : Env) (kernel : Kernel) (p : Slot) (signum : Fin MAX_SIG) : Kernel :=
  let pcb := kernel.proctab p
  let sigframe := pcb.esp - sizeofSignalFrame
  let cf := pcb.esp - sizeofSignalFrame - sizeofContextFrame
  let mem := storeWord kernel.mem (cf + 12) cf
  let mem := storeWord mem (cf + 32) env.sigtramp
  let mem := storeWord mem (cf + 36) env.getCS
  let mem := storeWord mem (cf + 40) STARTING_EFLAGS
  let mem := storeWord mem (sigframe + 4) (pcb.sigtab signum)
  let mem := storeWord mem (sigframe + 8) cf
  let mem := storeWord mem (sigframe + 12) pcb.esp
  let mem := storeWord mem (sigframe + 16) pcb.ret
  let mem := storeWord mem (sigframe + 20) pcb.currSigLvl
  let kernel := { kernel with mem := mem, pushed := kernel.pushed ++ [(p, signum)] }
  kernel.modify p fun pcb =>
    { pcb with currSigLvl := BitVec.ofNat 32 signum, esp := cf }

def signalMask (signum : Fin MAX_SIG) : Word := 1 <<< signum.val

def signal (env : Env) (kernel : Kernel) (p : Slot) (signum : Fin MAX_SIG) : Word × Kernel :=
  if (kernel.proctab p).sigtab signum ≠ 0 then
    let kernel := kernel.modify p fun pcb =>
      { pcb with sigmask := pcb.sigmask ||| signalMask signum }
    let kernel := { kernel with accepted := kernel.accepted ++ [(p, signum)] }
    let kernel := if (kernel.proctab p).currSigLvl.toInt < (signum.val : Int) then
      pushFrame env kernel p signum else kernel
    (0, kernel)
  else (0, kernel)

/-- The loop of `kill` over the processes that wait for the target. -/
def wakeWaiters (kernel : Kernel) (target : Slot) : Kernel :=
  (List.finRange MAX_PROC).foldl (fun kernel proc =>
    if (kernel.proctab proc).state = .wait ∧
        (kernel.proctab proc).waitpid = (kernel.proctab target).pid then
      (ready kernel proc).modify proc fun pcb => { pcb with waitpid := 0 }
    else kernel) kernel

/-- `kill` up to its call of `signal`: the queues after waking the target. -/
def killWake (kernel : Kernel) (target : Slot) : Option Kernel :=
  let kernel := if (kernel.proctab target).state = .wait then
    ready (kernel.modify target fun pcb => { pcb with ret := -666 }) target else kernel
  if (kernel.proctab target).state = .sleep then
    match killInSleep kernel target with
    | none => none
    | some left => some (ready (kernel.modify target fun pcb => { pcb with ret := left }) target)
  else some kernel

def killUnlink (kernel : Kernel) (target : Slot) : Option Kernel :=
  match (kernel.proctab target).state with
  | .ready => removeFromReady kernel target
  | .sleep => removeFromSleep kernel target
  | _ => some kernel

def kill (env : Env) (kernel : Kernel) (pid signum : Word) : Option (Word × Kernel) :=
  if signum.toInt < 0 ∨ 31 < signum.toInt then some (-1, kernel)
  else
    match findPCB kernel pid with
    | none => some (-999, kernel)
    | some targetPCB =>
        let signum := Fin.ofNat MAX_SIG signum.toNat
        if (kernel.proctab targetPCB).sigmask &&& signalMask signum ≠ 0 then some (0, kernel)
        else
          match killWake kernel targetPCB with
          | none => none
          | some kernel =>
              if signum.val = 31 then
                match killUnlink kernel targetPCB with
                | none => none
                | some kernel =>
                    some (signal env (wakeWaiters kernel targetPCB) targetPCB signum)
              else some (signal env kernel targetPCB signum)

/-- The loop of `SYS_SIGRETURN` over the bits of `sigmask`, with a signed `i`. -/
def sigreturnLoop (sigmask : Word) : Nat → Word → Word
  | 0, _ => sigmask
  | fuel + 1, i =>
      if 1 < i.toInt then
        if i &&& sigmask ≠ 0 then sigmask - i else sigreturnLoop sigmask fuel (i.sdiv 2)
      else sigmask

def sigreturnMask (sigmask : Word) : Word := sigreturnLoop sigmask 32 (1 <<< 31)

/-! CPU times. -/

def ProcState.code (env : Env) : ProcState → Word
  | .stopped => 0
  | .ready => 1
  | .wait => 21
  | .sleep => 22
  | .running => 23
  | .blocked => 24
  | .blockedSend => env.STATE_BLOCKED_SEND
  | .blockedRecv => env.STATE_BLOCKED_RECV

def sizeofProcessStatuses : Word := 4 + 3 * 4 * 64

def getCPUtimes (env : Env) (kernel : Kernel) (p : Slot) (ps : Word) : Word × Kernel :=
  if env.HOLESTART ≤ ps ∧ ps ≤ env.HOLEEND then (-1, kernel)
  else if env.maxaddr < ps + sizeofProcessStatuses then (-2, kernel)
  else
    let (currentSlot, mem) := (List.finRange MAX_PROC).foldl (fun (slot, mem) i =>
      let pcb := kernel.proctab i
      if pcb.state ≠ .stopped then
        let slot : Word := slot + 1
        let mem := storeWord mem (ps + 4 + 4 * slot) pcb.pid
        let mem := storeWord mem (ps + 4 + 256 + 4 * slot)
          (if (kernel.proctab p).pid = pcb.pid then ProcState.code env .running
            else pcb.state.code env)
        let mem := storeWord mem (ps + 4 + 512 + 4 * slot) (pcb.cpuTime * MILLISECONDS_TICK)
        (slot, mem)
      else (slot, mem)) ((-1 : Word), kernel.mem)
    (currentSlot, { kernel with mem := mem })

/-! The dispatcher. -/

inductive Request
  | create (fp stack : Word)
  | yield
  | stop
  | kill (pid signum : Word)
  | cputimes (ps : Word)
  | puts (str : Word)
  | getpid
  | sleep (len : Word)
  | timer
  | sighandler (signum handler : Word)
  | sigreturn (old_sp old_ret sigLvl : Word)
  | wait (pid : Word)
  | openDevice (device_no : Word)
  | close (fd : Word)
  | read (fd buff bufflen : Word)
  | write (fd buff bufflen : Word)
  | ioctl (fd command arg3 : Word)
  | keyboard
  | bad (r : Word)
  deriving DecidableEq, Repr

def vaArg (kernel : Kernel) (args : Word) (index : Nat) : Word :=
  loadWord kernel.mem (args + 4 * BitVec.ofNat 32 index)

def SYS_TIMER : Word := 33
def SYS_KEYBOARD : Word := 187

def decode (kernel : Kernel) (p : Slot) (r : Word) : Request :=
  let ap := vaArg kernel (kernel.proctab p).args
  match r.toNat with
  | 22 => .create (ap 0) (ap 1)
  | 11 => .yield
  | 10 => .stop
  | 177 => .kill (ap 0) (ap 1)
  | 178 => .cputimes (ap 0)
  | 155 => .puts (ap 0)
  | 144 => .getpid
  | 166 => .sleep (ap 0)
  | 33 => .timer
  | 179 => .sighandler (ap 0) (ap 1)
  | 180 => .sigreturn (ap 0) (ap 1) (ap 2)
  | 181 => .wait (ap 0)
  | 182 => .openDevice (ap 0)
  | 183 => .close (ap 0)
  | 185 => .read (ap 0) (ap 1) (ap 2)
  | 184 => .write (ap 0) (ap 1) (ap 2)
  | 186 => .ioctl (ap 0) (ap 1) (ap 2)
  | 187 => .keyboard
  | _ => .bad r

/-- The kernel together with the process `p` of the loop in `dispatch`. -/
structure Dispatcher where
  kernel : Kernel
  current : Slot

/-- `p->ret = value` and on with the same process. -/
def resume (p : Slot) : Word × Kernel → Dispatcher
  | (value, kernel) =>
      { kernel := kernel.modify p fun pcb => { pcb with ret := value }, current := p }

/-- `p = next()`. -/
def reschedule (kernel : Kernel) : Option Dispatcher :=
  (next kernel).map fun (kernel, p) => { kernel := kernel, current := p }

/-- One case of the `switch`. A signal number outside of `sigtab`, which the stub `syssignal`
lets no process pass, is undefined. -/
def serve (env : Env) (kernel : Kernel) (p : Slot) (ports : Ports) :
    Request → Option Dispatcher
  | .create fp stack => (create env kernel fp stack).map (resume p)
  | .yield => reschedule (ready kernel p)
  | .stop => reschedule (kernel.modify p fun pcb => { pcb with state := .stopped })
  | .kill pid signum => (kill env kernel pid signum).map (resume p)
  | .cputimes ps => some (resume p (getCPUtimes env kernel p ps))
  | .puts _ => some (resume p (0, kernel))
  | .getpid => some (resume p ((kernel.proctab p).pid, kernel))
  | .sleep len => (sleep kernel p len).bind reschedule
  | .timer => (tick kernel).bind fun kernel =>
      reschedule (ready (kernel.modify p fun pcb => { pcb with cpuTime := pcb.cpuTime + 1 }) p)
  | .sighandler signum handler =>
      if (env.HOLESTART ≤ handler ∧ handler ≤ env.HOLEEND) ∨ env.maxaddr < handler then
        some (resume p (0, kernel))
      else if signum.toNat < MAX_SIG then
        let signum := Fin.ofNat MAX_SIG signum.toNat
        some (resume p ((kernel.proctab p).sigtab signum, kernel.modify p fun pcb =>
          { pcb with sigtab := fun i => if i = signum then handler else pcb.sigtab i }))
      else none
  | .sigreturn old_sp old_ret sigLvl =>
      some (resume p (old_ret, kernel.modify p fun pcb =>
        { pcb with
          sigmask := sigreturnMask pcb.sigmask, esp := old_sp, currSigLvl := sigLvl }))
  | .wait pid =>
      match findPCB kernel pid with
      | none => some (resume p (-1, kernel))
      | some _ =>
          if pid = 0 then some (resume p (-1, kernel))
          else reschedule (kernel.modify p fun pcb =>
            { pcb with state := .wait, waitpid := pid, ret := 0 })
  | .openDevice device_no => some (resume p (diOpen kernel p device_no))
  | .close fd => (diClose kernel p fd).map (resume p)
  | .read fd buff bufflen => (diRead env kernel p fd buff bufflen).bind fun (readRet, kernel) =>
      if readRet = -3 then reschedule kernel else some (resume p (readRet, kernel))
  | .write fd buff bufflen => (diWrite env kernel p fd buff bufflen).map (resume p)
  | .ioctl fd command arg3 => (diIoctl env kernel p fd command arg3).map (resume p)
  | .keyboard => some { kernel := kbdHandler kernel p ports, current := p }
  | .bad _ => some { kernel := kernel, current := p }

inductive TrapNo
  | kernel
  | timer
  | keyboard
  deriving DecidableEq, Repr

/-- An entry to the kernel: the registers and the memory the process left behind. -/
structure Trap where
  trapNo : TrapNo
  esp : Word
  eax : Word
  edx : Word
  mem : Memory
  ports : Ports

/-- The second half of `contextswitch`: what it stores and the request it returns. -/
def contextswitch (kernel : Kernel) (p : Slot) (trap : Trap) : Kernel × Word :=
  let kernel := { kernel with mem := trap.mem }
  let kernel := kernel.modify p fun pcb => { pcb with esp := trap.esp }
  match trap.trapNo with
  | .timer => (kernel.modify p fun pcb => { pcb with ret := trap.eax }, SYS_TIMER)
  | .keyboard => (kernel.modify p fun pcb => { pcb with ret := trap.eax }, SYS_KEYBOARD)
  | .kernel => (kernel.modify p fun pcb => { pcb with args := trap.edx }, trap.eax)

def dispatch (env : Env) (dispatcher : Dispatcher) (trap : Trap) : Option Dispatcher :=
  let p := dispatcher.current
  let (kernel, r) := contextswitch dispatcher.kernel p trap
  serve env kernel p trap.ports (decode kernel p r)

/-! Start-up. -/

def sizeofDevsw : Word := 24

def dispatchinit (env : Env) (heap : Heap) : Kernel :=
  { proctab := fun _ => {}, head := none, tail := none, sleepQ := none, nextpid := 0,
    heap := heap, mem := env.mem, kbd := {}, seed := env.seed, accepted := [], pushed := [] }

/-- The three `devsw` records that `initproc` allocates and copies to `devtable`. -/
def initDevices (heap : Heap) : Option Heap := do
  let (_, heap) ← kmalloc heap sizeofDevsw
  let (_, heap) ← kmalloc heap sizeofDevsw
  let (_, heap) ← kmalloc heap sizeofDevsw
  some heap

/-- `initproc` up to the first process that `dispatch` selects. -/
def boot (env : Env) : Option Dispatcher := do
  let heap ← initDevices (kmeminit env)
  let kernel := dispatchinit env heap
  let (_, kernel) ← create env kernel env.idleproc PROC_STACK
  let (_, kernel) ← create env kernel env.initProgram PROC_STACK
  reschedule kernel

end XerosKernel
